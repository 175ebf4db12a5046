import CallLifecycle.Scenario.Stage

/-!
# The task of a handler

A handler carries its script out, step by step, until a step has to wait; woken, it looks at that
step again. It runs within its adapter, which reads the single request of a call before it and
writes the single response after it.

* `tryStep` — a look at the current step;
* `runHandler` — runs the handler until it has to wait;
* `dropHandler` — drops the handler where it waits.
-/

namespace CallLifecycle.Scenario

open Answer

/-- The one who waits for the handler. -/
def handlerWaiter : Waiter := .task .handler

/-- What a look at a step gave. -/
inductive StepLook where
  /-- The handler has to wait, here. -/
  | waits (midway : Midway)
  /-- The step goes on, from here. -/
  | goesOn (midway : Midway)
  /-- The step is done. -/
  | gives (r : Except Status Answer)
  /-- The handler ends with a failure of its own. -/
  | fails (e : Failure)
  /-- The handler breaks off. -/
  | breaksOff

/-- The status of a step that needs what its handler does not have. -/
def notAvailable : Status := Status.of .internal "not available to this handler"

/-- The status of a step that does not exist. -/
def unknownStep : Status := Status.of .internal "unknown step"

/-- A step that is done without a value. -/
def StepLook.done : StepLook := gives (.ok nothing)

/-- A step that cannot be done. -/
def StepLook.refused (s : Status) : StepLook := gives (.error s)

/-- What a settled write gives. -/
def StepLook.ofCapacity (midway : Midway) (after : StepLook) :
    Poll (Except WriteFailure Unit) → StepLook
  | .pending => waits midway
  | .ready (.ok _) => after
  | .ready (.error f) => refused f.status

/-- Reads the next request. -/
def readRequest : Play (Poll (Except Status (Option Message))) := do
  return (← onServer fun _ c => c.readRequest handlerWaiter).getD .pending

/-- Looks at the suspended write of the handler. -/
def lookAtWrite : Play (Poll (Except WriteFailure Unit)) := do
  return (← onServer fun _ c => c.pollWrite handlerWaiter).getD .pending

/-- Writes a message; a suspended write leaves the handler where `midway` says. -/
def writeResponse (m : Outbound Message) (midway : Midway) (after : StepLook) : Play StepLook := do
  match (← onServer fun _ c => c.write m).getD (.refused .cancelled) with
  | .refused f => return .refused f.status
  | .done => return after
  | .suspended => return .ofCapacity midway after (← lookAtWrite)

/-- What an item of the request stream gives. -/
def ofRequestItem : Item Message Status → Except Status Answer
  | .next m => .ok (fields [("item", text m)])
  | .failed s => .error s
  | .ended => .ok (text "ended")

/-- What a handler knows of its call. -/
def contextOf (path : String) (now : Instant) (cancelled : Bool) (r : HandlerRun) : Answer :=
  fields [("path", text path), ("metadata", ofMetadata r.metadata),
    ("deadline", optional (fun d => ofDuration ⟨d - now⟩) r.deadline),
    ("cancelled", flag cancelled)]

/-- The context of a handler in diagnostics, of a call without a deadline. -/
def debugContextOf (path : String) (cancelled : Bool) (r : HandlerRun) : String :=
  Text.record "ServerCallContext" [("request_metadata", r.metadata.debug),
    ("path", Text.quote path), ("deadline", "None"), ("cancelled", Text.flag cancelled)]

/-- Whether a step reads the request stream or does something else with it. -/
def HandlerAction.needsRequests : HandlerAction → Bool
  | .recv | .next | .recvAll | .echo | .dropRequests | .debugRequests | .stashRequests => true
  | _ => false

/-- Whether a step needs the writer of the responses. -/
def HandlerAction.needsResponses : HandlerAction → Bool
  | .echo | .debugResponses | .send _ | .sendMany .. | .drained | .finish => true
  | _ => false

/-- Reads on until the end of the requests. -/
def gather (messages : List Message) : Play StepLook := do
  match ← readRequest with
  | .pending => return .waits (.gathered messages)
  | .ready (.error s) => return .refused s
  | .ready (.ok (some m)) => return .goesOn (.gathered (messages ++ [m]))
  | .ready (.ok none) =>
    editRun fun r => { r with reply := ",".intercalate messages }
    return .gives (.ok (texts messages))

/-- Answers the next request. -/
def echoNext : Play StepLook := do
  match ← readRequest with
  | .pending => return .waits .fresh
  | .ready (.error s) => return .refused s
  | .ready (.ok none) => return .done
  | .ready (.ok (some m)) => writeResponse { message := "re:" ++ m } .writing (.goesOn .fresh)

/-- The value of a step that sent so many messages. -/
def lastNumber (count : Nat) : Answer := if count = 0 then nothing else number (count - 1 : Nat)

/-- A look at a step, for which the handler has what it needs. -/
def tryAction (side : ServerSide) (run : HandlerRun) (now : Instant) (midway : Midway) :
    HandlerAction → Play StepLook
  | .recv => do
    match ← readRequest with
    | .pending => return .waits .fresh
    | .ready r => return .gives (r.map ofMessage?)
  | .next => do
    match ← nextRequest handlerWaiter with
    | .pending => return .waits .fresh
    | .ready item => return .gives (ofRequestItem item)
  | .recvAll =>
    match midway with
    | .gathered messages => gather messages
    | _ => gather []
  | .echo =>
    match midway with
    | .writing => return .ofCapacity .writing (.goesOn .fresh) (← lookAtWrite)
    | _ => echoNext
  | .dropRequests => do
    editRun fun r => { r with holdsRequests := false }
    return .done
  | .debugRequests =>
    return .gives (.ok (text (debugStreaming side.call.requests side.requestsDone)))
  | .debugResponses => return .gives (.ok (text (debugStreamWriter side.call.writer)))
  | .debugContext =>
    return .gives (.ok (text (debugContextOf side.path side.call.cancellation.raised run)))
  | .send m =>
    match midway with
    | .writing => return .ofCapacity .writing .done (← lookAtWrite)
    | _ => writeResponse m .writing .done
  | .sendMany label count =>
    let next (n : Nat) : Play StepLook :=
      if n < count then
        writeResponse { message := label ++ toString n } (.countingOn (n + 1))
          (.goesOn (.counting (n + 1)))
      else return .gives (.ok (lastNumber count))
    match midway with
    | .counting n => next n
    | .countingOn n =>
      return .ofCapacity (.countingOn n) (.goesOn (.counting n)) (← lookAtWrite)
    | _ => next 0
  | .drained => do
    match (← onServer fun _ c => c.pollDrained handlerWaiter).getD .pending with
    | .pending => return .waits .fresh
    | .ready _ => return .done
  | .finish => do
    changeServer fun _ c => c.finishResponses
    return .gives (.ok (flag ((← get).server.any (·.call.writer.isFinished))))
  | .set setting => do
    match midway with
    | .ordered id =>
      match (← onServer fun _ c => c.pollReply id handlerWaiter).getD .pending with
      | .pending => return .waits midway
      | .ready r => return .gives (r.map fun _ => nothing)
    | _ =>
      match ← onServer fun _ c => c.issue setting with
      | some (.ok id) => return .goesOn (.ordered id)
      | some (.error s) => return .refused s
      | none => return .waits midway
  | .context => return .gives (.ok (contextOf side.path now side.call.cancellation.raised run))
  | .wait gate => return if gate ∈ (← get).gates then .done else .waits .fresh
  | .sleep ms =>
    let alarm := match midway with
      | .sleeping alarm => alarm
      | _ => now.alarmAfter (Duration.ofMillis ms)
    return if alarm ≤ now then .done else .waits (.sleeping alarm)
  | .cancelled => do
    if (← onServer fun _ c => c.pollCancelled handlerWaiter).getD false then return .done
    return .waits .fresh
  | .stash => do
    editServer fun s => { s with stashed := true }
    return .done
  | .stashRequests => do
    editServer fun s => { s with stashedRequests := true }
    editRun fun r => { r with holdsRequests := false }
    return .done
  | .reply m => do
    editRun fun r => { r with reply := m }
    return .done
  | .fail e => return .fails e
  | .breakOff => return .breaksOff
  | .unknown => return .refused unknownStep

/-- A look at a step. -/
def tryStep (side : ServerSide) (run : HandlerRun) (now : Instant) (midway : Midway)
    (action : HandlerAction) : Play StepLook :=
  if action.needsRequests && !run.holdsRequests then return .refused notAvailable
  else if action.needsResponses && !side.handlerPlan.kind.streamsResponses then
    return .refused notAvailable
  else tryAction side run now midway action

/-- Puts the handler somewhere. -/
def moveHandler (p : HandlerPosition) : Play Unit := editRun fun r => { r with position := p }

/-- Ends the handler: everyone who looks after it is woken. -/
def endHandler (outcome : Option Failure) : Play Unit := do
  moveHandler .ended
  changeServer fun _ c => c.returned outcome

/-- Drops the handler before its end; only a script that was begun notices. -/
def dropHandler (run : HandlerRun) : Play Unit := do
  match run.position with
  | .stepping _ => log (text "dropped")
  | _ => pure ()
  moveHandler .ended
  changeServer fun _ c => c.lost

/-- Goes on behind the script: a single response is written. -/
def replyAndEnd (kind : Server.HandlerKind) (run : HandlerRun) : Play Unit := do
  log (text "returned")
  if kind.streamsResponses then endHandler none
  else
    match ← onServer fun _ c => c.write { message := run.reply } with
    | some .done => endHandler none
    | some .suspended => moveHandler .replying
    | some (.refused f) => endHandler (some (.status f.status))
    | none => pure ()

/-- Goes on with the script; whether the handler can run on. -/
def goOn (side : ServerSide) (run : HandlerRun) (now : Instant) (midway : Midway) : Play Bool := do
  match run.script with
  | [] =>
    replyAndEnd side.handlerPlan.kind run
    return true
  | step :: rest =>
    match ← tryStep side run now midway step.action with
    | .waits midway =>
      moveHandler (.stepping midway)
      return false
    | .goesOn midway =>
      moveHandler (.stepping midway)
      return true
    | .gives r =>
      log (list [text step.name, ofResult id r])
      match r, step.strict with
      | .error s, true => endHandler (some (.status s))
      | _, _ => editRun fun run => { run with script := rest, position := .stepping .fresh }
      return true
    | .fails e =>
      log (list [text step.name])
      endHandler (some e)
      return true
    | .breaksOff =>
      dropHandler run
      return true

/-- Lets the handler do the next thing; whether it can run on. -/
def advanceHandler (side : ServerSide) (run : HandlerRun) (now : Instant) : Play Bool := do
  match run.position with
  | .ended => return false
  | .adapting a =>
    match (← onServer fun _ c => c.adapt handlerWaiter a).getD .pending with
    | .pending => return false
    | .ready (.invoked m) => editRun fun r => { r with position := .opening (some m), reply := m }
    | .ready .ended => moveHandler .ended
    | .ready a => moveHandler (.adapting a)
    return true
  | .opening request =>
    log (list [text "started", ofMessage? request])
    moveHandler (.stepping .fresh)
    return true
  | .stepping midway => goOn side run now midway
  | .replying =>
    match ← lookAtWrite with
    | .pending => return false
    | .ready (.ok _) => endHandler none
    | .ready (.error f) => endHandler (some (.status f.status))
    return true

/-- Runs the handler until it has to wait. -/
def runHandler : Nat → Play Unit
  | 0 => pure ()
  | fuel + 1 => do
    let s ← get
    match s.server, s.server.bind (·.run) with
    | some side, some run =>
      match run.position, run.aborted with
      | .ended, _ => pure ()
      | _, true => dropHandler run
      | _, false => if ← advanceHandler side run s.clock then runHandler fuel
    | _, _ => pure ()

end CallLifecycle.Scenario
