import CallLifecycle.Scenario.Running

/-!
# Playing a scenario

A scenario is a list of steps. Each is carried out, everything runs that can, and an answer tells
what the step gave and what was noted meanwhile.

* `perform` — carries one step out;
* `playServer`, `playClient`, `playBoth` — plays a scenario with one of the sides of a call or with
  both of them.
-/

namespace CallLifecycle.Scenario

open Answer

/-- A step that does not exist, or not here. -/
def unknownOp : Answer := text "unknown op"

/-- A step of the transport of a server call. -/
def performServer (side : ServerSide) : ServerOp → Play Answer
  | .hand i => do
    if !side.holdsHandle then return text "no handle"
    tellServer fun c => c.submit i
    return nothing
  | .completed id => do
    if !side.holdsHandle then return text "no handle"
    makeWait id .completed
    return nothing
  | .dropHandle => do
    editServer fun s => { s with holdsHandle := false }
    letGo
    return nothing
  | .dropTransport => do
    editServer fun s => { s with watched := false }
    return nothing
  | .debug => return text side.plan.debug
  | .shutdown id => do
    if !side.plan.graceful || side.shutdownAsked then return text "none"
    editServer fun s => { s with shutdownAsked := true }
    makeWait id .shutdown
    return nothing

/-- Whether a step needs the writer that a handler left. -/
def StashOp.needsWriter : StashOp → Bool
  | .send .. | .drained _ | .finish | .isFinished => true
  | _ => false

/-- Whether what a step needs was left by the handler. -/
def ServerSide.hasFor (side : ServerSide) : StashOp → Bool
  | .read _ | .next _ => side.stashedRequests
  | _ => side.stashed

/-- A step with what a handler left. -/
def performStash (side : ServerSide) (op : StashOp) : Play Answer := do
  if !side.hasFor op then return text "nothing stashed"
  if op.needsWriter && !side.handlerPlan.kind.streamsResponses then return unknownOp
  match op with
  | .send id m => makeWait id (.stashSend (some m))
  | .drained id => makeWait id .stashDrained
  | .finish => changeServer fun _ c => c.finishResponses
  | .isFinished => return flag side.call.writer.isFinished
  | .set id setting => makeWait id (.stashSet setting)
  | .cancelled id => makeWait id .stashCancelled
  | .isCancelled => return flag side.call.cancellation.raised
  | .read id => makeWait id (.stashRead false)
  | .next id => makeWait id (.stashRead true)
  | .drop => editServer fun s => { s with stashed := false, stashedRequests := false }
  return nothing

/-- Whether a step needs a handle of the client call. -/
def ClientOp.needsCall : ClientOp → Bool
  | .cancel | .debug | .response _ | .responses | .initial _ | .trailing _
  | .status _ => true
  | _ => false

/-- Whether a call of a shape has what a step needs. -/
def ClientOp.fits (shape : Client.Shape) : ClientOp → Bool
  | .send .. | .finish | .isFinished | .drained _ => shape.streamsRequests
  | .response _ => !shape.streamsResponses
  | .responses => shape.streamsResponses
  | _ => true

/-- The status of responses that were taken. -/
def responsesTaken : Status := Status.of .failedPrecondition "responses were already taken"

/-- A step of the transport or the user of a client call. -/
def performClient (side : ClientSide) (op : ClientOp) : Play Answer := do
  if op.needsCall && !side.held then return text "no call"
  if !op.fits side.plan.shape then return unknownOp
  match op with
  | .tell r => changeClient fun s c => c.onRouted s.plan.setup r
  | .debugRouter =>
    return text (Text.optional (Text.record "ResponseRouter")
      (some [("alive", Text.flag side.call.alive)]))
  | .cancel => changeClient fun _ c => c.cancel
  | .dropCall =>
    editClient fun s => { s with held := false }
    letGo
  | .debug => return text (side.call.debug side.plan.shape)
  | .send id m => makeWait id (.send (some m))
  | .finish =>
    changeClient fun s c => c.finishRequests s.plan.setup
    return flag ((← get).client.any (·.call.writer.isFinished))
  | .isFinished => return flag side.call.writer.isFinished
  | .drained id => makeWait id .drained
  | .response id => makeWait id .response
  | .responses =>
    editClient fun s => { s with taken := true, streaming := s.streaming || !s.taken }
    return ofDone (if side.taken then .error responsesTaken else .ok ())
  | .read id =>
    if !side.streaming then return unknownOp
    makeWait id (.read false)
  | .next id =>
    if !side.streaming then return unknownOp
    makeWait id (.read true)
  | .dropResponses =>
    if !side.streaming then return unknownOp
    editClient fun s => { s with streaming := false }
  | .initial id => makeWait id .initial
  | .trailing id => makeWait id .trailing
  | .status id => makeWait id .status
  return nothing

/-- Opens a gate. -/
def openGate (name : String) : Play Unit := do
  modify fun s => { s with gates := register name s.gates }
  wake (.task .handler)

/-- Carries a step out, without letting anything run, unless time passes. -/
def performSingle : Op → Play Answer
  | .server o => do
    match (← get).server with
    | some side => performServer side o
    | none => return unknownOp
  | .stash o => do
    match (← get).server with
    | some side => performStash side o
    | none => return unknownOp
  | .client o => do
    match (← get).client with
    | some side => performClient side o
    | none => return unknownOp
  | .gate name => do
    if (← get).server.isNone then return unknownOp
    openGate name
    return nothing
  | .dropSlot id => return flag (← dropWait id)
  | .advance ms => do
    passTime ms
    return nothing
  | .batch _ => return unknownOp
  | .unknown => return unknownOp

/-- Carries a step out. -/
def perform : Op → Play Answer
  | .batch ops => return list (← ops.mapM performSingle)
  | op => performSingle op

/-- Whether the call is over, for whoever holds it. -/
def Stage.completed (s : Stage) : List (String × Answer) :=
  match s.client, s.server with
  | some c, _ => [("completed", if c.held then flag c.call.isCompleted else nothing)]
  | none, some v => if v.holdsHandle then [("completed", flag v.call.ended)] else []
  | none, none => []

/-- Lets everything run and tells what a step gave. -/
def conclude (r : Answer) : Play Answer := do
  rest
  let s ← get
  set { s with notes := {} }
  let resolved := s.notes.resolved.mergeSort fun a b => a.1 ≤ b.1
  return fields <|
    [("r", r), ("sent", list s.notes.sent), ("wire", list s.notes.wire),
      ("log", list s.notes.log), ("visits", list s.notes.visits),
      ("resolved", list (resolved.map fun e => list [number e.1, e.2]))] ++ s.completed

/-- Plays the steps of a scenario behind its start. -/
def playSteps (ops : List Op) : Play (List Answer) :=
  ops.mapM fun op => do conclude (← perform op)

/-- Plays a scenario. -/
def play (start : Play Unit) (ops : List Op) (s : Stage) : List Answer :=
  let scenario : Play (List Answer) := do
    start
    return (← conclude (text "start")) :: (← playSteps ops)
  (scenario.run s).1

/-- How many turns a step of a handler may take. -/
def HandlerAction.turns : HandlerAction → Nat
  | .sendMany _ count => count + 2
  | _ => 2

/-- How many steps a step of a scenario stands for. -/
def Op.size : Op → Nat
  | .batch ops => ops.length + 1
  | _ => 1

/-- More turns than the tasks of a scenario can be kept busy for. -/
def budgetFor (handler : HandlerPlan) (parts : Nat) (ops : List Op) : Nat :=
  16 * (handler.script.foldl (fun n s => n + s.action.turns) <|
    ops.foldl (fun n o => n + o.size) (8 + parts))

/-- The server's side before its call was started. -/
def ServerSide.ofPlan (plan : ServerPlan) (handlerPlan : HandlerPlan) (path : String)
    (holdsHandle : Bool) : ServerSide :=
  { plan, handlerPlan, path, holdsHandle, call := Server.Call.new plan.setup [] }

/-- The client's side before its call was started. -/
def ClientSide.ofPlan (plan : ClientPlan) (path : String) : ClientSide :=
  { plan, path, call := Client.Call.new plan.setup plan.shape plan.runtime [] }

/-- Starts the client call. -/
def startClient : Play Unit := changeClient fun s c =>
  c.begin s.plan.setup s.plan.shape s.plan.request (s.plan.meanwhile.map .part) s.plan.failure

/-- Plays a scenario with a server call, whose transport is the scenario. -/
def playServer (path : String) (plan : ServerPlan) (handler : HandlerPlan) (ops : List Op) :
    List Answer :=
  play (wake (.task .server)) ops
    { server := some (.ofPlan plan handler path true), budget := budgetFor handler 0 ops }

/-- Plays a scenario with a client call, whose transport is the scenario. -/
def playClient (path : String) (plan : ClientPlan) (ops : List Op) : List Answer :=
  play startClient ops
    { client := some (.ofPlan plan path), budget := budgetFor {} plan.meanwhile.length ops }

/-- Plays a scenario with a client call whose transport is a server call. -/
def playBoth (path : String) (server : ServerPlan) (handler : HandlerPlan) (client : ClientPlan)
    (ops : List Op) : List Answer :=
  play startClient ops
    { server := some (.ofPlan server handler path false), client := some (.ofPlan client path),
      budget := budgetFor handler client.meanwhile.length ops }

end CallLifecycle.Scenario
