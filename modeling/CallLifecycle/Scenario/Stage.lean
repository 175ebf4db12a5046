import CallLifecycle.Client.Deadline
import CallLifecycle.Scenario.Answer
import CallLifecycle.Scenario.Script
import CallLifecycle.Server.Adapter

/-!
# The stage of a scenario

On the stage stand the two sides of a call, the tasks that drive them and the waits of the scenario.
A task runs when something woke it, in the order of waking; the clock stands still meanwhile.

* `Stage` — everything that stands there, and the notes of the current step;
* `wake` — lets a task or a wait look again;
* `onServer`, `onClient` — do something with one of the calls and carry out what that does to its
  surroundings: to the notes, to the tasks and to the other call.
-/

namespace CallLifecycle.Scenario

/-- The tasks that drive a call. -/
inductive Task where
  /-- The loop of the server call. -/
  | server
  /-- The handler of the server call. -/
  | handler
  /-- The deadline of the client call. -/
  | deadline
  /-- The stop of the request writer. -/
  | stopper
  deriving DecidableEq, Repr

/-- Who can be woken: a task, or the wait of a serial number. -/
inductive Waiter where
  | task (t : Task)
  | wait (serial : Nat)
  deriving DecidableEq, Repr

/-- How far a handler is within a step. -/
inductive Midway where
  /-- The step was not begun, or begins anew. -/
  | fresh
  /-- These messages were read. -/
  | gathered (messages : List Message)
  /-- A write is suspended. -/
  | writing
  /-- The write of the nth message is next. -/
  | counting (n : Nat)
  /-- The write before the nth message is suspended. -/
  | countingOn (n : Nat)
  /-- An order was given under a number. -/
  | ordered (id : Nat)
  | sleeping (alarm : Instant)

/-- Where a handler is. -/
inductive HandlerPosition where
  /-- Its adapter is at work, which reads its single request. -/
  | adapting (a : Server.Adapter Message)
  /-- It starts, with this request. -/
  | opening (request : Option Message)
  /-- It carries its script out. -/
  | stepping (midway : Midway)
  /-- The write of its reply is suspended. -/
  | replying
  | ended

/-- A handler that was started. -/
structure HandlerRun where
  metadata : Metadata
  deadline : Option Instant
  /-- The steps that are left. -/
  script : List HandlerStep
  position : HandlerPosition
  /-- It is to be dropped where it waits. -/
  aborted : Bool := false
  reply : Message := "done"
  /-- It holds its request stream. -/
  holdsRequests : Bool

/-- What the scenario waits for. -/
inductive Wait where
  /-- The end of the server call. -/
  | completed
  /-- The end of all tasks of the server. -/
  | shutdown
  /-- A response message, to be written unless the write is suspended already. -/
  | stashSend (m : Option (Outbound Message))
  | stashDrained
  | stashSet (setting : Server.Setting)
  | stashReply (id : Nat)
  | stashCancelled
  /-- The next request, or the next item of the request stream. -/
  | stashRead (asItem : Bool)
  /-- A request message, to be written unless the write is suspended already. -/
  | send (m : Option (Outbound Message))
  | drained
  | response
  /-- The next response, or the next item of the response stream. -/
  | read (asItem : Bool)
  | initial
  | trailing
  | status

/-- A wait of the scenario, under the number that the scenario knows it by. -/
structure PendingWait where
  id : Nat
  serial : Nat
  wait : Wait

/-- The server call of a scenario. -/
abbrev ServerCall := Server.Call Tally Message Message Waiter

/-- The client call of a scenario. -/
abbrev ClientCall := Client.Call Tally Message Message Waiter

/-- The server's side of the stage. -/
structure ServerSide where
  plan : ServerPlan
  handlerPlan : HandlerPlan
  path : String
  call : ServerCall
  run : Option HandlerRun := none
  /-- The scenario holds a handle of the call. -/
  holdsHandle : Bool
  /-- The scenario sees what the call sends. -/
  watched : Bool := true
  /-- The request stream told its last item. -/
  requestsDone : Bool := false
  /-- The handler left its context to the scenario, and its writer if it has one. -/
  stashed : Bool := false
  /-- The handler left its request stream to the scenario. -/
  stashedRequests : Bool := false
  /-- Somebody waits, or waited, for the end of all tasks. -/
  shutdownAsked : Bool := false

/-- The client's side of the stage. -/
structure ClientSide where
  plan : ClientPlan
  path : String
  call : ClientCall
  deadline : Client.DeadlineTask := .idle
  /-- The scenario holds the call. -/
  held : Bool := true
  /-- The response stream was taken. -/
  taken : Bool := false
  /-- The scenario holds the response stream. -/
  streaming : Bool := false
  /-- The response stream told its last item. -/
  done : Bool := false

/-- What is noted in a step. -/
structure Notes where
  sent : List Answer := []
  wire : List Answer := []
  log : List Answer := []
  visits : List Answer := []
  resolved : List (Nat × Answer) := []

/-- Everything that stands on the stage. -/
structure Stage where
  clock : Instant := 0
  server : Option ServerSide := none
  client : Option ClientSide := none
  /-- The tasks that were woken, in order. -/
  ready : List Task := []
  /-- The serial numbers of the waits that were woken. -/
  woken : List Nat := []
  waits : List PendingWait := []
  nextSerial : Nat := 0
  /-- Who reads the requests, and who is to read them after that. -/
  requestReaders : List Nat := []
  /-- Who reads the responses, and who is to read them after that. -/
  responseReaders : List Nat := []
  /-- The gates that are open. -/
  gates : List String := []
  notes : Notes := {}
  /-- More turns than the scenario can keep its tasks busy for. -/
  budget : Nat := 0

/-- Something that happens on the stage. -/
abbrev Play := StateM Stage

/-- Lets somebody look again. -/
def wake (w : Waiter) : Play Unit := modify fun s =>
  match w with
  | .task t => { s with ready := register t s.ready }
  | .wait n => { s with woken := register n s.woken }

/-- Puts a task behind all that were woken. -/
def lineUp (t : Task) : Play Unit := modify fun s => { s with ready := s.ready.erase t ++ [t] }

/-- Changes the notes of the step. -/
def note (change : Notes → Notes) : Play Unit := modify fun s => { s with notes := change s.notes }

/-- Notes a line of the handler. -/
def log (a : Answer) : Play Unit := note fun n => { n with log := n.log ++ [a] }

/-- Notes the look of an interceptor. -/
def noteVisit (v : Visit) : Play Unit :=
  note fun n => { n with visits := n.visits ++ [.text (visitText v)] }

/-- Notes what the client did with its stream. -/
def noteWire (a : Answer) : Play Unit := note fun n => { n with wire := n.wire ++ [a] }

/-- Notes what the server sent, if somebody looks. -/
def noteSent (a : Answer) : Play Unit := do
  if (← get).server.any (·.watched) then note fun n => { n with sent := n.sent ++ [a] }

/-- Changes the server's side. -/
def editServer (f : ServerSide → ServerSide) : Play Unit :=
  modify fun s => { s with server := s.server.map f }

/-- Changes the client's side. -/
def editClient (f : ClientSide → ClientSide) : Play Unit :=
  modify fun s => { s with client := s.client.map f }

/-- Changes the handler. -/
def editRun (f : HandlerRun → HandlerRun) : Play Unit :=
  editServer fun s => { s with run := s.run.map f }

/-- Wakes whom a server call wakes. -/
def serverWakes : Server.Effect Waiter → Play Unit
  | .woke w => wake w
  | .wokeLoop => wake (.task .server)
  | _ => pure ()

/-- The transport tells the server call something, which at most wakes somebody. -/
def tellServer (tell : ServerCall → ServerCall) : Play Unit := do
  let some side := (← get).server | return
  let call := tell side.call
  editServer fun s => { s with call := { call with trace := [] } }
  call.trace.forM serverWakes

/-- Carries out what a client call does to its surroundings. -/
def clientEffect (path : String) : Client.Effect Waiter → Play Unit
  | .visited v => noteVisit v
  | .opened => do
    noteWire (.fields [("open", .text path)])
    if (← get).server.isSome then wake (.task .server)
  | .sent p o => do
    noteWire (.fields (Answer.requestFields p ++ Answer.optionFields o))
    tellServer fun c => c.submit (.part p)
  | .cancelled => do
    noteWire (.text "cancel")
    tellServer fun c => c.submit .finish
  | .released => do
    noteWire (.text "released")
    tellServer Server.Call.hangUp
  | .woke w => wake w
  | .armed timeout => do
    editClient fun s => { s with deadline := .armed timeout }
    wake (.task .deadline)
  | .stopping => wake (.task .stopper)

/-- Does something with the client call. -/
def onClient {α : Type} (act : ClientSide → ClientCall → ClientCall × α) : Play (Option α) := do
  let some side := (← get).client | return none
  let (call, a) := act side side.call
  editClient fun s => { s with call := { call with trace := [] } }
  call.trace.forM (clientEffect side.path)
  return some a

/-- Looks for the next item of the response stream. -/
def nextResponse (w : Waiter) : Play (Poll (Item Message Status)) := do
  let some (done, r) ← onClient fun side c => c.readResponseItem side.done w | return .pending
  editClient fun s => { s with done }
  return r

/-- Changes the client call. -/
def changeClient (act : ClientSide → ClientCall → ClientCall) : Play Unit := do
  let _ ← onClient fun s c => (act s c, ())

/-- Starts the handler of a server call. -/
def startHandler (m : Metadata) (deadline : Option Instant) : Play Unit := do
  editServer fun s =>
    let streams := s.handlerPlan.kind.streamsRequests
    { s with
      run := some {
        metadata := m, deadline, script := s.handlerPlan.script, holdsRequests := streams
        position := if streams then .opening none else .adapting (.reading .first) } }
  wake (.task .handler)

/-- Carries out what a server call does to its surroundings. -/
def serverEffect : Server.Effect Waiter → Play Unit
  | .visited v => noteVisit v
  | .sent p => do
    noteSent (Answer.ofResponsePart p)
    changeClient fun s c => c.route s.plan.setup p
  | .released => noteSent (.text "released")
  | .started m deadline => startHandler m deadline
  | .aborted => do
    editRun fun r => { r with aborted := true }
    wake (.task .handler)
  | e => serverWakes e

/-- Does something with the server call. -/
def onServer {α : Type} (act : ServerSide → ServerCall → ServerCall × α) : Play (Option α) := do
  let some side := (← get).server | return none
  let (call, a) := act side side.call
  editServer fun s => { s with call := { call with trace := [] } }
  call.trace.forM serverEffect
  return some a

/-- Looks for the next item of the request stream. -/
def nextRequest (w : Waiter) : Play (Poll (Item Message Status)) := do
  let some (done, r) ← onServer fun side c => c.readRequestItem side.requestsDone w | return .pending
  editServer fun s => { s with requestsDone := done }
  return r

/-- Changes the server call. -/
def changeServer (act : ServerSide → ServerCall → ServerCall) : Play Unit := do
  let _ ← onServer fun s c => (act s c, ())

end CallLifecycle.Scenario
