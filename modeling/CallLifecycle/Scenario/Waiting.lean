import CallLifecycle.Scenario.Stage

/-!
# The waits of a scenario

A scenario waits for several things at once, each under a number of its own. A wait is looked at
when it is made and whenever it was woken, until it is answered or dropped. Reads of one stream take
turns: the one that was made first reads, the others wait for it.

* `lookAt` — a look at a wait;
* `makeWait`, `dropWait`, `lookAtWoken` — the life of a wait;
* `letGo` — the calls end for those who held them once nobody holds them any more.
-/

namespace CallLifecycle.Scenario

open Answer

/-- What a look at a wait gave. -/
inductive WaitLook where
  | waits (w : Wait)
  | answered (a : Answer)

namespace WaitLook

/-- What a look at something gave that leaves the wait as it is. -/
def ofPoll {α : Type} (w : Wait) (form : α → Answer) : Option (Poll α) → WaitLook
  | some (.ready a) => answered (form a)
  | _ => waits w

/-- What a look at something gave that is there or not. -/
def ofFlag (w : Wait) (a : Answer) (there : Option Bool) : WaitLook :=
  if there.getD false then answered a else waits w

/-- What a look at a suspended write gave. -/
def ofCapacity (w : Wait) : Option (Poll (Except WriteFailure Unit)) → WaitLook :=
  ofPoll w fun r => ofDone (r.mapError WriteFailure.status)

end WaitLook

/-- A result with the message that was read, or with nothing at the end. -/
def ofReadResult : Except Status (Option Message) → Answer := ofResult ofMessage?

/-- An item of a stream of messages; nothing once the stream has ended. -/
def ofMessageItem : Item Message Status → Answer
  | .next m => ofReadResult (.ok (some m))
  | .failed s => ofReadResult (.error s)
  | .ended => nothing

/-- The stream that a wait reads. -/
inductive ReadStream where
  | requests
  | responses
  deriving DecidableEq, Repr

/-- The stream that a wait reads, if it reads one. -/
def Wait.stream? : Wait → Option ReadStream
  | .stashRead _ => some .requests
  | .read _ => some .responses
  | _ => none

/-- Whether a wait holds the client call. -/
def Wait.holdsCall : Wait → Bool
  | .response | .initial | .trailing | .status => true
  | _ => false

/-- Whether a wait holds the handle of the server call. -/
def Wait.holdsHandle : Wait → Bool
  | .completed => true
  | _ => false

/-- Who reads a stream, and who is to read it after that. -/
def readersOf (s : Stage) : ReadStream → List Nat
  | .requests => s.requestReaders
  | .responses => s.responseReaders

def setReaders (r : ReadStream) (readers : List Nat) : Play Unit := modify fun s =>
  match r with
  | .requests => { s with requestReaders := readers }
  | .responses => { s with responseReaders := readers }

/-- A read of a request that a handler left to the scenario. -/
def readStashed (w : Waiter) (asItem : Bool) : Play WaitLook := do
  let wait := Wait.stashRead asItem
  if asItem then return .ofPoll wait ofMessageItem (some (← nextRequest w))
  return .ofPoll wait ofReadResult (← onServer fun _ c => c.readRequest w)

/-- A read of a response. -/
def readResponse (w : Waiter) (asItem : Bool) : Play WaitLook := do
  let wait := Wait.read asItem
  if asItem then return .ofPoll wait ofMessageItem (some (← nextResponse w))
  return .ofPoll wait ofReadResult (← onClient fun _ c => c.readResponse w)

/-- Reads, if it is the turn of this reader. -/
def inTurn (serial : Nat) (r : ReadStream) (wait : Wait) (read : Play WaitLook) :
    Play WaitLook := do
  if (readersOf (← get) r).head? = some serial then read else return .waits wait

/-- What became of a write. -/
def ofAdmission (suspended : Wait) (look : Play WaitLook) : Option Admission → Play WaitLook
  | some (.refused f) => return .answered (ofDone (.error f.status))
  | some .done => return .answered (ofDone (.ok ()))
  | some .suspended => look
  | none => return .waits suspended

/-- Whether all tasks of the server have ended. -/
def ServerSide.isDone (s : ServerSide) : Bool :=
  s.call.ended && s.run.all fun r =>
    match r.position with
    | .ended => true
    | _ => false

/-- A look at a suspended response. -/
def lookAtStashed (w : Waiter) : Play WaitLook := do
  return .ofCapacity (.stashSend none) (← onServer fun _ c => c.pollWrite w)

/-- A look at a suspended request. -/
def lookAtRequest (w : Waiter) : Play WaitLook := do
  return .ofCapacity (.send none) (← onClient fun _ c => c.pollWrite w)

/-- A look at a wait. -/
def lookAt (serial : Nat) (wait : Wait) : Play WaitLook := do
  let w := Waiter.wait serial
  match wait with
  | .completed => return .ofFlag wait (text "completed") (← onServer fun _ c => c.pollCompleted w)
  | .shutdown =>
    return .ofFlag wait (text "shut down") ((← get).server.map ServerSide.isDone)
  | .stashSend (some m) =>
    ofAdmission (.stashSend none) (lookAtStashed w) (← onServer fun _ c => c.write m)
  | .stashSend none => lookAtStashed w
  | .stashDrained =>
    return .ofPoll wait (fun _ => text "drained") (← onServer fun _ c => c.pollDrained w)
  | .stashSet setting =>
    match ← onServer fun _ c => c.issue setting with
    | some (.ok id) =>
      return .ofPoll (.stashReply id) ofDone (← onServer fun _ c => c.pollReply id w)
    | some (.error s) => return .answered (ofDone (.error s))
    | none => return .waits wait
  | .stashReply id => return .ofPoll wait ofDone (← onServer fun _ c => c.pollReply id w)
  | .stashCancelled =>
    return .ofFlag wait (text "cancelled") (← onServer fun _ c => c.pollCancelled w)
  | .stashRead asItem => inTurn serial .requests wait (readStashed w asItem)
  | .send (some m) =>
    ofAdmission (.send none) (lookAtRequest w) (← onClient fun s c => c.write s.plan.setup m)
  | .send none => lookAtRequest w
  | .drained =>
    return .ofPoll wait (fun _ => text "drained") (← onClient fun _ c => c.pollDrained w)
  | .response => return .ofPoll wait (ofResult text) (← onClient fun _ c => c.takeResponse w)
  | .read asItem => inTurn serial .responses wait (readResponse w asItem)
  | .initial => return .ofPoll wait (ofResult ofMetadata) (← onClient fun _ c => c.pollInitial w)
  | .trailing =>
    return .ofPoll wait (ofResult ofMetadata) (← onClient fun _ c => c.pollTrailing w)
  | .status => return .ofPoll wait ofStatus (← onClient fun _ c => c.pollStatus w)

/-- The calls end for those who held them once nobody holds them any more. -/
def letGo : Play Unit := do
  let s ← get
  if s.client.any fun c => c.call.alive && !c.held && !s.waits.any (·.wait.holdsCall) then
    changeClient fun _ c => c.drop
  if s.server.any fun v => v.call.handles && !v.holdsHandle && s.client.isNone
      && !s.waits.any (·.wait.holdsHandle) then
    tellServer Server.Call.hangUp

/-- A reader leaves its stream; the one after it is woken. -/
def leaveStream (serial : Nat) (r : ReadStream) : Play Unit := do
  let readers := readersOf (← get) r
  let left := readers.erase serial
  setReaders r left
  if readers.head? = some serial then
    match left with
    | next :: _ => wake (.wait next)
    | [] => pure ()

/-- A wait ends, with or without an answer. -/
def endWait (p : PendingWait) : Play Unit := do
  modify fun s => { s with waits := s.waits.filter (·.serial ≠ p.serial) }
  match p.wait.stream? with
  | some r => leaveStream p.serial r
  | none => pure ()
  letGo

/-- Drops a wait; whether there was one. -/
def dropWait (id : Nat) : Play Bool := do
  match (← get).waits.find? (·.id = id) with
  | some p =>
    endWait p
    return true
  | none => return false

/-- Looks at a wait and takes over what the look gave. -/
def settleWait (p : PendingWait) : Play Unit := do
  match ← lookAt p.serial p.wait with
  | .waits wait =>
    modify fun s => { s with waits := s.waits.map fun q =>
      if q.serial = p.serial then { q with wait } else q }
  | .answered a =>
    note fun n => { n with resolved := n.resolved ++ [(p.id, a)] }
    endWait p

/-- Makes a wait in the place of the one that had its number, and looks at it. -/
def makeWait (id : Nat) (wait : Wait) : Play Unit := do
  let _ ← dropWait id
  let serial := (← get).nextSerial
  let p : PendingWait := { id, serial, wait }
  modify fun s => { s with nextSerial := serial + 1, waits := s.waits ++ [p] }
  match wait.stream? with
  | some r => setReaders r (readersOf (← get) r ++ [serial])
  | none => pure ()
  settleWait p

/-- Looks at the waits that were woken, in the order of their numbers. -/
def lookAtWoken : Play Unit := do
  let s ← get
  set { s with woken := [] }
  let woken := s.waits.filter fun p => p.serial ∈ s.woken
  (woken.mergeSort fun a b => a.id ≤ b.id).forM fun p => do
    match (← get).waits.find? (·.serial = p.serial) with
    | some p => settleWait p
    | none => pure ()

end CallLifecycle.Scenario
