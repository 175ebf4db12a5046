import CallLifecycle.Client.Call
import CallLifecycle.Proofs.Runs
import CallLifecycle.Proofs.Writer.Sound

/-!
# Runs of a client call

A run is any order of steps of the transport, the user, the clock and the tasks of a call, from before its
stream is opened. Starting a call is a row of steps as well, among which others may come.

* `Act`, `Call.step` — a step;
* `StreamCall`, `Call.calls` — what a call asks of its stream;
* `beginning` — the steps of a call that starts at once;
* `Ending`, `Call.ending?` — how a call ends, and the ending that a step brings;
* `Outcome`, `Ending.outcome` — what a call that has ended is to yield to those who wait for it, and `Yields`,
  that it does.
-/

namespace CallLifecycle.Client

inductive Act (Out W : Type) where
  | routed (r : Call.Routed)
  /-- The stream is to be opened. -/
  | opening
  /-- The stream could not be opened. -/
  | refused (e : Failure)
  | connected
  /-- The task of the deadline is started. -/
  | arm
  | sendMetadata
  /-- The only request message is sent. -/
  | sendMessage (m : Out)
  /-- The end behind the only request message is sent. -/
  | sendEnd
  | attachWriter
  | cancel
  /-- The time of the call ran out. -/
  | expire
  | write (m : Outbound Out)
  /-- A suspended write is looked at. -/
  | awaitWrite (w : W)
  /-- A wait for the buffer to empty is looked at. -/
  | awaitDrained (w : W)
  | finish
  /-- A task that is to cancel the request writer runs. -/
  | stopWriter
  | read (w : W)
  | take (w : W)
  | awaitInitial (w : W)
  | awaitTrailing (w : W)
  | awaitStatus (w : W)
  /-- The task of the deadline looks whether the call is over. -/
  | awaitDone (w : W)
  /-- The last handle is dropped. -/
  | drop

def Effect.isStopping {W : Type} : Effect W → Bool
  | .stopping => true
  | _ => false

/-- What a call asks of its stream. -/
inductive StreamCall where
  | send (p : RequestPart)
  | cancel
  deriving DecidableEq

def Effect.call? {W : Type} : Effect W → Option StreamCall
  | .sent p _ => some (.send p)
  | .cancelled => some .cancel
  | _ => none

namespace Call

variable {σ Out In W : Type}

def calls (c : Call σ Out In W) : List StreamCall := c.trace.filterMap Effect.call?

def timeout (s : Setup σ Out In) : Option Duration := s.options.timeout <|> s.config.timeout

section Steps

variable [DecidableEq W]

/-- One step. What is done in the name of a call takes place while somebody holds it. -/
def step (s : Setup σ Out In) (c : Call σ Out In W) : Act Out W → Call σ Out In W
  | .routed r => c.onRouted s r
  | .opening => c.emit [.opened]
  | .refused e => if c.alive then c.terminate (Status.ofFailure (.connect e)) .inline else c
  | .connected => if c.alive then { c with attached := true } else c
  | .arm =>
    match timeout s with
    | some d => if c.runtime then c.emit [.armed d] else c
    | none => c
  | .sendMetadata =>
    if c.alive then c.sendMetadata s (requestMetadata s.options (timeout s)) else c
  | .sendMessage m => if c.alive then c.sendMessages s .inline [{ message := m }] else c
  | .sendEnd => if c.alive then c.sendEnd s .inline else c
  | .attachWriter => if c.alive then c.attachWriter else c
  | .cancel => if c.alive then c.cancel else c
  | .expire => c.expire
  | .write m => (c.write s m).1
  | .awaitWrite w => (c.pollWrite w).1
  | .awaitDrained w => (c.pollDrained w).1
  | .finish => c.finishRequests s
  | .stopWriter => if c.trace.any Effect.isStopping then c.cancelWriter else c
  | .read w => (c.readResponse w).1
  | .take w => (c.takeResponse w).1
  | .awaitInitial w => (c.pollInitial w).1
  | .awaitTrailing w => (c.pollTrailing w).1
  | .awaitStatus w => (c.pollStatus w).1
  | .awaitDone w => (c.pollDone w).1
  | .drop => c.drop

end Steps

/-! ## the start of a call -/

/-- The steps that open a stream, while the transport tells its call things. -/
def opening (meanwhile : List Routed) (failure : Option Failure) : List (Act Out W) :=
  .opening :: meanwhile.map .routed ++
    match failure with
    | some e => [.refused e]
    | none => [.connected, .arm, .sendMetadata]

/-- The steps of a call that starts at once. -/
def beginning (shape : Shape) (request : Out) (meanwhile : List Routed) (failure : Option Failure) :
    List (Act Out W) :=
  opening meanwhile failure ++
    if shape.streamsRequests then [.attachWriter] else [.sendMessage request, .sendEnd]

end Call

/-! ## how a call ends -/

/-- How a call ends: with the end that the server sent, or locally. -/
inductive Ending where
  | closed (status : Status) (trailers : Metadata)
  | terminated (status : Status)

namespace Ending

def status : Ending → Status
  | .closed status _ => status
  | .terminated status => status

def isLocal : Ending → Bool
  | .closed .. => false
  | .terminated _ => true

/-- What the initial metadata are settled with, if they did not come. -/
def initial : Ending → Except Status Metadata
  | .closed status _ => if status.isOk then .ok {} else .error status
  | .terminated status => .error status

def trailing : Ending → Except Status Metadata
  | .closed _ trailers => .ok trailers
  | .terminated status => .error status

/-- The failure that a single response is settled with, if it did not come. -/
def missing : Ending → Status
  | .closed status _ => if status.isOk then Call.missingResponse else status
  | .terminated status => status

/-- How a response stream is closed. -/
def terminal : Ending → Terminal Status
  | .closed status _ => if status.isOk then .finished else .failed status
  | .terminated status => .failed status

/-- The ending that a failure to send brings. -/
def ofSending {σ : Type} : Except Status σ → Option Ending
  | .ok _ => none
  | .error status => some (.terminated status)

def ofViolation (reason : String) : Ending := .terminated (Status.ofFailure (.violation reason))

end Ending

namespace Setup

variable {σ Out In : Type}

/-- What becomes of a request part: the surroundings that it leaves, or the rejection that stops it. -/
def sendPart (s : Setup σ Out In) (x : σ) (p : RequestPart) : Except Status σ :=
  match (s.pipeline.request p x).1.rejection with
  | some r => .error r
  | none => .ok (s.pipeline.request p x).2

/-- What becomes of request messages: the first that cannot be encoded or is rejected stops them. -/
def sendMessages (s : Setup σ Out In) : σ → List (Outbound Out) → Except Status σ
  | x, [] => .ok x
  | x, m :: rest =>
    match s.codec.encode m.message x with
    | (.error status, _) => .error status
    | (.ok data, y) => s.sendPart y (.message data) >>= fun z => sendMessages s z rest

/-- What becomes of what the request writer hands over: messages, and the end if it ends well. -/
def sendEvents (s : Setup σ Out In) : σ → List (WriterEvent (Outbound Out) Failure) → Except Status σ
  | x, [] => .ok x
  | x, .yielded batch :: rest => s.sendMessages x batch >>= fun y => sendEvents s y rest
  | x, .terminated none :: rest => s.sendPart x .close >>= fun y => sendEvents s y rest
  | x, .terminated (some _) :: rest => sendEvents s x rest

end Setup

namespace Call

variable {σ Out In W : Type}

def hasResponse (c : Call σ Out In W) : Bool :=
  match c.responses with
  | .single p => p.isCompleted
  | .stream _ => false

/-- The ending that a response message brings. -/
def messageEnding? (s : Setup σ Out In) (c : Call σ Out In W) (x : σ) (data : Bytes) : Option Ending :=
  if !c.initial.isCompleted then some (.ofViolation "response message received before metadata")
  else
    match (s.codec.decode data x).1 with
    | .error status => some (.terminated status)
    | .ok _ =>
      if c.hasResponse then
        some (.ofViolation "more than one response message for a single response call")
      else none

/-- The ending that a response part brings, as it comes out of the interceptors. -/
def partEnding? (s : Setup σ Out In) (c : Call σ Out In W) (p : ResponsePart) : Option Ending :=
  match (s.pipeline.response p c.surroundings).1.rejection with
  | some r => some (.terminated r)
  | none =>
    match (s.pipeline.response p c.surroundings).1.part with
    | .metadata _ =>
      if c.initial.isCompleted then some (.ofViolation "response metadata received twice") else none
    | .message data _ => c.messageEnding? s (s.pipeline.response p c.surroundings).2 data
    | .close status trailers => some (.closed status trailers)

def handsOver (c : Call σ Out In W) : Act Out W → List (WriterEvent (Outbound Out) Failure)
  | .write m => (c.writer.offer m).2.2
  | .finish => (c.writer.finish none).2.1
  | .routed (.writable b) => if c.holdsWriter then (c.writer.setWritable b).2.1 else []
  | _ => []

/-- The ending that a step brings to a call that has not ended. -/
def ending? (s : Setup σ Out In) (c : Call σ Out In W) (a : Act Out W) : Option Ending :=
  if !c.alive then none
  else
    match a with
    | .routed (.part p) => c.partEnding? s p
    | .routed (.failure e) => some (.terminated (Status.ofFailure e))
    | .refused e => some (.terminated (Status.ofFailure (.connect e)))
    | .sendMetadata =>
      Ending.ofSending (s.sendPart c.surroundings (.metadata (requestMetadata s.options (timeout s))))
    | .sendMessage m => Ending.ofSending (s.sendMessages c.surroundings [{ message := m }])
    | .sendEnd => Ending.ofSending (s.sendPart c.surroundings .close)
    | .cancel => some (.terminated (Status.of .cancelled "call was cancelled by the client"))
    | .expire => some (.terminated (Status.ofFailure .deadlineExceeded))
    | a => Ending.ofSending (s.sendEvents c.surroundings (c.handsOver a))

/-- No step of a run brings an ending. -/
def Undecided [DecidableEq W] (s : Setup σ Out In) : Call σ Out In W → List (Act Out W) → Prop
  | _, [] => True
  | c, a :: acts => c.ending? s a = none ∧ Undecided s (c.step s a) acts

end Call

/-! ## what a call yields that has ended -/

/-- What a call that has ended yields to those who wait for it. -/
structure Outcome (In : Type) where
  initial : Except Status Metadata
  trailing : Except Status Metadata
  status : Status
  /-- What the next to take the single response gets. -/
  single : Except Status In
  /-- What the readers of a response stream get, one by one. -/
  queue : List In
  /-- What they get behind it, however often they read. -/
  last : Except Status (Option In)

/-- What is read of a closed stream behind its last message. -/
def lastRead {In : Type} : Terminal Status → Except Status (Option In)
  | .failed status => .error status
  | _ => .ok none

/-- The outcome of a call that ends now: what was settled before stays as it is, and a local end throws away the
messages that nobody read. -/
def Ending.outcome {σ Out In W : Type} (e : Ending) (c : Call σ Out In W) : Outcome In where
  initial :=
    match c.initial.slot with
    | .ready r => r
    | _ => e.initial
  trailing := e.trailing
  status := e.status
  single :=
    match c.responses with
    | .single ⟨.ready r, _⟩ => r
    | .single ⟨.taken, _⟩ => .error Call.responseTaken
    | _ => .error e.missing
  queue :=
    match c.responses with
    | .stream ch => if e.isLocal then [] else ch.queue
    | .single _ => []
  last := lastRead e.terminal

/-- What is left of an outcome behind a step: the single response is taken once, and a stream is read from the
front. -/
def Outcome.behind {Out In W : Type} (o : Outcome In) : Act Out W → Outcome In
  | .take _ => { o with single := .error Call.responseTaken }
  | .read _ => { o with queue := o.queue.tail }
  | _ => o

def Outcome.behindAll {Out In W : Type} (o : Outcome In) (acts : List (Act Out W)) : Outcome In :=
  run Outcome.behind o acts

namespace Call

variable {σ Out In W : Type}

/-- A call that yields an outcome to all who look. -/
structure Yields [DecidableEq W] (c : Call σ Out In W) (o : Outcome In) : Prop where
  initial : ∀ w, (c.pollInitial w).2 = .ready o.initial
  trailing : ∀ w, (c.pollTrailing w).2 = .ready o.trailing
  status : ∀ w, (c.pollStatus w).2 = .ready o.status
  single : ∀ p, c.responses = .single p → ∀ w, (c.takeResponse w).2 = .ready o.single
  stream : ∀ ch, c.responses = .stream ch → ∀ w, (c.readResponse w).2 =
    .ready (match o.queue with
      | m :: _ => .ok (some m)
      | [] => o.last)
  /-- No write stays suspended. -/
  write : ∀ w, (c.pollWrite w).2 ≠ .pending

end Call

end CallLifecycle.Client
