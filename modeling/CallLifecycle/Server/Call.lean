import CallLifecycle.Clock
import CallLifecycle.Codec
import CallLifecycle.Interceptor
import CallLifecycle.Server.Progress
import CallLifecycle.Stream
import CallLifecycle.Timeout

/-!
# Server calls

A server call is driven by one loop. The transport, the handler and the clock leave their wishes in
queues; a turn of the loop takes the most urgent one and carries it out. Whatever the call does to
its surroundings is written, in order, into its `trace`.

* `Call.turn` — one turn of the loop, `Call.share`, how many it takes at a stretch, and
  `Call.conclude`, what follows the last one;
* `Call.submit`, `Call.hangUp` — the transport's side;
* `Call.write`, `Call.readRequest`, `Call.readRequestItem`, `Call.issue`, `Call.abort` … — the handler's side;
* `Call.returned`, `Call.lost` — the end of the handler.

The urgency is: what the handler and its writer tell, what it orders, what the transport hands in,
and last the deadline.
-/

namespace CallLifecycle.Server

/-- The settings of a server. -/
structure Config where
  compression : Bool := false
  timeout : Option Duration := none
  writer : WriterConfig := {}

/-- How failures are told to the client, as a status and trailers. -/
structure Delegate (σ : Type) where
  library : Failure → σ → (Status × Metadata) × σ
  handler : Failure → σ → (Status × Metadata) × σ

/-- Tells every failure by its own status. -/
def Delegate.plain {σ : Type} : Delegate σ where
  library e s := ((Status.ofFailure e, {}), s)
  handler e s := ((Status.ofFailure e, {}), s)

/-- What a call is made of beside its state. -/
structure Setup (σ Out In : Type) where
  config : Config
  codec : Codec σ Out In
  pipeline : Pipeline σ
  delegate : Delegate σ

/-- What the transport hands in. -/
inductive Inbound where
  | part (p : RequestPart)
  | error (e : Failure)
  | finish
  | writable (b : Bool)

/-- What the handler and its writer tell the loop. -/
inductive HandlerEvent (Out : Type) where
  | yielded (batch : List (Outbound Out))
  | drained (reason : Option Failure)
  | returned (outcome : Option Failure)

/-- What a handler may set. -/
inductive Setting where
  | headers (m : Metadata)
  | trailers (m : Metadata)
  | compression (enabled : Bool)

/-- What a handler orders: a setting, answered under a number, or the end of the call. -/
inductive Command where
  | set (id : Nat) (setting : Setting)
  | abort (reason : String)

/-- What a call does to its surroundings. -/
inductive Effect (W : Type) where
  | visited (v : Visit)
  | sent (p : ResponsePart)
  /-- The transport is let go. -/
  | released
  | woke (w : W)
  /-- The loop has something to do. -/
  | wokeLoop
  /-- A handler starts, with these metadata and this deadline. -/
  | started (m : Metadata) (deadline : Option Instant)
  /-- The handler is to be dropped where it waits. -/
  | aborted

/-- The state of a server call. -/
structure Call (σ Out In W : Type) where
  surroundings : σ
  progress : Progress := {}
  /-- The transport and the pipeline are held. -/
  attached : Bool := true
  /-- When the alarm of the deadline goes off. -/
  deadline : Option Instant := none
  inbox : List Inbound := []
  /-- Some handle of the transport is alive. -/
  handles : Bool := true
  /-- The loop knows that no handle is alive. -/
  hungUp : Bool := false
  events : List (HandlerEvent Out) := []
  commands : List Command := []
  /-- The loop holds the resources of a handler. -/
  engaged : Bool := false
  requests : Channel In Status W := {}
  writer : Writer (Outbound Out) Failure W
  cancellation : Token W := {}
  drained : Bool := false
  outcome : Option (Option Failure) := none
  headers : Metadata := {}
  trailers : Metadata := {}
  compressionDefault : Bool := true
  writable : Bool := true
  replies : List (Nat × Except Status Unit) := []
  replyWaiters : List W := []
  nextReply : Nat := 0
  /-- The loop is over. -/
  ended : Bool := false
  /-- The loop was cut off by a deadline that no clock can tell. -/
  crashed : Bool := false
  completionWaiters : List W := []
  trace : List (Effect W) := []

/-- A failure is never told as a success. -/
def remapOk (origin : String) (s : Status) : Status :=
  if s.isOk then
    Status.of .unknown (origin ++ " failed with an error mapped to an ok status: " ++ s.message)
  else s

namespace Call

variable {σ Out In W : Type}

/-- A call before its first part. -/
def new (setup : Setup σ Out In) (surroundings : σ) : Call σ Out In W :=
  { surroundings, writer := Writer.new setup.config.writer }

/-- Adds to the trace. -/
def emit (c : Call σ Out In W) (es : List (Effect W)) : Call σ Out In W :=
  { c with trace := c.trace ++ es }

/-- The parts that were sent, in order. -/
def sent (c : Call σ Out In W) : List ResponsePart :=
  c.trace.filterMap fun
    | .sent p => some p
    | _ => none

/-- Tells the loop something about the handler. -/
def tell (c : Call σ Out In W) (e : HandlerEvent Out) : Call σ Out In W :=
  if c.ended then c else { c with events := c.events ++ [e] }.emit [.wokeLoop]

/-- What the loop is told of an event of the writer. -/
def ofWriterEvent : WriterEvent (Outbound Out) Failure → HandlerEvent Out
  | .yielded batch => .yielded batch
  | .terminated reason => .drained reason

/-- Takes over the result of a writer operation. -/
def withWriter (c : Call σ Out In W)
    (r : Writer (Outbound Out) Failure W × List (WriterEvent (Outbound Out) Failure) × List W) :
    Call σ Out In W :=
  let c := r.2.1.foldl (fun c e => c.tell (ofWriterEvent e)) { c with writer := r.1 }
  c.emit (r.2.2.map .woke)

/-- Closes the request stream of the handler. -/
def closeRequests (c : Call σ Out In W) (t : Terminal Status) : Call σ Out In W :=
  let (requests, _, woken) := c.requests.terminate t
  { c with requests }.emit (woken.map .woke)

/-- Raises the cancellation of the handler. -/
def raiseCancellation (c : Call σ Out In W) : Call σ Out In W :=
  let (cancellation, woken) := c.cancellation.raise
  { c with cancellation }.emit (woken.map .woke)

/-! ## Sending -/

/-- Lets go of the transport. -/
def release (c : Call σ Out In W) : Call σ Out In W :=
  let c := if c.attached then c.emit [.released] else c
  { c with attached := false, deadline := none }

/-- Passes a response part through the interceptors. -/
def intercept (s : Setup σ Out In) (c : Call σ Out In W) (p : ResponsePart) :
    Call σ Out In W × ResponsePart × Option Status :=
  if c.attached then
    let (passage, surroundings) := s.pipeline.response p c.surroundings
    ({ c with surroundings }.emit (passage.visits.map .visited), passage.part, passage.rejection)
  else (c, p, none)

/-- Hands a part to the transport. -/
def transmit (c : Call σ Out In W) (p : ResponsePart) : Call σ Out In W :=
  if c.attached then c.emit [.sent p] else c

/-- Sends the end of the call, unless it was sent. Without headers sent before, they go with it. A
rejection replaces the end. -/
def sendEnd (s : Setup σ Out In) (c : Call σ Out In W) (status : Status) (more : Metadata) :
    Call σ Out In W :=
  let alone := c.progress.outbound = .headersPending
  match c.progress.send .close with
  | (progress, .forward) =>
    let trailers := c.trailers.merge more
    let metadata := if alone then c.headers.merge trailers else trailers
    let headers := if alone then {} else c.headers
    let c := { c with progress, trailers := {}, headers }
    let (c, part, rejection) := c.intercept s (.close status metadata)
    let part := match rejection with
      | some r => .close r {}
      | none => part
    (c.transmit part).release
  | (_, _) => c

/-- Takes the resources of the handler away from it. -/
def disengage (c : Call σ Out In W) : Call σ Out In W :=
  if c.engaged then
    let c := { c with engaged := false }.raiseCancellation
    let c := c.closeRequests (.failed callWasCancelled)
    let c := c.withWriter (c.writer.cancel (.status callWasCancelled))
    c.emit [.aborted]
  else c

/-- Gives the call up for a failure, which is told to the client unless the end was sent. -/
def cancel (s : Setup σ Out In) (c : Call σ Out In W) (e : Failure) : Call σ Out In W :=
  if c.progress.isCompleted && c.progress.outbound = .ended then c
  else
    let (progress, aftermath) := c.progress.cancel
    let c := { c with progress }.disengage
    if aftermath.sendEnd then
      let ((status, trailers), surroundings) := s.delegate.library e c.surroundings
      { c with surroundings }.sendEnd s (remapOk "call" status) trailers
    else c.release

/-- Sends headers or a message; whether the call goes on. A rejection gives the call up. -/
def sendPart (s : Setup σ Out In) (c : Call σ Out In W) (p : ResponsePart) :
    Call σ Out In W × Bool :=
  let (c, part, rejection) := c.intercept s p
  match rejection with
  | some r => (c.cancel s (.status r), false)
  | none => (c.transmit part, c.attached)

/-- Sends the headers ahead of the first message; whether the call goes on. -/
def sendHeaders (s : Setup σ Out In) (c : Call σ Out In W) : Call σ Out In W × Bool :=
  if c.progress.outbound = .headersPending then
    match c.progress.send .metadata with
    | (progress, .forward) =>
      { c with progress, headers := {} }.sendPart s (.metadata c.headers)
    | (_, _) => (c, true)
  else (c, true)

/-- Sends one message; whether the call goes on. -/
def sendMessage (s : Setup σ Out In) (c : Call σ Out In W) (m : Outbound Out) :
    Call σ Out In W × Bool :=
  let (encoded, surroundings) := s.codec.encode m.message c.surroundings
  let c := { c with surroundings }
  match encoded with
  | .error status => (c.cancel s (.status status), false)
  | .ok data =>
    match c.progress.send .message with
    | (_, .forward) =>
      let compress := shouldCompress s.config.compression m.compression c.compressionDefault
      c.sendPart s (.message data { compress })
    | (_, .drop) => (c, true)
    | (_, .cancel reason) => (c.cancel s (.violation reason), false)

/-- Sends the messages that the writer handed over, up to the end of the call. -/
def sendMessages (s : Setup σ Out In) : Call σ Out In W → List (Outbound Out) → Call σ Out In W
  | c, [] => c
  | c, m :: rest =>
    if c.progress.isCompleted then c
    else
      match c.sendHeaders s with
      | (c, false) => c
      | (c, true) =>
        match c.sendMessage s m with
        | (c, false) => c
        | (c, true) => sendMessages s c rest

/-- Ends the call once the handler has returned and all its messages were sent. -/
def endOnceDone (s : Setup σ Out In) (c : Call σ Out In W) : Call σ Out In W :=
  if !c.drained then c
  else
    match c.outcome with
    | none => c
    | some none => { c with outcome := none }.sendEnd s (Status.of .ok "") {}
    | some (some e) =>
      let ((status, trailers), surroundings) := s.delegate.handler e c.surroundings
      { c with outcome := none, surroundings }.sendEnd s (remapOk "handler" status) trailers

/-! ## Turns of the loop -/

/-- Carries out what the handler or its writer told. -/
def onEvent (s : Setup σ Out In) (c : Call σ Out In W) : HandlerEvent Out → Call σ Out In W
  | .yielded batch => c.sendMessages s batch
  | .drained _ => { c with drained := true }.endOnceDone s
  | .returned outcome => { c with outcome := some outcome }.endOnceDone s

/-- The status of a setting that comes too late. -/
def alreadyCompleted : Status := Status.of .failedPrecondition "call already completed"

/-- The status of headers that come too late. -/
def headersAlreadySent : Status := Status.of .failedPrecondition "response headers already sent"

/-- Carries out a setting, or tells why it cannot be. -/
def apply (c : Call σ Out In W) (setting : Setting) : Call σ Out In W × Except Status Unit :=
  if c.progress.isCompleted then (c, .error alreadyCompleted)
  else
    match setting with
    | .headers m =>
      if c.progress.outbound = .headersPending then ({ c with headers := m }, .ok ())
      else (c, .error headersAlreadySent)
    | .trailers m => ({ c with trailers := m }, .ok ())
    | .compression enabled => ({ c with compressionDefault := enabled }, .ok ())

/-- Carries out an order of the handler. -/
def onCommand (s : Setup σ Out In) (c : Call σ Out In W) : Command → Call σ Out In W
  | .abort reason => c.cancel s (.violation reason)
  | .set id setting =>
    let (c, r) := c.apply setting
    { c with replies := c.replies ++ [(id, r)], replyWaiters := [] }.emit
      (c.replyWaiters.map .woke)

/-- Cuts the loop off. -/
def crash (c : Call σ Out In W) : Call σ Out In W :=
  let c := c.release
  { c with ended := true, crashed := true, inbox := [], events := [], commands := [],
           completionWaiters := [] }.emit (c.completionWaiters.map .woke)

/-- Starts the handler, with the shorter of the two timeouts as its deadline. -/
def startHandler (s : Setup σ Out In) (now : Instant) (c : Call σ Out In W) (m : Metadata) :
    Call σ Out In W :=
  match (Timeout.effective m s.config.timeout).map now.after? with
  | some none => c.crash
  | found =>
    let deadline := found.join
    let writer := if c.writable then c.writer else (c.writer.setWritable false).1
    let (progress, _) := c.progress.start
    { c with deadline := deadline.map Instant.alarm, writer, progress, engaged := true }.emit
      [.started m deadline]

/-- Hands a request message to the handler. -/
def deliver (c : Call σ Out In W) (m : In) : Call σ Out In W :=
  if c.engaged then
    let (requests, _, woken) := c.requests.push m
    { c with requests }.emit (woken.map .woke)
  else c

/-- Carries out a request part that the progress of the call lets pass. -/
def onForwarded (s : Setup σ Out In) (now : Instant) (c : Call σ Out In W) :
    RequestPart → Call σ Out In W
  | .metadata m => c.startHandler s now m
  | .message data =>
    let (decoded, surroundings) := s.codec.decode data c.surroundings
    let c := { c with surroundings }
    match decoded with
    | .ok m => c.deliver m
    | .error status => c.cancel s (.status status)
  | .close => if c.engaged then c.closeRequests .finished else c

/-- Carries out a request part. -/
def onPart (s : Setup σ Out In) (now : Instant) (c : Call σ Out In W) (p : RequestPart) :
    Call σ Out In W :=
  let (passage, surroundings) :=
    if c.attached then s.pipeline.request p c.surroundings else ({ part := p }, c.surroundings)
  let c := { c with surroundings }.emit (passage.visits.map .visited)
  match passage.rejection with
  | some status => c.cancel s (.status status)
  | none =>
    match c.progress.receive passage.part.kind with
    | (progress, .forward) => { c with progress }.onForwarded s now passage.part
    | (progress, .drop) => { c with progress }
    | (progress, .cancel reason) => { c with progress }.cancel s (.violation reason)

/-- The failure of a call that its transport finished. -/
def finishedByTransport : Failure :=
  .status (Status.of .cancelled "call was finished by the transport")

/-- The failure of a call that its transport forgot. -/
def handlesDropped : Failure := .status (Status.of .cancelled "all call handles were dropped")

/-- Carries out what the transport handed in. -/
def onInbound (s : Setup σ Out In) (now : Instant) (c : Call σ Out In W) :
    Inbound → Call σ Out In W
  | .part p => c.onPart s now p
  | .error e => c.cancel s e
  | .finish => c.cancel s finishedByTransport
  | .writable b =>
    let c := { c with writable := b }
    if c.engaged then c.withWriter (c.writer.setWritable b) else c

/-- Notes that no handle is alive: nothing can arrive any more. -/
def onHangUp (s : Setup σ Out In) (c : Call σ Out In W) : Call σ Out In W :=
  let c := { c with hungUp := true }
  if c.progress.inbound = .closed then c else c.cancel s handlesDropped

/-- One turn of the loop, if there is anything to do. -/
def turn (s : Setup σ Out In) (now : Instant) (c : Call σ Out In W) : Option (Call σ Out In W) :=
  if c.ended || c.progress.isCompleted then none
  else
    match c.events, c.commands, c.inbox with
    | e :: rest, _, _ => some ({ c with events := rest }.onEvent s e)
    | [], o :: rest, _ => some ({ c with commands := rest }.onCommand s o)
    | [], [], i :: rest => some ({ c with inbox := rest }.onInbound s now i)
    | [], [], [] =>
      if !c.handles && !c.hungUp then some (c.onHangUp s)
      else
        match c.deadline with
        | some d => if d ≤ now then some (c.cancel s .deadlineExceeded) else none
        | none => none

/-- What follows the last turn: what the handler holds is cancelled, and everyone who waits for the
call is told. -/
def conclude (c : Call σ Out In W) : Call σ Out In W :=
  if c.ended || !c.progress.isCompleted then c
  else
    let c := if c.engaged then { c with engaged := false }.raiseCancellation else c
    { c with ended := true, inbox := [], events := [], commands := [], completionWaiters := [],
             replyWaiters := [] }.emit ((c.completionWaiters ++ c.replyWaiters).map .woke)

/-- How many turns the loop may take before it lets others go first. -/
def share : Nat := 128

/-- Whether there is something to do for the loop. -/
def isBusy (now : Instant) (c : Call σ Out In W) : Bool :=
  !c.ended && !c.progress.isCompleted && (!c.events.isEmpty || !c.commands.isEmpty
    || !c.inbox.isEmpty || (!c.handles && !c.hungUp) || c.deadline.any (· ≤ now))

/-- The loop turns exactly when there is something to do. -/
theorem isSome_turn (s : Setup σ Out In) (now : Instant) (c : Call σ Out In W) :
    (c.turn s now).isSome = c.isBusy now := by
  unfold turn isBusy
  cases c.ended <;> cases c.progress.isCompleted <;> try rfl
  rcases c.events with _ | ⟨e, events⟩
  · rcases c.commands with _ | ⟨o, commands⟩
    · rcases c.inbox with _ | ⟨i, inbox⟩
      · cases c.handles <;> cases c.hungUp <;> rcases c.deadline with _ | d <;> try rfl
        all_goals by_cases due : d ≤ now <;> simp [due]
      · rfl
    · rfl
  · rfl

/-! ## The transport's side -/

/-- Hands something in. -/
def submit (c : Call σ Out In W) (i : Inbound) : Call σ Out In W :=
  if c.ended || !c.handles then c else { c with inbox := c.inbox ++ [i] }.emit [.wokeLoop]

/-- Drops the last handle. -/
def hangUp (c : Call σ Out In W) : Call σ Out In W :=
  if c.handles then
    let c := { c with handles := false }
    if c.ended then c else c.emit [.wokeLoop]
  else c

/-- Waits for the end of the loop. -/
def pollCompleted [DecidableEq W] (c : Call σ Out In W) (w : W) : Call σ Out In W × Bool :=
  if c.ended then (c, true)
  else ({ c with completionWaiters := register w c.completionWaiters }, false)

/-! ## The handler's side -/

/-- Writes a response message. -/
def write (c : Call σ Out In W) (m : Outbound Out) : Call σ Out In W × Admission :=
  let (writer, admission, events) := c.writer.offer m
  (c.withWriter (writer, events, []), admission)

/-- The wait of a suspended write. -/
def pollWrite [DecidableEq W] (c : Call σ Out In W) (w : W) :
    Call σ Out In W × Poll (Except WriteFailure Unit) :=
  let (writer, r) := c.writer.pollCapacity w
  ({ c with writer }, r)

/-- The wait until every message was handed over. -/
def pollDrained [DecidableEq W] (c : Call σ Out In W) (w : W) : Call σ Out In W × Poll Unit :=
  let (writer, r) := c.writer.pollDrained w
  ({ c with writer }, r)

/-- Finishes the response stream. -/
def finishResponses (c : Call σ Out In W) : Call σ Out In W := c.withWriter (c.writer.finish none)

/-- Reads a request message. -/
def readRequest [DecidableEq W] (c : Call σ Out In W) (w : W) :
    Call σ Out In W × Poll (Except Status (Option In)) :=
  let (cancellation, requests, r) := readMessage c.cancellation c.requests w
  ({ c with cancellation, requests }, r)

/-- Looks for the next item of the request stream. -/
def readRequestItem [DecidableEq W] (c : Call σ Out In W) (done : Bool) (w : W) :
    Call σ Out In W × Bool × Poll (Item In Status) :=
  let (cancellation, requests, done, r) := readItem c.cancellation c.requests done w
  ({ c with cancellation, requests }, done, r)

/-- Orders a setting; the number of its answer. -/
def issue (c : Call σ Out In W) (setting : Setting) : Call σ Out In W × Except Status Nat :=
  if c.ended then (c, .error alreadyCompleted)
  else
    let commands := c.commands ++ [.set c.nextReply setting]
    ({ c with commands, nextReply := c.nextReply + 1 }.emit [.wokeLoop], .ok c.nextReply)

/-- Waits for the answer to a setting; a loop that is over will not give it. -/
def pollReply [DecidableEq W] (c : Call σ Out In W) (id : Nat) (w : W) :
    Call σ Out In W × Poll (Except Status Unit) :=
  match c.replies.find? fun r => r.1 = id with
  | some r => (c, .ready r.2)
  | none =>
    if c.ended then (c, .ready (.error alreadyCompleted))
    else ({ c with replyWaiters := register w c.replyWaiters }, .pending)

/-- Orders the end of the call for a breach of the protocol; whether anyone took the order. -/
def abort (c : Call σ Out In W) (reason : String) : Call σ Out In W × Bool :=
  if c.ended then (c, false)
  else ({ c with commands := c.commands ++ [Command.abort reason] }.emit [.wokeLoop], true)

/-- Waits for the cancellation. -/
def pollCancelled [DecidableEq W] (c : Call σ Out In W) (w : W) : Call σ Out In W × Bool :=
  let (cancellation, r) := c.cancellation.poll w
  ({ c with cancellation }, r)

/-- Reports how the handler ended; its writer ends with it. -/
def report (c : Call σ Out In W) (outcome : Option Failure) : Call σ Out In W :=
  c.finishResponses.tell (.returned outcome)

/-- The handler returned. -/
def returned (c : Call σ Out In W) (outcome : Option Failure) : Call σ Out In W :=
  (c.report outcome).closeRequests .finished

/-- The failure of a handler that was dropped. -/
def endedWithoutReturning : Failure := Failure.text "server handler ended without returning"

/-- The handler was dropped before it returned. -/
def lost (c : Call σ Out In W) : Call σ Out In W :=
  (c.closeRequests .finished).report (some endedWithoutReturning)

end Call

end CallLifecycle.Server
