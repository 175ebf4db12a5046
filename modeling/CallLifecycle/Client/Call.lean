import CallLifecycle.Codec
import CallLifecycle.Interceptor
import CallLifecycle.Stream
import CallLifecycle.Timeout

/-!
# Client calls

A client call owns the transport stream of its request and gathers the response: its metadata, its
messages, its trailers and its status, each of which is settled once. It ends with the end that the
server sends or with a local termination, whichever comes first.

Whatever the call does to its surroundings is written, in order, into its `trace`.

* `Call.start` — opens the stream and sends the metadata;
* `Call.write`, `Call.finishRequests` — the user's side of a request stream;
* `Call.route`, `Call.fail`, `Call.setWritable` — the transport's side;
* `Call.terminate`, `Call.complete` — the two ends of a call;
* `Call.drop` — nobody holds the call any more.
-/

namespace CallLifecycle.Client

/-- How many messages either side sends. -/
inductive Shape where
  | unary
  | clientStreaming
  | serverStreaming
  | bidi
  deriving DecidableEq, Repr

namespace Shape

/-- Whether the request is a stream. -/
def streamsRequests : Shape → Bool
  | clientStreaming => true
  | bidi => true
  | _ => false

/-- Whether the response is a stream. -/
def streamsResponses : Shape → Bool
  | serverStreaming => true
  | bidi => true
  | _ => false

/-- The name of a handle of such a call. -/
def name : Shape → String
  | unary => "UnaryCall"
  | clientStreaming => "ClientStreamingCall"
  | serverStreaming => "ServerStreamingCall"
  | bidi => "BidirectionalStreamingCall"

end Shape

/-- The settings of a client, its interceptors apart. -/
structure Config where
  compression : Bool := false
  timeout : Option Duration := none
  writer : WriterConfig := {}

/-- The settings of a single call. -/
structure Options where
  metadata : Metadata := {}
  timeout : Option Duration := none
  compression : Bool := true

/-- What a call is made of beside its state. -/
structure Setup (σ Out In : Type) where
  config : Config
  options : Options
  codec : Codec σ Out In
  pipeline : Pipeline σ

/-- Where response messages go. -/
inductive Responses (In W : Type) where
  | single (p : Promise (Except Status In) W)
  | stream (c : Channel In Status W)

/-- How the request writer is stopped: at once, or, where it is in use, by a task of its own. -/
inductive Stop where
  | inline
  | deferred
  deriving DecidableEq, Repr

/-- What a call does to its surroundings. -/
inductive Effect (W : Type) where
  | visited (v : Visit)
  /-- The stream is opened. -/
  | opened
  | sent (p : RequestPart) (options : SendOptions)
  /-- The stream is cancelled. -/
  | cancelled
  /-- The stream is let go. -/
  | released
  | woke (w : W)
  /-- A task is to end the call after this time. -/
  | armed (timeout : Duration)
  /-- A task is to cancel the request writer. -/
  | stopping

/-- The state of a client call. -/
structure Call (σ Out In W : Type) where
  surroundings : σ
  /-- The stream is held. -/
  attached : Bool := false
  initial : Promise (Except Status Metadata) W := {}
  trailing : Promise (Except Status Metadata) W := {}
  status : Promise Status W := {}
  responses : Responses In W
  writer : Writer (Outbound Out) Failure W
  /-- The call holds its request writer. -/
  holdsWriter : Bool := false
  cancellation : Token W := {}
  done : Token W := {}
  finished : Bool := false
  /-- Somebody holds the call. -/
  alive : Bool := true
  /-- Tasks can be started. -/
  runtime : Bool := true
  trace : List (Effect W) := []

namespace Call

variable {σ Out In W : Type}

/-- A call before its stream is opened. -/
def new (setup : Setup σ Out In) (shape : Shape) (runtime : Bool) (surroundings : σ) :
    Call σ Out In W :=
  { surroundings, runtime, writer := Writer.new setup.config.writer,
    responses := if shape.streamsResponses then .stream {} else .single {} }

/-- Adds to the trace. -/
def emit (c : Call σ Out In W) (es : List (Effect W)) : Call σ Out In W :=
  { c with trace := c.trace ++ es }

/-- The parts that were sent, in order. -/
def sent (c : Call σ Out In W) : List RequestPart :=
  c.trace.filterMap fun
    | .sent p _ => some p
    | _ => none

/-! ## The end of a call -/

/-- The status of a writer that outlives its call. -/
def callCompleted : Failure := .status (Status.of .cancelled "call completed")

/-- Cancels the request writer. -/
def cancelWriter (c : Call σ Out In W) : Call σ Out In W :=
  let (writer, _, woken) := c.writer.cancel callCompleted
  { c with writer }.emit (woken.map .woke)

/-- Lets go of the request writer and stops it. A writer that is in use is stopped by a task, if
there can be one. -/
def stopWriter (c : Call σ Out In W) (stop : Stop) : Call σ Out In W :=
  if c.holdsWriter then
    let c := { c with holdsWriter := false }
    match stop with
    | .inline => c.cancelWriter
    | .deferred => if c.runtime then c.emit [.stopping] else c
  else c

/-- Settles the initial metadata. -/
def settleInitial (c : Call σ Out In W) (r : Except Status Metadata) : Call σ Out In W × Bool :=
  let (initial, fresh, woken) := c.initial.complete r
  ({ c with initial }.emit (woken.map .woke), fresh)

/-- Settles the trailers. -/
def settleTrailing (c : Call σ Out In W) (r : Except Status Metadata) : Call σ Out In W :=
  let (trailing, _, woken) := c.trailing.complete r
  { c with trailing }.emit (woken.map .woke)

/-- Settles the status. -/
def settleStatus (c : Call σ Out In W) (s : Status) : Call σ Out In W :=
  let (status, _, woken) := c.status.complete s
  { c with status }.emit (woken.map .woke)

/-- Settles the responses: a single one by a failure, a stream by its end. -/
def settleResponses (c : Call σ Out In W) (single : Status) (stream : Terminal Status) :
    Call σ Out In W :=
  match c.responses with
  | .single p =>
    let (p, _, woken) := p.complete (.error single)
    { c with responses := .single p }.emit (woken.map .woke)
  | .stream ch =>
    let (ch, _, woken) := ch.terminate stream
    { c with responses := .stream ch }.emit (woken.map .woke)

/-- Cuts off what waits for the end of the call. -/
def raiseCancellation (c : Call σ Out In W) : Call σ Out In W :=
  let (cancellation, woken) := c.cancellation.raise
  { c with cancellation }.emit (woken.map .woke)

/-- Tells the task of the deadline that the call is over. -/
def raiseDone (c : Call σ Out In W) : Call σ Out In W :=
  let (done, woken) := c.done.raise
  { c with done }.emit (woken.map .woke)

/-- Ends the call locally. -/
def terminate (c : Call σ Out In W) (s : Status) (stop : Stop) : Call σ Out In W :=
  if c.finished then c
  else
    let c := { c with finished := true }
    let c := if c.attached then { c with attached := false }.emit [.cancelled, .released] else c
    let c := (c.settleInitial (.error s)).1
    let c := c.settleTrailing (.error s)
    let c := c.settleResponses s (.failed s)
    let c := c.raiseCancellation
    let c := c.stopWriter stop
    (c.raiseDone).settleStatus s

/-- The status of a single response that did not come. -/
def missingResponse : Status := Status.of .internal "Missing response message."

/-- Ends the call with the end that the server sent. -/
def complete (c : Call σ Out In W) (s : Status) (trailers : Metadata) : Call σ Out In W :=
  if c.finished then c
  else
    let c := { c with finished := true }
    let c := if c.attached then { c with attached := false }.emit [.released] else c
    let c := (c.settleInitial (if s.isOk then .ok {} else .error s)).1
    let c := c.settleTrailing (.ok trailers)
    let c :=
      if s.isOk then c.settleResponses missingResponse .finished
      else c.settleResponses s (.failed s)
    let c := c.stopWriter .inline
    (c.raiseDone).settleStatus s

/-- Ends the call because the server broke the order of the parts. -/
def violation (c : Call σ Out In W) (reason : String) : Call σ Out In W :=
  c.terminate (Status.ofFailure (.violation reason)) .inline

/-! ## Sending -/

/-- Sends a request part through the interceptors; the rejection, if there is one. -/
def sendPart (s : Setup σ Out In) (c : Call σ Out In W) (p : RequestPart) (o : SendOptions) :
    Call σ Out In W × Option Status :=
  let (passage, surroundings) := s.pipeline.request p c.surroundings
  let c := { c with surroundings }.emit (passage.visits.map .visited)
  match passage.rejection with
  | some r => (c, some r)
  | none => (if c.attached then c.emit [.sent passage.part o] else c, none)

/-- Sends the request metadata. -/
def sendMetadata (s : Setup σ Out In) (c : Call σ Out In W) (m : Metadata) : Call σ Out In W :=
  match c.sendPart s (.metadata m) {} with
  | (c, none) => c
  | (c, some r) => c.terminate r .inline

/-- Sends request messages, up to the end of the call. -/
def sendMessages (s : Setup σ Out In) (stop : Stop) :
    Call σ Out In W → List (Outbound Out) → Call σ Out In W
  | c, [] => c
  | c, m :: rest =>
    if c.finished then c
    else
      let (encoded, surroundings) := s.codec.encode m.message c.surroundings
      let c := { c with surroundings }
      match encoded with
      | .error status => c.terminate status stop
      | .ok data =>
        let compress := shouldCompress s.config.compression m.compression s.options.compression
        match c.sendPart s (.message data) { compress } with
        | (c, none) => sendMessages s stop c rest
        | (c, some r) => c.terminate r stop

/-- Sends the end of the request. -/
def sendEnd (s : Setup σ Out In) (c : Call σ Out In W) (stop : Stop) : Call σ Out In W :=
  if c.finished then c
  else
    match c.sendPart s .close {} with
    | (c, none) => c
    | (c, some r) => c.terminate r stop

/-- Carries out what the request writer hands over. -/
def onWriterEvent (s : Setup σ Out In) (c : Call σ Out In W) :
    WriterEvent (Outbound Out) Failure → Call σ Out In W
  | .yielded batch => if c.alive then c.sendMessages s .deferred batch else c
  | .terminated none => if c.alive then c.sendEnd s .deferred else c
  | .terminated (some _) => c

/-- Takes over the result of an operation of the request writer. -/
def withWriter (s : Setup σ Out In) (c : Call σ Out In W)
    (r : Writer (Outbound Out) Failure W × List (WriterEvent (Outbound Out) Failure) × List W) :
    Call σ Out In W :=
  let c := r.2.1.foldl (fun c e => c.onWriterEvent s e) { c with writer := r.1 }
  c.emit (r.2.2.map .woke)

/-! ## The transport's side -/

/-- Takes a response message. -/
def onMessage (s : Setup σ Out In) (c : Call σ Out In W) (data : Bytes) : Call σ Out In W :=
  if !c.initial.isCompleted then c.violation "response message received before metadata"
  else
    let (decoded, surroundings) := s.codec.decode data c.surroundings
    let c := { c with surroundings }
    match decoded with
    | .error status => c.terminate status .inline
    | .ok m =>
      match c.responses with
      | .single p =>
        let (p, fresh, woken) := p.complete (.ok m)
        let c := { c with responses := .single p }.emit (woken.map .woke)
        if fresh then c
        else c.violation "more than one response message for a single response call"
      | .stream ch =>
        let (ch, _, woken) := ch.push m
        { c with responses := .stream ch }.emit (woken.map .woke)

/-- Takes a response part. -/
def route (s : Setup σ Out In) (c : Call σ Out In W) (p : ResponsePart) : Call σ Out In W :=
  if !c.alive || c.finished then c
  else
    let (passage, surroundings) := s.pipeline.response p c.surroundings
    let c := { c with surroundings }.emit (passage.visits.map .visited)
    match passage.rejection with
    | some r => c.terminate r .inline
    | none =>
      match passage.part with
      | .metadata m =>
        match c.settleInitial (.ok m) with
        | (c, true) => c
        | (c, false) => c.violation "response metadata received twice"
      | .message data _ => c.onMessage s data
      | .close status trailers => c.complete status trailers

/-- Ends the call because its transport failed. -/
def fail (c : Call σ Out In W) (e : Failure) : Call σ Out In W :=
  if c.alive then c.terminate (Status.ofFailure e) .inline else c

/-- The transport becomes writable or stops being so. -/
def setWritable (s : Setup σ Out In) (c : Call σ Out In W) (b : Bool) : Call σ Out In W :=
  if c.alive && c.holdsWriter then c.withWriter s (c.writer.setWritable b) else c

/-- What a transport may tell a call. -/
inductive Routed where
  | part (p : ResponsePart)
  | failure (e : Failure)
  | writable (b : Bool)

/-- Takes what the transport tells. -/
def onRouted (s : Setup σ Out In) (c : Call σ Out In W) : Routed → Call σ Out In W
  | .part p => c.route s p
  | .failure e => c.fail e
  | .writable b => c.setWritable s b

/-! ## The start of a call -/

/-- The request metadata, with the timeout of the call. -/
def requestMetadata (options : Options) (timeout : Option Duration) : Metadata :=
  match timeout.bind Timeout.encode with
  | some v => options.metadata.insert Timeout.header v
  | none => options.metadata

/-- Opens the stream and sends the metadata. While the stream is opened the transport may tell the
call things already; it may also fail to open it. -/
def start (s : Setup σ Out In) (c : Call σ Out In W) (meanwhile : List Routed)
    (failure : Option Failure) : Call σ Out In W :=
  let c := meanwhile.foldl (fun c r => c.onRouted s r) (c.emit [.opened])
  match failure with
  | some e => c.terminate (Status.ofFailure (.connect e)) .inline
  | none =>
    let c := { c with attached := true }
    let timeout := s.options.timeout <|> s.config.timeout
    let c := match timeout with
      | some d => if c.runtime then c.emit [.armed d] else c
      | none => c
    c.sendMetadata s (requestMetadata s.options timeout)

/-- Sends the only request and the end of the request. -/
def sendSingle (s : Setup σ Out In) (c : Call σ Out In W) (m : Out) : Call σ Out In W :=
  (c.sendMessages s .inline [{ message := m }]).sendEnd s .inline

/-- Gives the call its request writer; one that comes too late is cancelled. -/
def attachWriter (c : Call σ Out In W) : Call σ Out In W :=
  if c.finished then c.cancelWriter else { c with holdsWriter := true }

/-- Starts a call of a shape; a single request is sent at once. -/
def begin (s : Setup σ Out In) (shape : Shape) (request : Out) (c : Call σ Out In W)
    (meanwhile : List Routed) (failure : Option Failure) : Call σ Out In W :=
  let c := c.start s meanwhile failure
  if shape.streamsRequests then c.attachWriter else c.sendSingle s request

/-! ## The user's side -/

/-- Ends the call for the user. -/
def cancel (c : Call σ Out In W) : Call σ Out In W :=
  c.terminate (Status.of .cancelled "call was cancelled by the client") .inline

/-- Ends the call because its time ran out, if somebody holds it. -/
def expire (c : Call σ Out In W) : Call σ Out In W :=
  if c.alive then c.terminate (Status.ofFailure .deadlineExceeded) .inline else c

/-- Writes a request message. -/
def write (s : Setup σ Out In) (c : Call σ Out In W) (m : Outbound Out) :
    Call σ Out In W × Admission :=
  let (writer, admission, events) := c.writer.offer m
  (c.withWriter s (writer, events, []), admission)

/-- The wait of a suspended write. -/
def pollWrite [DecidableEq W] (c : Call σ Out In W) (w : W) :
    Call σ Out In W × Poll (Except WriteFailure Unit) :=
  let (writer, r) := c.writer.pollCapacity w
  ({ c with writer }, r)

/-- The wait until every message was handed over. -/
def pollDrained [DecidableEq W] (c : Call σ Out In W) (w : W) : Call σ Out In W × Poll Unit :=
  let (writer, r) := c.writer.pollDrained w
  ({ c with writer }, r)

/-- Finishes the request stream. -/
def finishRequests (s : Setup σ Out In) (c : Call σ Out In W) : Call σ Out In W :=
  c.withWriter s (c.writer.finish none)

/-- Reads a response message of a stream. -/
def readResponse [DecidableEq W] (c : Call σ Out In W) (w : W) :
    Call σ Out In W × Poll (Except Status (Option In)) :=
  match c.responses with
  | .single _ => (c, .pending)
  | .stream ch =>
    let (cancellation, ch, r) := readMessage c.cancellation ch w
    ({ c with cancellation, responses := .stream ch }, r)

/-- Looks for the next item of the response stream. -/
def readResponseItem [DecidableEq W] (c : Call σ Out In W) (done : Bool) (w : W) :
    Call σ Out In W × Bool × Poll (Item In Status) :=
  match c.responses with
  | .single _ => (c, done, .pending)
  | .stream ch =>
    let (cancellation, ch, done, r) := readItem c.cancellation ch done w
    ({ c with cancellation, responses := .stream ch }, done, r)

/-- The status of a response that was taken. -/
def responseTaken : Status := Status.of .failedPrecondition "response was already taken"

/-- Takes the single response. -/
def takeResponse [DecidableEq W] (c : Call σ Out In W) (w : W) :
    Call σ Out In W × Poll (Except Status In) :=
  match c.responses with
  | .single p =>
    let (p, r) := p.take w
    ({ c with responses := .single p }, r.map fun v => v.getD (.error responseTaken))
  | .stream _ => (c, .pending)

/-- Waits for the initial metadata. -/
def pollInitial [DecidableEq W] (c : Call σ Out In W) (w : W) :
    Call σ Out In W × Poll (Except Status Metadata) :=
  let (initial, r) := c.initial.poll w
  ({ c with initial }, r.map fun v =>
    v.getD (.error (Status.of .internal "initial metadata was taken")))

/-- Waits for the trailers. -/
def pollTrailing [DecidableEq W] (c : Call σ Out In W) (w : W) :
    Call σ Out In W × Poll (Except Status Metadata) :=
  let (trailing, r) := c.trailing.poll w
  ({ c with trailing }, r.map fun v =>
    v.getD (.error (Status.of .internal "trailing metadata was taken")))

/-- Waits for the status. -/
def pollStatus [DecidableEq W] (c : Call σ Out In W) (w : W) : Call σ Out In W × Poll Status :=
  let (status, r) := c.status.poll w
  ({ c with status }, r.map fun v => v.getD (Status.of .internal "status was taken"))

/-- Waits for the end of the call, as the task of its deadline does. -/
def pollDone [DecidableEq W] (c : Call σ Out In W) (w : W) : Call σ Out In W × Bool :=
  let (done, r) := c.done.poll w
  ({ c with done }, r)

/-- Drops the last handle of the call: the stream is let go, nothing is settled. -/
def drop (c : Call σ Out In W) : Call σ Out In W :=
  let c := if c.attached then c.emit [.released] else c
  { c with alive := false, attached := false, holdsWriter := false }

/-- Whether the status is known. -/
def isCompleted (c : Call σ Out In W) : Bool := c.status.isCompleted

def debug (shape : Shape) (c : Call σ Out In W) : String :=
  Text.partialRecord shape.name
    [("call", Text.record "Call" [("completed", Text.flag c.isCompleted)])]

end Call

end CallLifecycle.Client
