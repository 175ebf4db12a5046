import CallLifecycle.Part

/-!
# The progress of a server call

Which parts a server call takes and sends is decided by three counters: how far the handler is, how
far the requests are, and how far the responses are. Nothing else is looked at.

* `Progress.receive`, `Progress.send` — decides on a part of either direction;
* `Progress.start`, `Progress.cancel` — the handler starts, the call is given up.
-/

namespace CallLifecycle.Server

/-- How far the handler is. -/
inductive HandlerPhase where
  | idle
  | active
  | completed
  deriving DecidableEq, Repr

/-- How far the requests are. -/
inductive InboundPhase where
  | awaitingMetadata
  | receiving
  | closed
  deriving DecidableEq, Repr

/-- How far the responses are. -/
inductive OutboundPhase where
  | headersPending
  | streaming
  | ended
  deriving DecidableEq, Repr

def HandlerPhase.name : HandlerPhase → String
  | .idle => "Idle"
  | .active => "Active"
  | .completed => "Completed"

def InboundPhase.name : InboundPhase → String
  | .awaitingMetadata => "AwaitingMetadata"
  | .receiving => "Receiving"
  | .closed => "Closed"

def OutboundPhase.name : OutboundPhase → String
  | .headersPending => "HeadersPending"
  | .streaming => "Streaming"
  | .ended => "Ended"

/-- What is done with a part. -/
inductive Decision where
  | forward
  | cancel (reason : String)
  | drop
  deriving DecidableEq, Repr

/-- The progress of a call. -/
structure Progress where
  handler : HandlerPhase := .idle
  inbound : InboundPhase := .awaitingMetadata
  outbound : OutboundPhase := .headersPending
  deriving DecidableEq, Repr

namespace Progress

def isCompleted (p : Progress) : Bool := p.handler = .completed

/-- A part passes while the handler runs. -/
def whileActive (p : Progress) : Decision := if p.handler = .active then .forward else .drop

/-- Decides on a request part. -/
def receive (p : Progress) (k : PartKind) : Progress × Decision :=
  if p.handler = .completed then (p, .drop)
  else
    match k, p.inbound with
    | .metadata, .awaitingMetadata => ({ p with inbound := .receiving }, .forward)
    | .metadata, _ => (p, .cancel "request metadata received twice")
    | .message, .awaitingMetadata => (p, .cancel "request message received before metadata")
    | .message, .receiving => (p, p.whileActive)
    | .message, .closed => (p, .cancel "request message received after end of stream")
    | .close, .awaitingMetadata => (p, .cancel "end of stream received before metadata")
    | .close, .receiving => ({ p with inbound := .closed }, p.whileActive)
    | .close, .closed => (p, .cancel "end of stream received twice")

/-- Decides on a response part. The end is the only part that may be sent by a call that is
completed, and it is sent once. -/
def send (p : Progress) (k : PartKind) : Progress × Decision :=
  match k, p.outbound with
  | _, .ended => (p, .drop)
  | .close, _ => ({ p with outbound := .ended, handler := .completed }, .forward)
  | .metadata, .headersPending =>
    if p.handler = .active then ({ p with outbound := .streaming }, .forward) else (p, .drop)
  | .metadata, .streaming => (p, .drop)
  | .message, .streaming => (p, p.whileActive)
  | .message, .headersPending =>
    if p.handler = .active then (p, .cancel "response message sent before headers") else (p, .drop)

/-- The handler starts, if it did not and the request metadata are there; whether it does. -/
def start (p : Progress) : Progress × Bool :=
  if p.handler = .idle && p.inbound ≠ .awaitingMetadata then
    ({ p with handler := .active }, true)
  else (p, false)

/-- What is left to do for a call that is given up. -/
structure Aftermath where
  releaseHandler : Bool
  sendEnd : Bool
  deriving DecidableEq, Repr

/-- The call is given up. -/
def cancel (p : Progress) : Progress × Aftermath :=
  ({ p with handler := .completed, inbound := .closed },
    { releaseHandler := p.handler = .active, sendEnd := p.outbound ≠ .ended })

end Progress

end CallLifecycle.Server
