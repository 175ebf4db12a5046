import CallLifecycle.Failure

/-!
# Handlers

A handler is given the request as one message or as a stream, and gives the response as one message
or as a stream.

* `HandlerKind` — the four kinds of handlers;
* `SingleRequest.onRead` — how the one message of a request is read: the stream must hold it and
  nothing else.
-/

namespace CallLifecycle.Server

/-- The kinds of handlers. -/
inductive HandlerKind where
  | unary
  | clientStreaming
  | serverStreaming
  | bidi
  deriving DecidableEq, Repr

namespace HandlerKind

/-- Whether the handler is given the request as a stream. -/
def streamsRequests : HandlerKind → Bool
  | clientStreaming => true
  | bidi => true
  | _ => false

/-- Whether the handler gives the response as a stream. -/
def streamsResponses : HandlerKind → Bool
  | serverStreaming => true
  | bidi => true
  | _ => false

end HandlerKind

/-- How far the reading of a single request is. -/
inductive SingleRequest (In : Type) where
  /-- The request is read next. -/
  | first
  /-- The end is read next. -/
  | second (m : In)

/-- What a read means for a single request. -/
inductive RequestVerdict (In : Type) where
  | readOn (s : SingleRequest In)
  | accepted (m : In)
  | failed (s : Status)
  | violated (reason : String)

/-- Judges a read. -/
def SingleRequest.onRead {In : Type} :
    SingleRequest In → Except Status (Option In) → RequestVerdict In
  | _, .error s => .failed s
  | .first, .ok none => .violated "missing request message"
  | .first, .ok (some m) => .readOn (.second m)
  | .second m, .ok none => .accepted m
  | .second _, .ok (some _) => .violated "more than one request message"

end CallLifecycle.Server
