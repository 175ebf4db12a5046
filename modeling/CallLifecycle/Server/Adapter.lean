import CallLifecycle.Server.Call
import CallLifecycle.Server.Handler

/-!
# Adapters

A handler that is given its request as one message runs within an adapter, which reads the request
before it invokes the handler.

* `Adapter` — how far an adapter is;
* `Call.adapt` — it does the next thing.
-/

namespace CallLifecycle.Server

/-- How far the adapter of a handler is. -/
inductive Adapter (In : Type) where
  | reading (s : SingleRequest In)
  /-- It ordered the end of the call for a breach of the protocol, and waits for it. -/
  | aborting (reason : String)
  /-- The handler is invoked with this request. -/
  | invoked (m : In)
  | ended

/-- The adapter does the next thing, unless it has to wait. -/
def Call.adapt {σ Out In W : Type} [DecidableEq W] (c : Call σ Out In W) (w : W) :
    Adapter In → Call σ Out In W × Poll (Adapter In)
  | .reading s =>
    match c.readRequest w with
    | (c, .pending) => (c, .pending)
    | (c, .ready r) =>
      match s.onRead r with
      | .readOn s => (c, .ready (.reading s))
      | .accepted m => (c, .ready (.invoked m))
      | .failed status => (c.returned (some (.status status)), .ready .ended)
      | .violated reason =>
        match c.abort reason with
        | (c, true) => (c, .ready (.aborting reason))
        | (c, false) => (c.returned (some (.violation reason)), .ready .ended)
  | .aborting reason =>
    match c.pollCancelled w with
    | (c, false) => (c, .pending)
    | (c, true) => (c.returned (some (.violation reason)), .ready .ended)
  | .invoked _ => (c, .pending)
  | .ended => (c, .pending)

end CallLifecycle.Server
