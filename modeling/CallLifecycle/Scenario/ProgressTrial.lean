import CallLifecycle.Scenario.Answer
import CallLifecycle.Server.Progress

/-!
# Trials of the progress of a server call

A trial takes parts in and sends parts, and tells after each what was decided and how far the call
is then.
-/

namespace CallLifecycle.Scenario

open Answer Server

/-- An operation on the progress of a call. -/
inductive ProgressOp where
  | receive (k : PartKind)
  | send (k : PartKind)
  | start
  | cancel
  | unknown

/-- What is done with a part. -/
def ofDecision : Decision → Answer
  | .forward => text "forward"
  | .drop => text "drop"
  | .cancel reason => fields [("cancel", text reason)]

/-- What is left to do for a call that is given up. -/
def ofAftermath (a : Progress.Aftermath) : Answer :=
  fields [("release_handler", flag a.releaseHandler), ("send_end", flag a.sendEnd)]

/-- Carries an operation out: the progress then, and the answer. -/
def ProgressOp.apply (p : Progress) : ProgressOp → Progress × Answer
  | .receive k => (p.receive k).map id ofDecision
  | .send k => (p.send k).map id ofDecision
  | .start => p.start.map id flag
  | .cancel => p.cancel.map id ofAftermath
  | .unknown => (p, text "unknown op")

/-- Carries operations out. -/
def tryProgress : Progress → List ProgressOp → List Answer
  | _, [] => []
  | p, op :: rest =>
    let (p, r) := op.apply p
    fields [("r", r), ("handler", text p.handler.name), ("inbound", text p.inbound.name),
      ("outbound", text p.outbound.name), ("completed", flag p.isCompleted)]
      :: tryProgress p rest

end CallLifecycle.Scenario
