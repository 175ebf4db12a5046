import CallLifecycle.Client.Call
import CallLifecycle.Clock

/-!
# The deadline of a client call

A task of its own ends a call whose time ran out, unless the call has ended before.

* `DeadlineTask` — how far the task is;
* `Call.watch` — the task runs.
-/

namespace CallLifecycle.Client

/-- How far the task of a deadline is. -/
inductive DeadlineTask where
  | idle
  /-- It was started, but did not run. -/
  | armed (timeout : Duration)
  | sleeping (alarm : Instant)
  deriving DecidableEq

/-- The alarm of a task that runs now. It is set when the task runs for the first time. -/
def DeadlineTask.alarm? (now : Instant) : DeadlineTask → Option Instant
  | idle => none
  | armed timeout => some (now.alarmAfter timeout)
  | sleeping alarm => some alarm

/-- Runs the task of a deadline: it ends with its call, or ends the call. -/
def Call.watch {σ Out In W : Type} [DecidableEq W] (now : Instant) (w : W) (c : Call σ Out In W) (t : DeadlineTask) :
    Call σ Out In W × DeadlineTask :=
  match t.alarm? now with
  | none => (c, .idle)
  | some alarm =>
    let (c, done) := c.pollDone w
    if done then (c, .idle)
    else if alarm ≤ now then (c.expire, .idle)
    else (c, .sleeping alarm)

end CallLifecycle.Client
