import CallLifecycle.Failure
import CallLifecycle.Signal

/-!
# Bounded writers

A writer stands between producers and a sink. While the sink is writable it hands elements over at
once; otherwise it keeps them. A producer that fills it up to the high mark is suspended until it
has emptied to the low mark; beyond the hard limit a write is refused.

The sink is told of a writer by `WriterEvent`s, in order: batches of elements, then the end.

* `Writer.offer`, `Writer.pollCapacity` — a write, and the wait that it may end with;
* `Writer.setWritable` — the sink's side;
* `Writer.finish`, `Writer.cancel` — the end, after or instead of the elements that are kept;
* `Writer.pollDrained` — waits until nothing is kept.
-/

namespace CallLifecycle

/-- The marks of a writer. -/
structure WriterConfig where
  high : Nat := 8
  low : Nat := 4
  limit : Nat := 16
  deriving DecidableEq, Repr

namespace WriterConfig

/-- Moves the marks to where they make sense: `1 ≤ high ≤ limit` and `low ≤ high`. -/
def normalized (c : WriterConfig) : WriterConfig where
  limit := max c.limit 1
  high := min (max c.high 1) (max c.limit 1)
  low := min c.low (min (max c.high 1) (max c.limit 1))

def debug (c : WriterConfig) : String :=
  Text.record "WriterConfig" [("high_watermark", toString c.high),
    ("low_watermark", toString c.low), ("max_pending_writes", toString c.limit)]

theorem high_normalized_le_limit (c : WriterConfig) : c.normalized.high ≤ c.normalized.limit := by
  simp only [normalized]
  omega

theorem one_le_high_normalized (c : WriterConfig) : 1 ≤ c.normalized.high := by
  simp only [normalized]
  omega

end WriterConfig

/-- How far a writer is on its way to the end. -/
inductive Completion (ε : Type) where
  /-- It accepts elements. -/
  | active
  /-- It ends, with this reason, once the elements that it keeps are handed over. -/
  | finishing (reason : Option ε)
  | finished
  | cancelled
  deriving Repr

namespace Completion

variable {ε : Type}

def isActive : Completion ε → Bool
  | active => true
  | _ => false

/-- Whether the sink was told of the end. -/
def isTerminated : Completion ε → Bool
  | finished => true
  | cancelled => true
  | _ => false

def isCancelled : Completion ε → Bool
  | cancelled => true
  | _ => false

end Completion

/-- What the sink is told. -/
inductive WriterEvent (α ε : Type) where
  | yielded (batch : List α)
  | terminated (reason : Option ε)
  deriving Repr

/-- A writer of elements `α`, which ends with a reason `ε` if it does not end well. -/
structure Writer (α ε W : Type) where
  config : WriterConfig
  pending : List α := []
  writable : Bool := true
  completion : Completion ε := .active
  writeWaiters : List W := []
  drainWaiters : List W := []

/-- What became of an element: refused, taken over, or taken over and the producer suspended. -/
inductive Admission where
  | refused (why : WriteFailure)
  | done
  | suspended
  deriving DecidableEq, Repr

namespace Writer

variable {α ε W : Type}

/-- A new writer, whose sink is writable. -/
def new (c : WriterConfig) : Writer α ε W := { config := c.normalized }

/-- Takes an element over, unless the writer has ended or is full. -/
def offer (w : Writer α ε W) (a : α) : Writer α ε W × Admission × List (WriterEvent α ε) :=
  if !w.completion.isActive then (w, .refused .alreadyFinished, [])
  else if w.writable then (w, .done, [.yielded [a]])
  else if w.config.limit ≤ w.pending.length then (w, .refused .tooManyPendingWrites, [])
  else
    let w := { w with pending := w.pending ++ [a] }
    (w, if w.config.high ≤ w.pending.length then .suspended else .done, [])

/-- The wait of a suspended producer. -/
def pollCapacity [DecidableEq W] (w : Writer α ε W) (k : W) :
    Writer α ε W × Poll (Except WriteFailure Unit) :=
  if w.completion.isCancelled then (w, .ready (.error .cancelled))
  else if w.pending.length ≤ w.config.low then (w, .ready (.ok ()))
  else ({ w with writeWaiters := register k w.writeWaiters }, .pending)

/-- The wait for the moment when nothing is kept. -/
def pollDrained [DecidableEq W] (w : Writer α ε W) (k : W) : Writer α ε W × Poll Unit :=
  if w.pending.isEmpty || w.completion.isTerminated then (w, .ready ())
  else ({ w with drainWaiters := register k w.drainWaiters }, .pending)

/-- Hands over what is kept, and the end if that waits. -/
def flush (w : Writer α ε W) : Writer α ε W × List (WriterEvent α ε) × List W :=
  let (w, batch, woken) :=
    if w.pending.isEmpty then (w, [], [])
    else ({ w with pending := [], writeWaiters := [], drainWaiters := [] },
      [WriterEvent.yielded w.pending], w.writeWaiters ++ w.drainWaiters)
  match w.completion with
  | .finishing reason =>
    ({ w with completion := .finished }, batch ++ [.terminated reason], woken)
  | _ => (w, batch, woken)

/-- The sink becomes writable or stops being so. -/
def setWritable (w : Writer α ε W) (writable : Bool) :
    Writer α ε W × List (WriterEvent α ε) × List W :=
  let w := { w with writable }
  if writable then w.flush else (w, [], [])

/-- Ends the writer behind the elements that it keeps. -/
def finish (w : Writer α ε W) (reason : Option ε) :
    Writer α ε W × List (WriterEvent α ε) × List W :=
  if !w.completion.isActive then (w, [], [])
  else if w.pending.isEmpty then
    ({ w with completion := .finished, drainWaiters := [] }, [.terminated reason], w.drainWaiters)
  else ({ w with completion := .finishing reason }, [], [])

/-- Ends the writer at once, without the elements that it keeps. -/
def cancel (w : Writer α ε W) (reason : ε) : Writer α ε W × List (WriterEvent α ε) × List W :=
  if w.completion.isTerminated then (w, [], [])
  else
    ({ w with completion := .cancelled, pending := [], writeWaiters := [], drainWaiters := [] },
      [.terminated (some reason)], w.writeWaiters ++ w.drainWaiters)

/-- Whether the writer accepts no more elements. -/
def isFinished (w : Writer α ε W) : Bool := !w.completion.isActive

def debug (w : Writer α ε W) : String :=
  Text.record "AsyncWriter" [("config", w.config.debug), ("pending", toString w.pending.length),
    ("writable", Text.flag w.writable), ("active", Text.flag w.completion.isActive)]

end Writer

end CallLifecycle
