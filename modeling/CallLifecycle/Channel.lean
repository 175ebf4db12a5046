import CallLifecycle.Signal
import CallLifecycle.Text.Quoted

/-!
# Channels

A channel passes elements from a producer, who never waits, to one consumer. When the producer
closes it, cleanly or with a failure, the consumer first reads what was queued and then, as often
as it looks, the outcome.

* `Channel.push`, `Channel.terminate` — the producer's side;
* `Channel.poll`, `Channel.forget` — the consumer's side;
* `nextItem`, `Channel.pollItem` — the consumer's side as a sequence of items, which ends once.
-/

namespace CallLifecycle

/-- Whether a channel is still open, and how it was closed. -/
inductive Terminal (ε : Type) where
  | live
  | finished
  | failed (e : ε)
  deriving Repr

def Terminal.isLive {ε : Type} : Terminal ε → Bool
  | .live => true
  | _ => false

/-- What became of an element or of the end of a channel. -/
inductive Handover where
  /-- It was taken over; so many elements wait now, none if the consumer was woken. -/
  | accepted (depth : Nat)
  /-- The channel was closed before. -/
  | dropped
  deriving DecidableEq, Repr

/-- The queued elements, the consumer that waits for one, and the end. -/
structure Channel (α ε W : Type) where
  queue : List α := []
  waiter : Option W := none
  terminal : Terminal ε := .live

namespace Channel

variable {α ε W : Type}

def isTerminated (c : Channel α ε W) : Bool := !c.terminal.isLive

/-- Hands an element over. -/
def push (c : Channel α ε W) (a : α) : Channel α ε W × Handover × List W :=
  if c.isTerminated then (c, .dropped, [])
  else
    let c := { c with queue := c.queue ++ [a] }
    match c.waiter with
    | some w => ({ c with waiter := none }, .accepted 0, [w])
    | none => (c, .accepted c.queue.length, [])

/-- Closes the channel; only the first end counts. -/
def terminate (c : Channel α ε W) (t : Terminal ε) : Channel α ε W × Handover × List W :=
  if c.isTerminated then (c, .dropped, [])
  else ({ c with terminal := t, waiter := none }, .accepted 0, c.waiter.toList)

/-- Looks for the next element: nothing at the clean end. Without one the consumer waits; of
several consumers only the last one to look is woken. -/
def poll (c : Channel α ε W) (w : W) : Channel α ε W × Poll (Except ε (Option α)) :=
  match c.queue with
  | a :: rest => ({ c with queue := rest }, .ready (.ok (some a)))
  | [] =>
    match c.terminal with
    | .live => ({ c with waiter := some w }, .pending)
    | .finished => (c, .ready (.ok none))
    | .failed e => (c, .ready (.error e))

/-- The consumer waits no longer. -/
def forget (c : Channel α ε W) : Channel α ε W := { c with waiter := none }

/-- The failure that the channel was closed with. -/
def failure (c : Channel α ε W) : Option ε :=
  match c.terminal with
  | .failed e => some e
  | _ => none

def debugSource (c : Channel α ε W) : String :=
  Text.record "PassthroughSource" [("terminated", Text.flag c.isTerminated)]

def debugStream (c : Channel α ε W) : String :=
  Text.record "PassthroughStream"
    [("queued", toString c.queue.length), ("terminated", Text.flag c.isTerminated)]

end Channel

/-- An item of a sequence that ends after its first failure. -/
inductive Item (α ε : Type) where
  | next (a : α)
  | failed (e : ε)
  | ended
  deriving Repr

/-- The item that a read stands for. -/
def Item.ofRead {α ε : Type} : Except ε (Option α) → Item α ε
  | .ok (some a) => .next a
  | .ok none => .ended
  | .error e => .failed e

/-- Whether no item follows this one. -/
def Item.isLast {α ε : Type} : Item α ε → Bool
  | .next _ => false
  | _ => true

/-- Looks for the next item by a read; `done` tells that the last one was read, behind which nothing is read. -/
def nextItem {α ε S : Type} (read : S → S × Poll (Except ε (Option α))) (x : S) (done : Bool) :
    S × Bool × Poll (Item α ε) :=
  if done then (x, true, .ready .ended)
  else
    match read x with
    | (x, .pending) => (x, false, .pending)
    | (x, .ready r) => (x, (Item.ofRead r).isLast, .ready (Item.ofRead r))

/-- Looks for the next item of a channel. -/
def Channel.pollItem {α ε W : Type} (c : Channel α ε W) (done : Bool) (w : W) :
    Channel α ε W × Bool × Poll (Item α ε) :=
  nextItem (·.poll w) c done

end CallLifecycle
