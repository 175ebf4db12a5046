/-!
# Waiting for something to happen

Whoever waits leaves a waker of type `W` behind; an operation that makes something happen answers
with the wakers that it woke, in order.

* `Poll` — the answer to a look at something that may not have happened yet;
* `Token` — a signal that is raised once;
* `Promise` — a value that is set once, and read by everyone or taken by the first.
-/

namespace CallLifecycle

/-- Nothing yet, or the value waited for. -/
inductive Poll (α : Type) where
  | pending
  | ready (a : α)
  deriving DecidableEq, Repr

namespace Poll

def map {α β : Type} (f : α → β) : Poll α → Poll β
  | pending => pending
  | ready a => ready (f a)

def isReady {α : Type} : Poll α → Bool
  | pending => false
  | ready _ => true

end Poll

/-- Adds a waker to those that wait, unless it waits already. -/
def register {W : Type} [DecidableEq W] (w : W) (waiters : List W) : List W :=
  if w ∈ waiters then waiters else waiters ++ [w]

/-- A signal that is raised once, and stays. -/
structure Token (W : Type) where
  raised : Bool := false
  waiters : List W := []

namespace Token

variable {W : Type}

/-- Raises the signal. -/
def raise (t : Token W) : Token W × List W :=
  if t.raised then (t, []) else ({ raised := true }, t.waiters)

/-- Looks at the signal, to be woken when it is raised. -/
def poll [DecidableEq W] (t : Token W) (w : W) : Token W × Bool :=
  if t.raised then (t, true) else ({ t with waiters := register w t.waiters }, false)

end Token

/-- What a promise holds. -/
inductive Slot (α : Type) where
  | pending
  | ready (a : α)
  | taken
  deriving Repr

/-- A value that is set once. -/
structure Promise (α W : Type) where
  slot : Slot α := .pending
  waiters : List W := []

namespace Promise

variable {α W : Type}

def isCompleted (p : Promise α W) : Bool :=
  match p.slot with
  | .pending => false
  | _ => true

/-- Sets the value, unless it was set before; whether it was set. -/
def complete (p : Promise α W) (a : α) : Promise α W × Bool × List W :=
  match p.slot with
  | .pending => ({ slot := .ready a }, true, p.waiters)
  | _ => (p, false, [])

/-- Looks at the value; nothing if it was taken. -/
def poll [DecidableEq W] (p : Promise α W) (w : W) : Promise α W × Poll (Option α) :=
  match p.slot with
  | .pending => ({ p with waiters := register w p.waiters }, .pending)
  | .ready a => (p, .ready (some a))
  | .taken => (p, .ready none)

/-- Takes the value; nothing if it was taken before. -/
def take [DecidableEq W] (p : Promise α W) (w : W) : Promise α W × Poll (Option α) :=
  match p.slot with
  | .pending => ({ p with waiters := register w p.waiters }, .pending)
  | .ready a => ({ p with slot := .taken }, .ready (some a))
  | .taken => (p, .ready none)

end Promise

end CallLifecycle
