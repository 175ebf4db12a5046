import CallLifecycle.Stream

/-!
# What a read yields

* `push_of_live`, `terminate_of_live` — the producer's side of a channel that is open;
* `Reading`, `reading` — all that a read can do: a cancellation cuts it off, else it takes the first element of
  the queue or tells how the channel stands;
* `items_of_looks` — **a stream of items** tells what reads tell, up to its end or its first failure.
-/

namespace CallLifecycle

namespace Channel

variable {α ε W : Type} {c : Channel α ε W}

theorem isTerminated_of_live (h : c.terminal = .live) : c.isTerminated = false := by
  simp [isTerminated, h, Terminal.isLive]

theorem isTerminated_of_not_live (h : c.terminal ≠ .live) : c.isTerminated = true := by
  cases ht : c.terminal <;> simp_all [isTerminated, Terminal.isLive]

theorem push_of_live (h : c.terminal = .live) (a : α) :
    (c.push a).1.queue = c.queue ++ [a] ∧ (c.push a).1.terminal = .live := by
  unfold push
  rw [if_neg (by simp [isTerminated_of_live h])]
  cases c.waiter <;> exact ⟨rfl, h⟩

theorem push_of_not_live (h : c.terminal ≠ .live) (a : α) : (c.push a).1 = c := by
  simp [push, isTerminated_of_not_live h]

@[simp] theorem queue_terminate (c : Channel α ε W) (t : Terminal ε) : (c.terminate t).1.queue = c.queue := by
  unfold terminate
  split <;> rfl

theorem terminal_terminate_of_live (h : c.terminal = .live) (t : Terminal ε) : (c.terminate t).1.terminal = t := by
  simp [terminate, isTerminated_of_live h]

theorem terminate_of_not_live (h : c.terminal ≠ .live) (t : Terminal ε) : (c.terminate t).1 = c := by
  simp [terminate, isTerminated_of_not_live h]

theorem terminal_terminate_ne {t : Terminal ε} (h : t ≠ .live) : (c.terminate t).1.terminal ≠ .live := by
  by_cases live : c.terminal = .live
  · rwa [terminal_terminate_of_live live]
  · rwa [terminate_of_not_live live]

end Channel

/-- All that a read can do. -/
inductive Reading {α W : Type} (t : Token W) (c : Channel α Status W) :
    Token W → Channel α Status W → Poll (Except Status (Option α)) → Prop
  /-- A cancellation cuts it off. -/
  | cut (status : Status) (raised : t.raised = true) : Reading t c t c (.ready (.error status))
  | next (m : α) (rest : List α) (ws : List W) (uncut : t.raised = false) (queue : c.queue = m :: rest) :
      Reading t c { t with waiters := ws } { c with queue := rest } (.ready (.ok (some m)))
  | waits (w : W) (ws : List W) (uncut : t.raised = false) (queue : c.queue = []) (terminal : c.terminal = .live) :
      Reading t c { t with waiters := ws } { c with waiter := some w } .pending
  | ended (ws : List W) (uncut : t.raised = false) (queue : c.queue = []) (terminal : c.terminal = .finished) :
      Reading t c { t with waiters := ws } c (.ready (.ok none))
  | failed (status : Status) (ws : List W) (uncut : t.raised = false) (queue : c.queue = [])
      (terminal : c.terminal = .failed status) :
      Reading t c { t with waiters := ws } c (.ready (.error status))

theorem reading {α W : Type} [DecidableEq W] (t : Token W) (c : Channel α Status W) (w : W) :
    Reading t c (readMessage t c w).1 (readMessage t c w).2.1 (readMessage t c w).2.2 := by
  rcases t with ⟨_ | _, waiters⟩
  · rcases c with ⟨_ | ⟨m, rest⟩, waiter, terminal⟩
    · cases terminal with
      | live => exact .waits w _ rfl rfl rfl
      | finished => exact .ended _ rfl rfl rfl
      | failed status => exact .failed status _ rfl rfl rfl
    · exact .next m rest _ rfl rfl
  · exact .cut _ rfl

/-! ## items -/

section Items

variable {α W : Type} [DecidableEq W]

/-- A stream as a look finds it, and who looks. -/
abbrev Sight (α W : Type) := Token W × Channel α Status W × W

/-- The item that a read would be told as. -/
def Sight.item? : Sight α W → Poll (Item α Status)
  | (t, c, w) => (readMessage t c w).2.2.map Item.ofRead

def isLastItem : Poll (Item α Status) → Bool
  | .pending => false
  | .ready item => item.isLast

/-- What looks for items give, one behind the other; between them anything may happen to the stream. -/
def items (done : Bool) : List (Sight α W) → List (Poll (Item α Status))
  | [] => []
  | (t, c, w) :: rest => (readItem t c done w).2.2.2 :: items (readItem t c done w).2.2.1 rest

theorem items_of_done (looks : List (Sight α W)) : items true looks = looks.map fun _ => .ready .ended := by
  induction looks with
  | nil => rfl
  | cons look rest ih => exact congrArg (_ :: ·) ih

theorem items_cons (look : Sight α W) (rest : List (Sight α W)) :
    items false (look :: rest) = look.item? :: items (isLastItem look.item?) rest := by
  obtain ⟨t, c, w⟩ := look
  rcases read : readMessage t c w with ⟨t', c', _ | r⟩ <;>
    simp [items, readItem, nextItem, Sight.item?, read, Poll.map, isLastItem]

/-- **Items are told as reads would be**, up to the end or the first failure. Behind that item there is only the end,
whatever the stream holds. -/
theorem items_of_looks (looks : List (Sight α W)) : ∃ early late, looks = early ++ late ∧
    items false looks = early.map Sight.item? ++ late.map (fun _ => .ready .ended) ∧
    (∀ look ∈ early.dropLast, isLastItem look.item? = false) ∧
    (late ≠ [] → ∃ look, early.getLast? = some look ∧ isLastItem look.item? = true) := by
  induction looks with
  | nil => exact ⟨[], [], rfl, rfl, nofun, fun h => absurd rfl h⟩
  | cons look rest ih =>
    cases last : isLastItem look.item? with
    | true => exact ⟨[look], rest, rfl, by simp [items_cons, last, items_of_done], nofun, fun _ => ⟨look, rfl, last⟩⟩
    | false =>
      obtain ⟨early, late, rfl, told, going, stopped⟩ := ih
      refine ⟨look :: early, late, rfl, by simp [items_cons, last, told], fun l mem => ?_, fun more => ?_⟩
      · cases early with
        | nil => cases mem
        | cons next early =>
          rcases List.mem_cons.mp mem with rfl | mem
          · exact last
          · exact going l mem
      · obtain ⟨l, isLast, ends⟩ := stopped more
        exact ⟨l, by simp [List.getLast?_cons, isLast], ends⟩

end Items

end CallLifecycle
