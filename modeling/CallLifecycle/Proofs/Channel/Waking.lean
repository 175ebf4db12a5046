import CallLifecycle.Proofs.Channel.Session

/-!
# Whom the producers of a channel wake

A look that finds nothing leaves its waker with the channel. What is kept there is a single waker, and three kinds of
looks, the producers and dropped futures share the place. A future that is kept, and looked at again, behind its answer
looks as the channel itself does (`Act.poll`); that it is dropped then is an `Act.abandon` of its own.

* `Session.woken`, `Session.wakes` — who is woken by a step, and by many;
* `Looked`, `Roused` — all that a look can do, and all that a producer can;
* `waiter_step`, `Tidy`, `tidy_after` — who is registered behind a step, and that the channel is open then with nothing
  queued;
* `registered_after` — **a waker is registered** exactly behind a look that found nothing;
* `Attentive`, `attentive_after` — **the consumer of a channel is never stranded**: once there is something to read, the
  waker of its last look was woken, unless a future was dropped.
-/

namespace CallLifecycle.Channel

/-- The waker that looks for the next element. -/
def Act.waker? {α ε W : Type} : Act α ε W → Option W
  | await w => some w
  | poll w => some w
  | item w => some w
  | _ => none

def Answer.isPending {α ε : Type} : Answer α ε → Bool
  | .read r => !r.isReady
  | .item r => !r.isReady
  | _ => false

variable {α ε W : Type} {c : Channel α ε W}

/-- Nothing is queued, and the channel is open. -/
def Dry (c : Channel α ε W) : Prop := c.queue = [] ∧ c.terminal = .live

/-- A waker is registered only while there is nothing to find. -/
def Tidy (c : Channel α ε W) : Prop := c.waiter ≠ none → Dry c

theorem tidy_of_none (nobody : c.waiter = none) : Tidy c := fun waits => absurd nobody waits

theorem Tidy.none_of_not_dry (tidy : Tidy c) (finds : ¬ Dry c) : c.waiter = none := by
  by_contra waits
  exact finds (tidy waits)

theorem isReady_poll (c : Channel α ε W) (w : W) : (c.poll w).2.isReady = false ↔ Dry c := by
  unfold poll Dry
  cases c.queue with
  | cons a rest => simp [Poll.isReady]
  | nil => cases c.terminal <;> simp [Poll.isReady]

theorem poll_of_pending {w : W} (pending : (c.poll w).2.isReady = false) :
    c.poll w = ({ c with waiter := some w }, .pending) := by
  obtain ⟨empty, live⟩ := (isReady_poll c w).mp pending
  simp [poll, empty, live]

theorem waiter_poll_of_ready {w : W} (ready : (c.poll w).2.isReady = true) : (c.poll w).1.waiter = c.waiter := by
  unfold poll at ready ⊢
  cases hq : c.queue with
  | cons a rest => rfl
  | nil => cases ht : c.terminal <;> simp_all [Poll.isReady]

namespace Session

def woken (x : Session α ε W) : Act α ε W → List W
  | .push a => (x.channel.push a).2.2
  | .close reason => (x.channel.terminate (ended (some reason))).2.2
  | _ => []

def wakes (x : Session α ε W) (acts : List (Act α ε W)) : List W := gather step woken x acts

variable {x : Session α ε W} {acts : List (Act α ε W)} {a : Act α ε W} {w : W}

/-! ## one step -/

/-- All that a look can do. -/
inductive Looked (x : Session α ε W) (a : Act α ε W) (w : W) : Prop
  /-- It finds nothing, and registers its waker. -/
  | waits (dry : Dry x.channel) (pending : (x.answer a).isPending = true)
      (step : x.step a = { x with channel := { x.channel with waiter := some w } })
  /-- It finds something, and registers nobody. -/
  | served (finds : ¬ Dry x.channel) (ready : (x.answer a).isPending = false)
      (waiter : x.channel.waiter = none → (x.step a).channel.waiter = none)

theorem looked (books : Books acts x) (looks : a.waker? = some w) : Looked x a w := by
  cases found : (x.channel.poll w).2.isReady with
  | false =>
    have dry := (isReady_poll x.channel w).mp found
    have nothing := poll_of_pending found
    have going : x.done = false := by
      by_contra isOver
      exact books.not_live (books.last (by simpa using isOver)).2 dry.2
    cases a <;> cases looks <;> refine .waits dry ?_ ?_ <;>
      simp [answer, step, pollItem, nextItem, nothing, going, Answer.isPending, Poll.isReady]
  | true =>
    have finds : ¬ Dry x.channel := by simp [← isReady_poll x.channel w, found]
    have waiter := waiter_poll_of_ready found
    cases a with
    | await v =>
      cases looks
      exact .served finds (by simp [answer, Answer.isPending, found]) (by simp [step, found, forget])
    | poll v =>
      cases looks
      exact .served finds (by simp [answer, Answer.isPending, found]) (by simp [step, waiter])
    | item v =>
      cases looks
      cases done : x.done with
      | true =>
        exact .served finds (by simp [answer, pollItem, nextItem, done, Answer.isPending, Poll.isReady])
          (by simp [step, pollItem, nextItem, done])
      | false =>
        obtain ⟨channel, item, -⟩ := pollItem_of_going x.channel w
        refine .served finds ?_ (by simp [step, done, channel, waiter])
        rw [answer, done, item]
        cases read : (x.channel.poll w).2 <;> simp_all [Answer.isPending, Poll.isReady, Poll.map]
    | _ => cases looks

theorem finds_iff (books : Books acts x) (looks : a.waker? = some w) :
    (x.answer a).isPending = false ↔ ¬ Dry x.channel := by
  cases looked books looks with
  | waits dry pending => simp [pending, dry]
  | served finds ready => simp [ready, finds]

/-- What a producer does wakes the consumer that waits; then none waits, and there is something to find. -/
structure Roused (x : Session α ε W) (a : Act α ε W) : Prop where
  woken : x.woken a = x.channel.waiter.toList
  waiter : (x.step a).channel.waiter = none
  finds : ¬ Dry (x.step a).channel

theorem roused (tidy : Tidy x.channel) (produces : a.produces = true) : Roused x a := by
  by_cases live : x.channel.terminal = .live
  · have unshut := isTerminated_of_live live
    cases a with
    | push a =>
      cases waits : x.channel.waiter <;> constructor <;> simp [woken, step, Channel.push, unshut, waits, Dry]
    | close reason =>
      refine ⟨by simp [woken, terminate, unshut], by simp [step, terminate, unshut], ?_⟩
      cases reason <;> simp [step, terminate, unshut, ended, Dry]
    | _ => cases produces
  · have shut := isTerminated_of_not_live live
    -- A channel that was closed has something to find, so nobody is left waiting at it.
    have nobody := tidy.none_of_not_dry fun dry => live dry.2
    cases a with
    | push a => constructor <;> simp [woken, step, Channel.push, shut, nobody, live, Dry]
    | close reason => constructor <;> simp [woken, step, terminate, shut, nobody, live, Dry]
    | _ => cases produces

theorem answer_push (x : Session α ε W) (m : α) :
    x.answer (.push m) = .handover
      (if x.channel.isTerminated then .dropped
        else .accepted (if x.channel.waiter.isSome then 0 else (x.channel.queue ++ [m]).length)) := by
  rw [answer, Channel.push]
  split
  · rfl
  · cases x.channel.waiter <;> rfl

theorem produces_or_abandon (blind : a.waker? = none) : a.produces = true ∨ a = .abandon := by
  cases a with
  | push | close => exact .inl rfl
  | abandon => exact .inr rfl
  | _ => cases blind

theorem waiter_step (books : Books acts x) (tidy : Tidy x.channel) (a : Act α ε W) :
    (x.step a).channel.waiter = if (x.answer a).isPending then a.waker? else none := by
  cases looks : a.waker? with
  | some w =>
    cases looked books looks with
    | waits dry pending step => rw [step, if_pos pending]
    | served finds ready waiter =>
      rw [ready, if_neg (by simp)]
      exact waiter (tidy.none_of_not_dry finds)
  | none =>
    rw [ite_self]
    rcases produces_or_abandon looks with produces | rfl
    · exact (roused tidy produces).waiter
    · rfl

theorem tidy_step (books : Books acts x) (tidy : Tidy x.channel) (a : Act α ε W) : Tidy (x.step a).channel := by
  intro waits
  rw [waiter_step books tidy] at waits
  obtain ⟨pending, looks⟩ : (x.answer a).isPending = true ∧ a.waker? ≠ none := by simpa using waits
  obtain ⟨w, looks⟩ := Option.ne_none_iff_exists'.mp looks
  cases looked books looks with
  | waits dry _ step =>
    rw [step]
    exact dry
  | served _ ready =>
    rw [ready] at pending
    cases pending

/-! ## many steps -/

theorem tidy_after (acts : List (Act α ε W)) : Tidy (run step {} acts).channel :=
  run_induction (P := fun x : Session α ε W => Tidy x.channel) (tidy_of_none rfl) fun early a tidy =>
    tidy_step (books_after early) tidy a

/-- **A waker is registered** exactly if the last step was a look by it that found nothing. -/
theorem registered_after (acts : List (Act α ε W)) (w : W) :
    (run step {} acts).channel.waiter = some w ↔ ∃ early look,
      acts = early ++ [look] ∧ look.waker? = some w ∧ ((run step {} early).answer look).isPending = true := by
  cases acts using List.reverseRecOn with
  | nil => simp
  | append_singleton acts a =>
    have waiter := waiter_step (books_after acts) (tidy_after acts) a
    rw [run_append, run_cons, run_nil, waiter]
    constructor
    · intro is
      obtain ⟨pending, looks⟩ : ((run step {} acts).answer a).isPending = true ∧ a.waker? = some w := by simpa using is
      exact ⟨acts, a, rfl, looks, pending⟩
    · rintro ⟨early, look, split, looks, pending⟩
      obtain ⟨rfl, last⟩ := List.append_inj' split rfl
      obtain rfl : a = look := by simpa using last
      rw [if_pos pending, looks]

theorem wakes_of_produces (tidy : Tidy x.channel) {late : List (Act α ε W)} (nonempty : late ≠ [])
    (produce : ∀ a ∈ late, a.produces = true) :
    wakes x late = x.channel.waiter.toList ∧ ¬ Dry (run step x late).channel := by
  induction late generalizing x with
  | nil => exact absurd rfl nonempty
  | cons a late ih =>
    have now := roused tidy (produce a List.mem_cons_self)
    rw [wakes, gather, now.woken, run_cons]
    by_cases last : late = []
    · subst last
      exact ⟨by simp [gather], now.finds⟩
    · obtain ⟨quiet, finds⟩ := ih (tidy_of_none now.waiter) last fun b mem => produce b (List.mem_cons_of_mem _ mem)
      rw [← wakes, quiet, now.waiter]
      exact ⟨by simp, finds⟩

/-- What the consumer of a channel and its producers can rely on, behind some steps. -/
structure Attentive (acts : List (Act α ε W)) : Prop where
  /-- A waker is registered exactly if the last step was a look by it that found nothing, … -/
  registered : ∀ w, (run step {} acts).channel.waiter = some w ↔
    ∃ early look, acts = early ++ [look] ∧ look.waker? = some w ∧ ((run step {} early).answer look).isPending = true
  /-- … and only while nothing is queued and the channel is open. -/
  idle : ∀ w, (run step {} acts).channel.waiter = some w → unread acts = [] ∧ reason? acts = none
  /-- An element is accepted at depth zero exactly if it wakes the consumer that is registered; … -/
  zero : ∀ m, (run step {} acts).answer (.push m) = .handover (.accepted 0) ↔
    ∃ w, (run step {} acts).channel.waiter = some w ∧ (run step {} acts).woken (.push m) = [w]
  /-- … without one, the depth is the length of the queue then, and nobody is woken. -/
  depth : reason? acts = none → (run step {} acts).channel.waiter = none → ∀ m,
    (run step {} acts).answer (.push m) = .handover (.accepted (unread (acts ++ [.push m])).length) ∧
      (run step {} acts).woken (.push m) = []
  /-- Behind a look that found nothing, as long as the consumer does not look and drops no future: once a look, of any
  kind and by anyone, would find something, the waker of the last look was woken. -/
  unstranded : ∀ look w, look.waker? = some w → ((run step {} acts).answer look).isPending = true →
    ∀ late, (∀ a ∈ late, a.produces = true) → ∀ again w', again.waker? = some w' →
      ((run step {} (acts ++ look :: late)).answer again).isPending = false →
        w ∈ wakes ((run step {} acts).step look) late
  /-- That is so from the first step of a producer on, and the waker is woken once. -/
  once : ∀ look w, look.waker? = some w → ((run step {} acts).answer look).isPending = true →
    ∀ late, (∀ a ∈ late, a.produces = true) → late ≠ [] →
      wakes ((run step {} acts).step look) late = [w] ∧ ∀ again w', again.waker? = some w' →
        ((run step {} (acts ++ look :: late)).answer again).isPending = false

/-- **The consumer of a channel is never stranded**, in whatever order its producers hand over elements and close it,
and through whatever kinds of looks the consumer asks, with whatever wakers. -/
theorem attentive_after (acts : List (Act α ε W)) : Attentive acts := by
  have books := books_after acts
  have tidy := tidy_after acts
  have waits : ∀ look w, look.waker? = some w → ((run step {} acts).answer look).isPending = true →
      ((run step {} acts).step look).channel.waiter = some w := fun look w looks pending => by
    rw [waiter_step books tidy, if_pos pending, looks]
  refine ⟨registered_after acts, fun w waits => ?_, fun m => ?_, fun isOpen nobody m => ?_,
    fun look w looks pending late produce again w' looks' ready => ?_,
    fun look w looks pending late produce nonempty => ?_⟩
  · obtain ⟨empty, live⟩ := tidy (by simp [waits])
    exact ⟨queue_after acts ▸ empty, by_contra fun closed => books.not_live closed live⟩
  · have woken := (roused tidy (a := .push m) rfl).woken
    rw [answer_push, woken]
    cases waits : (run step {} acts).channel.waiter with
    | none => split <;> simp
    | some w => simp [isTerminated_of_live (tidy (by simp [waits])).2]
  · have live := books.live isOpen
    rw [answer_push, (roused tidy (a := .push m) rfl).woken, nobody, isTerminated_of_live live, ← queue_after,
      run_append, run_cons, run_nil]
    exact ⟨by simp [step, push_of_live live], rfl⟩
  · have finds := (finds_iff (books_after _) looks').mp ready
    rw [run_append, run_cons] at finds
    -- Without a step of a producer in between there would still be nothing to find.
    by_cases idle : late = []
    · subst idle
      exact absurd (tidy_step books tidy look (by simp [waits look w looks pending])) finds
    · rw [(wakes_of_produces (tidy_step books tidy look) idle produce).1, waits look w looks pending]
      exact List.mem_singleton_self w
  · obtain ⟨woken, finds⟩ := wakes_of_produces (tidy_step books tidy look) nonempty produce
    rw [waits look w looks pending] at woken
    rw [← run_cons, ← run_append] at finds
    exact ⟨woken, fun again w' looks' => (finds_iff (books_after _) looks').mpr finds⟩

/-- A future that is dropped takes its waker back: the next element is queued. -/
example (w : W) (m : α) :
    (run step ({} : Session α ε W) [.await w, .abandon]).answer (.push m) = .handover (.accepted 1) := rfl

end Session

end CallLifecycle.Channel
