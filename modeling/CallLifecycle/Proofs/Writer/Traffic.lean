import CallLifecycle.Proofs.Writer.Session

/-!
# The futures of a writer

The producers of a writer hold futures: writes, and waits for the buffer to empty. Traffic is a session together
with these futures. It is played move by move, so that between the beginning of a write and the first look at it,
and between any two looks, everybody else may come first; wakers may be shared, and those of dropped futures stay
where they are.

* `Traffic.step` — one move; an element is marked with the number of its write;
* `Attends`, `Tends`, `tends_step` — whoever waits on a buffer stays registered at it for as long as there is
  something to wait for, or is woken;
* `Turns`, `future_step` — all that a move does to a future;
* `no_waiter_is_stranded` — **the buffer is bounded and nobody waits in vain**, whatever the marks and the moves.
-/

namespace CallLifecycle.Writer

variable {α β ε W : Type}

/-- All that becomes of an element that is offered, and why. -/
theorem offer_verdict (w : Writer β ε W) (b : β) :
    (w.completion ≠ .active ∧ w.offer b = (w, .refused .alreadyFinished, [])) ∨
    (w.completion = .active ∧ w.writable = true ∧ w.offer b = (w, .done, [.yielded [b]])) ∨
    (w.completion = .active ∧ w.writable = false ∧ w.config.limit ≤ w.pending.length ∧
      w.offer b = (w, .refused .tooManyPendingWrites, [])) ∨
    (w.completion = .active ∧ w.writable = false ∧ w.pending.length < w.config.limit ∧
      w.offer b = ({ w with pending := w.pending ++ [b] },
        if w.config.high ≤ w.pending.length + 1 then .suspended else .done, [])) := by
  by_cases active : w.completion.isActive = true
  · have hc := eq_active_of_isActive active
    cases writable : w.writable with
    | true => exact .inr (.inl ⟨hc, rfl, by simp [offer, active, writable]⟩)
    | false =>
      by_cases full : w.config.limit ≤ w.pending.length
      · exact .inr (.inr (.inl ⟨hc, rfl, full, by simp [offer, active, writable, full]⟩))
      · exact .inr (.inr (.inr ⟨hc, rfl, Nat.lt_of_not_le full, by simp [offer, active, writable, full]⟩))
  · refine .inl ⟨fun hc => active (by rw [hc]; rfl), by simp [offer, active]⟩

/-- All that a look at a suspended write can tell, and why. -/
theorem pollCapacity_verdict [DecidableEq W] (w : Writer β ε W) (k : W) :
    (w.completion = .cancelled ∧ w.pollCapacity k = (w, .ready (.error .cancelled))) ∨
    (w.completion ≠ .cancelled ∧ w.pending.length ≤ w.config.low ∧ w.pollCapacity k = (w, .ready (.ok ()))) ∨
    (w.completion ≠ .cancelled ∧ w.config.low < w.pending.length ∧
      w.pollCapacity k = ({ w with writeWaiters := register k w.writeWaiters }, .pending)) := by
  unfold pollCapacity
  by_cases cancelled : w.completion = .cancelled
  · exact .inl ⟨cancelled, by simp [cancelled, Completion.isCancelled]⟩
  · have going : w.completion.isCancelled = false := by
      cases hc : w.completion <;> simp_all [Completion.isCancelled]
    by_cases low : w.pending.length ≤ w.config.low
    · exact .inr (.inl ⟨cancelled, low, by simp [going, low]⟩)
    · exact .inr (.inr ⟨cancelled, Nat.lt_of_not_le low, by simp [going, low]⟩)

/-- All that a look whether the buffer is empty can tell, and why. -/
theorem pollDrained_verdict [DecidableEq W] {w : Writer β ε W} (h : w.Sound) (k : W) :
    (w.pending = [] ∧ w.pollDrained k = (w, .ready ())) ∨
    (w.pending ≠ [] ∧ w.pollDrained k = ({ w with drainWaiters := register k w.drainWaiters }, .pending)) := by
  unfold pollDrained
  by_cases none : w.pending = []
  · exact .inl ⟨none, by simp [none]⟩
  · have going : w.completion.isTerminated = false := by
      by_contra past
      exact none (h.terminated (by simpa using past))
    exact .inr ⟨none, by simp [none, going]⟩

/-! ## who waits, and who is woken -/

inductive Errand (α : Type) where
  /-- To bring an element in. -/
  | write (a : α)
  /-- To wait until nothing is kept. -/
  | drained

/-- A waker is registered at a writer, and what it waits for has not come yet. -/
def Attends (w : Writer β ε W) (k : W) : Errand α → Prop
  | .write _ => k ∈ w.writeWaiters ∧ w.config.low < w.pending.length
  | .drained => k ∈ w.drainWaiters ∧ w.pending ≠ []

/-- The marks stay where they are and the limit holds; and whoever waits at the writer `w`, and has to, still does so
at `w'` or was woken. -/
structure Tends (w w' : Writer β ε W) (woken : List W) : Prop where
  config : w'.config = w.config
  bounded : w.pending.length ≤ w.config.limit → w'.pending.length ≤ w.config.limit
  writers : ∀ k ∈ w.writeWaiters, w.config.low < w.pending.length →
    k ∈ woken ∨ k ∈ w'.writeWaiters ∧ w'.config.low < w'.pending.length
  drainers : ∀ k ∈ w.drainWaiters, w.pending ≠ [] → k ∈ woken ∨ k ∈ w'.drainWaiters ∧ w'.pending ≠ []

theorem Tends.attends {w w' : Writer β ε W} {woken : List W} (h : Tends w w' woken) {errand : Errand α} {k : W}
    (attends : w.Attends k errand) : k ∈ woken ∨ w'.Attends k errand := by
  cases errand with
  | write a => exact h.writers k attends.1 attends.2
  | drained => exact h.drainers k attends.1 attends.2

theorem tends_of_keeps {w w' : Writer β ε W} {woken : List W} (config : w'.config = w.config)
    (kept : w'.pending = w.pending) (writers : w.writeWaiters ⊆ w'.writeWaiters)
    (drainers : w.drainWaiters ⊆ w'.drainWaiters) : Tends w w' woken := by
  refine ⟨config, fun bound => by rwa [kept], ?_, ?_⟩
  · intro k waits more
    exact .inr ⟨writers waits, by rwa [config, kept]⟩
  · intro k waits some
    exact .inr ⟨drainers waits, by rwa [kept]⟩

theorem tends_refl (w : Writer β ε W) (woken : List W) : Tends w w woken :=
  tends_of_keeps rfl rfl (List.Subset.refl _) (List.Subset.refl _)

theorem tends_of_wakes {w w' : Writer β ε W} (config : w'.config = w.config) (emptied : w'.pending = []) :
    Tends w w' (w.writeWaiters ++ w.drainWaiters) := by
  refine ⟨config, fun _ => ?_, ?_, ?_⟩
  · rw [emptied]
    exact Nat.zero_le _
  · intro k waits _
    exact .inl (List.mem_append_left _ waits)
  · intro k waits _
    exact .inl (List.mem_append_right _ waits)

theorem tends_offer (w : Writer β ε W) (b : β) : Tends w (w.offer b).1 [] := by
  rcases offer_verdict w b with ⟨-, e⟩ | ⟨-, -, e⟩ | ⟨-, -, -, e⟩ | ⟨-, -, room, e⟩ <;> rw [e]
  · exact tends_refl w _
  · exact tends_refl w _
  · exact tends_refl w _
  · have more : (w.pending ++ [b]).length = w.pending.length + 1 := List.length_append
    refine ⟨rfl, fun _ => ?_, ?_, ?_⟩
    · rw [more]
      exact room
    · intro k waits low
      exact .inr ⟨waits, by rw [more]; exact Nat.lt_succ_of_lt low⟩
    · intro k waits _
      exact .inr ⟨waits, List.append_ne_nil_of_right_ne_nil _ (List.cons_ne_nil b [])⟩

theorem tends_setWritable {w : Writer β ε W} (h : w.Sound) (b : Bool) :
    Tends w (w.setWritable b).1 (w.setWritable b).2.2 := by
  rcases setWritable_cases h b with ⟨-, e⟩ | ⟨-, -, e⟩ | ⟨-, -, -, e⟩ | ⟨-, -, r, -, e⟩ <;> rw [e]
  · exact tends_of_keeps rfl rfl (List.Subset.refl _) (List.Subset.refl _)
  · exact tends_of_keeps rfl rfl (List.Subset.refl _) (List.Subset.refl _)
  · exact tends_of_wakes rfl rfl
  · exact tends_of_wakes rfl rfl

theorem tends_finish {w : Writer β ε W} (h : w.Sound) (r : Option ε) :
    Tends w (w.finish r).1 (w.finish r).2.2 := by
  rcases finish_cases h r with ⟨-, e⟩ | ⟨-, -, e⟩ | ⟨-, -, e⟩ <;> rw [e]
  · exact tends_refl w _
  · exact tends_of_keeps rfl rfl (List.Subset.refl _) (List.Subset.refl _)
  · exact tends_of_keeps rfl rfl (List.Subset.refl _) (List.Subset.refl _)

theorem tends_cancel (w : Writer β ε W) (e : ε) : Tends w (w.cancel e).1 (w.cancel e).2.2 := by
  rcases cancel_cases w e with ⟨-, e⟩ | ⟨-, e⟩ <;> rw [e]
  · exact tends_refl w _
  · exact tends_of_wakes rfl rfl

section Registering

variable [DecidableEq W]

theorem subset_register (k : W) (ks : List W) : ks ⊆ register k ks := by
  unfold register
  split
  · exact List.Subset.refl _
  · exact List.subset_append_left _ _

theorem mem_register (k : W) (ks : List W) : k ∈ register k ks := by
  unfold register
  split
  · assumption
  · exact List.mem_append_right _ (List.mem_singleton_self k)

theorem tends_pollCapacity (w : Writer β ε W) (k : W) : Tends w (w.pollCapacity k).1 [] := by
  rcases pollCapacity_cases w k with e | ⟨-, e⟩ <;> rw [e]
  · exact tends_refl w _
  · exact tends_of_keeps rfl rfl (subset_register k _) (List.Subset.refl _)

theorem tends_pollDrained (w : Writer β ε W) (k : W) : Tends w (w.pollDrained k).1 [] := by
  rcases pollDrained_cases w k with e | ⟨-, e⟩ <;> rw [e]
  · exact tends_refl w _
  · exact tends_of_keeps rfl rfl (List.Subset.refl _) (subset_register k _)

/-! ## looks -/

def Errand.look (w : Writer β ε W) (k : W) : Errand α → Poll (Except WriteFailure Unit)
  | .write _ => (w.pollCapacity k).2
  | .drained => (w.pollDrained k).2.map .ok

def Errand.leave (w : Writer β ε W) (k : W) : Errand α → Writer β ε W
  | .write _ => (w.pollCapacity k).1
  | .drained => (w.pollDrained k).1

def Errand.act (k : W) : Errand α → Act β ε W
  | .write _ => .look k
  | .drained => .lookDrained k

/-- All that an answer to a look at a write can be, and why. -/
theorem look_verdict {w : Writer β ε W} {a : α} {k : W} {r : Except WriteFailure Unit}
    (ready : (Errand.write a).look w k = .ready r) :
    (r = .ok () ∧ w.completion ≠ .cancelled ∧ w.pending.length ≤ w.config.low) ∨
    (r = .error .cancelled ∧ w.completion = .cancelled) := by
  unfold Errand.look at ready
  rcases pollCapacity_verdict w k with ⟨cancelled, e⟩ | ⟨going, low, e⟩ | ⟨-, -, e⟩ <;> rw [e] at ready
  · exact .inr ⟨(Poll.ready.inj ready).symm, cancelled⟩
  · exact .inl ⟨(Poll.ready.inj ready).symm, going, low⟩
  · cases ready

/-- Who waits, and has to, would be told to wait on, with whatever waker. -/
theorem look_of_attends {w : Writer β ε W} (h : w.Sound) {errand : Errand α} {k : W} (attends : w.Attends k errand)
    (k' : W) : errand.look w k' = .pending := by
  cases errand with
  | write a =>
    obtain ⟨-, more⟩ := attends
    unfold Errand.look
    rcases pollCapacity_verdict w k' with ⟨cancelled, -⟩ | ⟨-, low, -⟩ | ⟨-, -, e⟩
    · have none : w.pending = [] := h.terminated (by rw [cancelled]; rfl)
      simp [none] at more
    · omega
    · rw [e]
  | drained =>
    obtain ⟨-, some⟩ := attends
    unfold Errand.look
    rcases pollDrained_verdict h k' with ⟨none, -⟩ | ⟨-, e⟩
    · exact absurd none some
    · rw [e]
      rfl

theorem attends_of_look {w : Writer β ε W} (h : w.Sound) {errand : Errand α} {k : W}
    (waits : errand.look w k = .pending) : (errand.leave w k).Attends k errand := by
  cases errand with
  | write a =>
    unfold Errand.look at waits
    unfold Errand.leave
    rcases pollCapacity_verdict w k with ⟨-, e⟩ | ⟨-, -, e⟩ | ⟨-, more, e⟩ <;> rw [e] at waits ⊢
    · cases waits
    · cases waits
    · exact ⟨mem_register k _, more⟩
  | drained =>
    unfold Errand.look at waits
    unfold Errand.leave
    rcases pollDrained_verdict h k with ⟨-, e⟩ | ⟨some, e⟩ <;> rw [e] at waits ⊢
    · cases waits
    · exact ⟨mem_register k _, some⟩

end Registering

namespace Session

def woken (x : Session β ε W) : Act β ε W → List W
  | .setWritable b => (x.writer.setWritable b).2.2
  | .finish r => (x.writer.finish r).2.2
  | a => match x.canceling a with
    | some e => (x.writer.cancel e).2.2
    | none => []

variable [DecidableEq W]

/-- Whoever waits when a step is taken waits on, or is woken by it. -/
theorem tends_step {x : Session β ε W} (h : x.writer.Sound) (a : Act β ε W) :
    Tends x.writer (x.step a).writer (x.woken a) := by
  cases a with
  | offer b => exact tends_offer x.writer b
  | look k => exact tends_pollCapacity x.writer k
  | lookDrained k => exact tends_pollDrained x.writer k
  | abandon => exact tends_refl x.writer _
  | setWritable b => exact tends_setWritable h b
  | finish r => exact tends_finish h r
  | cancel e => exact tends_cancel x.writer e
  | cancelLater e =>
    cases runtime : x.runtime with
    | true => simpa [step, woken, canceling, runtime] using tends_refl x.writer _
    | false => simpa [step, woken, canceling, runtime, took] using tends_cancel x.writer e
  | runTask n =>
    cases task : x.tasks[n]? with
    | none => simpa [step, woken, canceling, task] using tends_refl x.writer _
    | some e => simpa [step, woken, canceling, task, took] using tends_cancel x.writer e

theorem accepted_step {x : Session β ε W} {a : Act β ε W} (other : ∀ b, a ≠ .offer b) :
    (x.step a).accepted = x.accepted := by
  cases a with
  | offer b => exact absurd rfl (other b)
  | cancelLater e => simp only [step]; split <;> rfl
  | runTask n => simp only [step]; split <;> rfl
  | _ => rfl

theorem writer_look (x : Session β ε W) (errand : Errand α) (k : W) :
    (x.step (errand.act k)).writer = errand.leave x.writer k := by
  cases errand <;> rfl

end Session

/-! ## traffic -/

/-- How a future stands. -/
inductive Standing (W : Type) where
  /-- It was not looked at yet. -/
  | begun
  /-- It was told to wait, with this waker, which was woken since or not. -/
  | waiting (k : W) (woken : Bool)
  | resolved (r : Except WriteFailure Unit)
  | dropped

namespace Standing

def isOpen : Standing W → Bool
  | begun => true
  | waiting _ _ => true
  | _ => false

def admitted : Admission → Standing W
  | .refused why => .resolved (.error why)
  | .done => .resolved (.ok ())
  | .suspended => .begun

def answered (k : W) : Poll (Except WriteFailure Unit) → Standing W
  | .pending => .waiting k false
  | .ready r => .resolved r

/-- A future that is given up; it is too late for that if it has resolved. -/
def drop : Standing W → Standing W
  | resolved r => .resolved r
  | _ => .dropped

def wake [DecidableEq W] (woken : List W) : Standing W → Standing W
  | waiting k b => .waiting k (b || decide (k ∈ woken))
  | s => s

/-- All that a write can resolve to at once, and why. -/
theorem admitted_verdict {w : Writer β ε W} {b : β} {r : Except WriteFailure Unit}
    (is : admitted (w.offer b).2.1 = (resolved r : Standing W)) :
    (r = .error .alreadyFinished ∧ w.completion ≠ .active) ∨
    (r = .error .tooManyPendingWrites ∧ w.config.limit ≤ w.pending.length) ∨
    (r = .ok () ∧ w.completion = .active) := by
  rcases offer_verdict w b with ⟨ended, e⟩ | ⟨active, -, e⟩ | ⟨-, -, full, e⟩ | ⟨active, -, -, e⟩ <;> rw [e] at is
  · exact .inl ⟨(resolved.inj is).symm, ended⟩
  · exact .inr (.inr ⟨(resolved.inj is).symm, active⟩)
  · exact .inr (.inl ⟨(resolved.inj is).symm, full⟩)
  · by_cases high : w.config.high ≤ w.pending.length + 1
    · simp [high, admitted] at is
    · simp only [high, if_false, admitted, resolved.injEq] at is
      exact .inr (.inr ⟨is.symm, active⟩)

end Standing

structure Future (α W : Type) where
  errand : Errand α
  standing : Standing W

/-- What the producers, the sink and the tasks of a writer can do; futures go by their numbers. -/
inductive Move (α ε W : Type) where
  | write (a : α)
  | drained
  | poll (n : Nat) (k : W)
  | drop (n : Nat)
  | setWritable (b : Bool)
  | finish (reason : Option ε)
  | cancel (reason : ε)
  | cancelLater (reason : ε)
  | runTask (n : Nat)

/-- A session of a writer, and the futures that were made. -/
structure Traffic (α ε W : Type) where
  /-- Every element is marked with the number of its write. -/
  session : Session (Nat × α) ε W
  futures : List (Future α W) := []

namespace Traffic

def new (c : WriterConfig) (runtime : Bool) : Traffic α ε W := { session := .new c runtime }

def open? (x : Traffic α ε W) (n : Nat) : Option (Future α W) := x.futures[n]?.filter (·.standing.isOpen)

/-- What the writer notices of a move. -/
def act (x : Traffic α ε W) : Move α ε W → Act (Nat × α) ε W
  | .write a => .offer (x.futures.length, a)
  | .drained => .abandon
  | .poll n k => match x.open? n with
    | some f => f.errand.act k
    | none => .abandon
  | .drop _ => .abandon
  | .setWritable b => .setWritable b
  | .finish r => .finish r
  | .cancel e => .cancel e
  | .cancelLater e => .cancelLater e
  | .runTask n => .runTask n

def begun (x : Traffic α ε W) : Move α ε W → Option (Future α W)
  | .write a => some ⟨.write a, .admitted (x.session.writer.offer (x.futures.length, a)).2.1⟩
  | .drained => some ⟨.drained, .begun⟩
  | _ => none

variable [DecidableEq W]

/-- What a move makes of the future of a number. -/
def turn (x : Traffic α ε W) (m : Move α ε W) (n : Nat) (f : Future α W) : Future α W where
  errand := f.errand
  standing := match m with
    | .poll n' k =>
      if n' = n ∧ f.standing.isOpen then .answered k (f.errand.look x.session.writer k) else f.standing
    | .drop n' => if n' = n then f.standing.drop else f.standing
    | m => f.standing.wake (x.session.woken (x.act m))

def step (x : Traffic α ε W) (m : Move α ε W) : Traffic α ε W where
  session := x.session.step (x.act m)
  futures := x.futures.mapIdx (x.turn m) ++ (x.begun m).toList

/-! ## all that a move does to the futures -/

variable {x : Traffic α ε W} {m : Move α ε W} {n : Nat}

/-- Behind a move a future is one that it turned, or the one that it began. -/
theorem future_step {g : Future α W} :
    (x.step m).futures[n]? = some g ↔
      (∃ f, x.futures[n]? = some f ∧ g = x.turn m n f) ∨ n = x.futures.length ∧ x.begun m = some g := by
  unfold step
  rw [List.getElem?_append, List.length_mapIdx]
  by_cases old : n < x.futures.length
  · simp [old, eq_comm, Nat.ne_of_lt old]
  · have gap : n - x.futures.length = 0 ↔ n = x.futures.length := by omega
    cases x.begun m <;> simp [old, List.getElem?_singleton, gap]

omit [DecidableEq W] in
theorem act_poll {f : Future α W} (is : x.futures[n]? = some f) (isOpen : f.standing.isOpen = true) (k : W) :
    x.act (.poll n k) = f.errand.act k := by
  have found : x.open? n = some f := by simp [open?, is, isOpen]
  simp [act, found]

omit [DecidableEq W] in
theorem act_poll_cases (x : Traffic α ε W) (n : Nat) (k : W) :
    x.act (.poll n k) = .abandon ∨ x.act (.poll n k) = .look k ∨ x.act (.poll n k) = .lookDrained k := by
  simp only [act]
  cases x.open? n with
  | none => exact .inl rfl
  | some f =>
    obtain ⟨errand, standing⟩ := f
    cases errand with
    | write a => exact .inr (.inl rfl)
    | drained => exact .inr (.inr rfl)

omit [DecidableEq W] in
theorem act_ne_offer (other : ∀ a, m ≠ .write a) (b : Nat × α) : x.act m ≠ .offer b := by
  cases m with
  | write a => exact absurd rfl (other a)
  | poll n k => rcases act_poll_cases x n k with e | e | e <;> rw [e] <;> nofun
  | _ => nofun

omit [DecidableEq W] in
theorem woken_poll (x : Traffic α ε W) (n : Nat) (k : W) : x.session.woken (x.act (.poll n k)) = [] := by
  rcases act_poll_cases x n k with e | e | e <;> rw [e] <;> rfl

/-- A future waits behind a move because it was told so, or because it waited and was not woken. -/
theorem waits_turn {f : Future α W} {k : W} (waits : (x.turn m n f).standing = .waiting k false) :
    (m = .poll n k ∧ f.standing.isOpen = true ∧ f.errand.look x.session.writer k = .pending) ∨
      f.standing = .waiting k false ∧ k ∉ x.session.woken (x.act m) := by
  -- A future that waits behind being woken was not among those that were.
  have unwoken {woken : List W} (h : f.standing.wake woken = .waiting k false) :
      f.standing = .waiting k false ∧ k ∉ woken := by
    cases hs : f.standing with
    | waiting k' b =>
      simp only [hs, Standing.wake, Standing.waiting.injEq, Bool.or_eq_false_iff, decide_eq_false_iff_not] at h
      obtain ⟨rfl, rfl, unwoken⟩ := h
      exact ⟨rfl, unwoken⟩
    | _ => simp [hs, Standing.wake] at h
  cases m with
  | poll n' k' =>
    simp only [turn] at waits
    split at waits
    next looked =>
      obtain ⟨rfl, isOpen⟩ := looked
      cases look : f.errand.look x.session.writer k' with
      | pending =>
        rw [look] at waits
        cases waits
        exact .inl ⟨rfl, isOpen, look⟩
      | ready r => simp [look, Standing.answered] at waits
    next => exact .inr ⟨waits, by rw [woken_poll]; exact List.not_mem_nil⟩
  | drop n' =>
    refine .inr ⟨?_, List.not_mem_nil⟩
    simp only [turn] at waits
    split at waits
    · cases hs : f.standing <;> simp [hs, Standing.drop] at waits
    · exact waits
  | _ => exact .inr (unwoken waits)

/-- A future has resolved behind a move because it had before, or because a look said so. -/
theorem resolved_turn {f : Future α W} {r : Except WriteFailure Unit} (is : (x.turn m n f).standing = .resolved r) :
    f.standing = .resolved r ∨
      ∃ k, m = .poll n k ∧ f.standing.isOpen = true ∧ f.errand.look x.session.writer k = .ready r := by
  have waking {woken : List W} (h : f.standing.wake woken = .resolved r) : f.standing = .resolved r := by
    cases hs : f.standing <;> simp_all [Standing.wake]
  cases m with
  | poll n' k' =>
    simp only [turn] at is
    split at is
    next looked =>
      obtain ⟨rfl, isOpen⟩ := looked
      cases look : f.errand.look x.session.writer k' with
      | pending => simp [look, Standing.answered] at is
      | ready r' =>
        rw [look] at is
        cases is
        exact .inr ⟨k', rfl, isOpen, look⟩
    next => exact .inl is
  | drop n' =>
    left
    simp only [turn] at is
    split at is
    · cases hs : f.standing <;> simp_all [Standing.drop]
    · exact is
  | _ => exact .inl (waking is)

theorem turn_of_resolved {f : Future α W} {r : Except WriteFailure Unit} (is : f.standing = .resolved r) :
    x.turn m n f = f := by
  cases f with
  | mk errand standing =>
    obtain rfl : standing = .resolved r := is
    cases m <;> simp [turn, Standing.isOpen, Standing.drop, Standing.wake]

/-! ## nobody waits in vain -/

/-- What holds of traffic at every moment: its writer is in order and within its limit, and every future that waits
unwoken has to, and is registered. -/
structure Attended (c : WriterConfig) (x : Traffic α ε W) : Prop where
  sound : x.session.writer.Sound
  config : x.session.writer.config = c.normalized
  bounded : x.session.writer.pending.length ≤ c.normalized.limit
  attends : ∀ (n : Nat) (f : Future α W) (k : W), x.futures[n]? = some f →
    f.standing = .waiting k false → x.session.writer.Attends k f.errand

omit [DecidableEq W] in
theorem attended_new (c : WriterConfig) (runtime : Bool) : Attended c (new c runtime : Traffic α ε W) :=
  ⟨sound_new c, rfl, Nat.zero_le _, fun n f k h => by simp [new] at h⟩

theorem attended_step {c : WriterConfig} (h : Attended c x) (m : Move α ε W) : Attended c (x.step m) := by
  have tends := Session.tends_step h.sound (x.act m)
  refine ⟨Session.sound_step h.sound (x.act m), tends.config.trans h.config, ?_, ?_⟩
  · have bounded := tends.bounded
    rw [h.config] at bounded
    exact bounded h.bounded
  · intro n g k is waits
    rcases future_step.mp is with ⟨f, was, rfl⟩ | ⟨-, begun⟩
    · rcases waits_turn waits with ⟨rfl, isOpen, look⟩ | ⟨waited, unwoken⟩
      · have attends := attends_of_look h.sound look
        rw [← Session.writer_look, ← act_poll was isOpen] at attends
        exact attends
      · exact (tends.attends (h.attends n f k was waited)).resolve_left unwoken
    · -- a future that has just begun was not told to wait yet
      cases m <;> simp [Traffic.begun] at begun <;> subst begun
      · revert waits
        cases (x.session.writer.offer (x.futures.length, _)).2.1 <;> simp [Standing.admitted]
      · cases waits

theorem attended_after (c : WriterConfig) (runtime : Bool) (moves : List (Move α ε W)) :
    Attended c (run step (new c runtime) moves) :=
  run_induction (attended_new c runtime) fun _ m attended => attended_step attended m

/-- What a producer and the owner of the sink can rely on, of a writer that was made with the marks `c`. -/
structure Regular (c : WriterConfig) (x : Traffic α ε W) : Prop where
  /-- No more is kept than the limit allows. -/
  bounded : x.session.writer.pending.length ≤ c.normalized.limit
  /-- Nothing is kept from a writable sink. -/
  writable : x.session.writer.writable = true → x.session.writer.pending = []
  /-- Nothing is kept behind the end. -/
  terminated : x.session.writer.completion.isTerminated = true → x.session.writer.pending = []
  /-- An end that waits, waits for something. -/
  finishing : ∀ r, x.session.writer.completion = .finishing r → x.session.writer.pending ≠ []
  /-- A future that was told to wait, and not woken since, would be told to wait again, with whatever waker. -/
  unstranded : ∀ (n : Nat) (f : Future α W) (k : W), x.futures[n]? = some f →
    f.standing = .waiting k false → ∀ k', f.errand.look x.session.writer k' = .pending

/-- **The buffer is bounded and nobody waits in vain.** Whatever the marks of a writer, and whatever its producers, its
sink and its tasks do: no more is kept than the limit allows, nothing is kept from a writable sink or behind the end,
an end that waits has something to wait for, and a future that waits unwoken would be told to wait again. -/
theorem no_waiter_is_stranded (c : WriterConfig) (runtime : Bool) (moves : List (Move α ε W)) :
    Regular c (run step (new c runtime) moves) := by
  obtain ⟨sound, -, bounded, attends⟩ := attended_after c runtime moves
  refine ⟨bounded, sound.writable, sound.terminated, sound.finishing, ?_⟩
  intro n f k is waits k'
  exact look_of_attends sound (attends n f k is waits) k'

end Traffic

end CallLifecycle.Writer
