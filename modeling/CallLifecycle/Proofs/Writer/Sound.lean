import CallLifecycle.Writer

/-!
# Writers that are in order

* `Writer.Sound` — what holds of a writer at every moment: it keeps elements only while its sink is not
  writable and its end is still to come, and nobody waits on an empty buffer;
* `offer_cases`, `setWritable_cases`, `finish_cases`, `cancel_cases` — all that an operation can do;
* `sound_offer`, `sound_setWritable`, … — every operation leaves a writer in order.
-/

namespace CallLifecycle

def WriterEvent.elements {α ε : Type} : WriterEvent α ε → List α
  | .yielded batch => batch
  | .terminated _ => []

def WriterEvent.isEnd {α ε : Type} : WriterEvent α ε → Bool
  | .yielded _ => false
  | .terminated _ => true

def handedOver {α ε : Type} (es : List (WriterEvent α ε)) : List α := es.flatMap WriterEvent.elements

section HandedOver

variable {α ε : Type}

@[simp] theorem handedOver_nil : handedOver ([] : List (WriterEvent α ε)) = [] := rfl

@[simp] theorem handedOver_yielded (b : List α) (es : List (WriterEvent α ε)) :
    handedOver (.yielded b :: es) = b ++ handedOver es := rfl

@[simp] theorem handedOver_terminated (r : Option ε) (es : List (WriterEvent α ε)) :
    handedOver (.terminated r :: es) = handedOver es := rfl

@[simp] theorem handedOver_append (es fs : List (WriterEvent α ε)) :
    handedOver (es ++ fs) = handedOver es ++ handedOver fs := by
  simp [handedOver]

end HandedOver

def Admission.isAccepted : Admission → Bool
  | .refused _ => false
  | _ => true

namespace Writer

variable {α ε W : Type}

/-- A writer in order. -/
structure Sound (w : Writer α ε W) : Prop where
  /-- Nothing is kept from a writable sink. -/
  writable : w.writable = true → w.pending = []
  /-- Nothing is kept behind the end. -/
  terminated : w.completion.isTerminated = true → w.pending = []
  /-- An end that waits, waits for something. -/
  finishing : ∀ r, w.completion = .finishing r → w.pending ≠ []
  /-- A suspended producer waits for something. -/
  writers : w.pending = [] → w.writeWaiters = []
  /-- Who waits for the buffer to empty waits for something. -/
  drainers : w.pending = [] → w.drainWaiters = []

theorem sound_new (c : WriterConfig) : Sound (new c : Writer α ε W) :=
  ⟨fun _ => rfl, fun _ => rfl, fun _ h => by simp [new] at h, fun _ => rfl, fun _ => rfl⟩

theorem eq_active_of_isActive {c : Completion ε} (h : c.isActive = true) : c = .active := by
  cases c <;> simp_all [Completion.isActive]

/-! ## what an operation can do -/

/-- An offer is refused, passed on to a writable sink, or kept. -/
theorem offer_cases (w : Writer α ε W) (a : α) :
    (∃ why, w.offer a = (w, .refused why, [])) ∨
    (w.completion = .active ∧ w.writable = true ∧ w.offer a = (w, .done, [.yielded [a]])) ∨
    (w.completion = .active ∧ w.writable = false ∧ ∃ adm, adm.isAccepted = true ∧
      w.offer a = ({ w with pending := w.pending ++ [a] }, adm, [])) := by
  by_cases active : w.completion.isActive = true
  · have hc := eq_active_of_isActive active
    by_cases writable : w.writable = true
    · exact .inr (.inl ⟨hc, writable, by simp [offer, active, writable]⟩)
    · by_cases full : w.config.limit ≤ w.pending.length
      · exact .inl ⟨.tooManyPendingWrites, by simp [offer, active, writable, full]⟩
      · refine .inr (.inr ⟨hc, by simpa using writable, _, ?_, by simp [offer, active, writable, full]; rfl⟩)
        split <;> rfl
  · exact .inl ⟨.alreadyFinished, by simp [offer, active]⟩

/-- A sink that becomes writable is handed all that is kept, as one batch, and behind it the end if that
waits. -/
theorem setWritable_cases {w : Writer α ε W} (h : Sound w) (b : Bool) :
    (b = false ∧ w.setWritable b = ({ w with writable := false }, [], [])) ∨
    (b = true ∧ w.pending = [] ∧ w.setWritable b = ({ w with writable := true }, [], [])) ∨
    (b = true ∧ w.pending ≠ [] ∧ (∀ r, w.completion ≠ .finishing r) ∧
      w.setWritable b =
        ({ w with writable := true, pending := [], writeWaiters := [], drainWaiters := [] },
          [.yielded w.pending], w.writeWaiters ++ w.drainWaiters)) ∨
    (b = true ∧ w.pending ≠ [] ∧ ∃ r, w.completion = .finishing r ∧
      w.setWritable b =
        ({ w with writable := true, completion := .finished, pending := [], writeWaiters := [],
                  drainWaiters := [] },
          [.yielded w.pending, .terminated r], w.writeWaiters ++ w.drainWaiters)) := by
  cases b with
  | false => exact .inl ⟨rfl, rfl⟩
  | true =>
    right
    by_cases hp : w.pending = []
    · refine .inl ⟨rfl, hp, ?_⟩
      cases hc : w.completion with
      | finishing r => exact absurd hp (h.finishing r hc)
      | _ => simp [setWritable, flush, hp, hc]
    · have he : w.pending.isEmpty = false := by simpa using hp
      cases hc : w.completion with
      | finishing r => exact .inr (.inr ⟨rfl, hp, r, rfl, by simp [setWritable, flush, he, hc]⟩)
      | _ => exact .inr (.inl ⟨rfl, hp, by simp, by simp [setWritable, flush, he, hc]⟩)

/-- Only the first call to finish counts; the end waits behind what is kept. -/
theorem finish_cases {w : Writer α ε W} (h : Sound w) (r : Option ε) :
    (w.completion.isActive = false ∧ w.finish r = (w, [], [])) ∨
    (w.completion = .active ∧ w.pending = [] ∧
      w.finish r = ({ w with completion := .finished }, [.terminated r], [])) ∨
    (w.completion = .active ∧ w.pending ≠ [] ∧
      w.finish r = ({ w with completion := .finishing r }, [], [])) := by
  by_cases active : w.completion.isActive = true
  · have hc := eq_active_of_isActive active
    by_cases hp : w.pending = []
    · have hd := h.drainers hp
      exact .inr (.inl ⟨hc, hp, by cases w; simp_all [finish]⟩)
    · have he : w.pending.isEmpty = false := by simpa using hp
      exact .inr (.inr ⟨hc, hp, by simp [finish, active, he]⟩)
  · exact .inl ⟨by simpa using active, by simp [finish, active]⟩

/-- A cancel throws away what is kept, unless the end was told before. -/
theorem cancel_cases (w : Writer α ε W) (e : ε) :
    (w.completion.isTerminated = true ∧ w.cancel e = (w, [], [])) ∨
    (w.completion.isTerminated = false ∧
      w.cancel e = ({ w with completion := .cancelled, pending := [], writeWaiters := [], drainWaiters := [] },
        [.terminated (some e)], w.writeWaiters ++ w.drainWaiters)) := by
  by_cases ht : w.completion.isTerminated = true
  · exact .inl ⟨ht, by simp [cancel, ht]⟩
  · exact .inr ⟨by simpa using ht, by simp [cancel, ht]⟩

theorem pollCapacity_cases [DecidableEq W] (w : Writer α ε W) (k : W) :
    (w.pollCapacity k).1 = w ∨
    w.pending ≠ [] ∧ (w.pollCapacity k).1 = { w with writeWaiters := register k w.writeWaiters } := by
  unfold pollCapacity
  split
  · exact .inl rfl
  · split
    · exact .inl rfl
    · refine .inr ⟨fun hp => ?_, rfl⟩
      simp_all

theorem pollDrained_cases [DecidableEq W] (w : Writer α ε W) (k : W) :
    (w.pollDrained k).1 = w ∨
    w.pending ≠ [] ∧ (w.pollDrained k).1 = { w with drainWaiters := register k w.drainWaiters } := by
  unfold pollDrained
  split
  · exact .inl rfl
  · exact .inr ⟨fun hp => by simp_all, rfl⟩

/-! ## only the sink tells whether it is writable -/

@[simp] theorem writable_offer (w : Writer α ε W) (a : α) : (w.offer a).1.writable = w.writable := by
  rcases offer_cases w a with ⟨why, e⟩ | ⟨-, -, e⟩ | ⟨-, -, adm, -, e⟩ <;> rw [e]

@[simp] theorem writable_finish (w : Writer α ε W) (r : Option ε) : (w.finish r).1.writable = w.writable := by
  unfold finish
  split
  · rfl
  · split <;> rfl

@[simp] theorem writable_cancel (w : Writer α ε W) (e : ε) : (w.cancel e).1.writable = w.writable := by
  rcases cancel_cases w e with ⟨-, e⟩ | ⟨-, e⟩ <;> rw [e]

@[simp] theorem writable_pollCapacity [DecidableEq W] (w : Writer α ε W) (k : W) :
    (w.pollCapacity k).1.writable = w.writable := by
  rcases pollCapacity_cases w k with e | ⟨-, e⟩ <;> rw [e]

@[simp] theorem writable_pollDrained [DecidableEq W] (w : Writer α ε W) (k : W) :
    (w.pollDrained k).1.writable = w.writable := by
  rcases pollDrained_cases w k with e | ⟨-, e⟩ <;> rw [e]

/-! ## a look takes nothing from a writer -/

theorem pending_pollCapacity [DecidableEq W] (w : Writer α ε W) (k : W) :
    (w.pollCapacity k).1.pending = w.pending := by
  rcases pollCapacity_cases w k with e | ⟨-, e⟩ <;> rw [e]

theorem pending_pollDrained [DecidableEq W] (w : Writer α ε W) (k : W) :
    (w.pollDrained k).1.pending = w.pending := by
  rcases pollDrained_cases w k with e | ⟨-, e⟩ <;> rw [e]

/-! ## how far a writer is -/

theorem completion_offer (w : Writer α ε W) (a : α) : (w.offer a).1.completion = w.completion := by
  rcases offer_cases w a with ⟨why, e⟩ | ⟨-, -, e⟩ | ⟨-, -, adm, -, e⟩ <;> rw [e]

theorem completion_pollCapacity [DecidableEq W] (w : Writer α ε W) (k : W) :
    (w.pollCapacity k).1.completion = w.completion := by
  rcases pollCapacity_cases w k with e | ⟨-, e⟩ <;> rw [e]

theorem completion_pollDrained [DecidableEq W] (w : Writer α ε W) (k : W) :
    (w.pollDrained k).1.completion = w.completion := by
  rcases pollDrained_cases w k with e | ⟨-, e⟩ <;> rw [e]

theorem isActive_finish (w : Writer α ε W) (r : Option ε) : (w.finish r).1.completion.isActive = false := by
  unfold finish
  by_cases active : w.completion.isActive = true
  · rw [if_neg (by simp [active])]
    split <;> rfl
  · rw [if_pos (by simp [active])]
    simpa using active

theorem isActive_cancel (w : Writer α ε W) (e : ε) : (w.cancel e).1.completion.isActive = false := by
  rcases cancel_cases w e with ⟨past, eq⟩ | ⟨-, eq⟩ <;> rw [eq]
  · cases hc : w.completion <;> simp_all [Completion.isTerminated, Completion.isActive]
  · rfl

theorem isTerminated_cancel (w : Writer α ε W) (e : ε) : (w.cancel e).1.completion.isTerminated = true := by
  rcases cancel_cases w e with ⟨past, eq⟩ | ⟨-, eq⟩ <;> rw [eq]
  · exact past
  · rfl

theorem told_finish {w : Writer α ε W} (h : w.Sound) (r : Option ε)
    (past : (w.finish r).1.completion.isTerminated = true) :
    w.completion.isTerminated = true ∨ ∃ e ∈ (w.finish r).2.1, e.isEnd = true := by
  rcases finish_cases h r with ⟨-, e⟩ | ⟨-, -, e⟩ | ⟨-, -, e⟩ <;> rw [e] at past ⊢
  · exact .inl past
  · exact .inr ⟨.terminated r, by simp, rfl⟩
  · simp [Completion.isTerminated] at past

theorem told_setWritable {w : Writer α ε W} (h : w.Sound) (b : Bool)
    (past : (w.setWritable b).1.completion.isTerminated = true) :
    w.completion.isTerminated = true ∨ ∃ e ∈ (w.setWritable b).2.1, e.isEnd = true := by
  rcases setWritable_cases h b with ⟨-, e⟩ | ⟨-, -, e⟩ | ⟨-, -, -, e⟩ | ⟨-, -, r, -, e⟩ <;> rw [e] at past ⊢
  · exact .inl past
  · exact .inl past
  · exact .inl past
  · exact .inr ⟨.terminated r, by simp, rfl⟩

theorem isActive_setWritable {w : Writer α ε W} (h : w.Sound) (b : Bool)
    (active : (w.setWritable b).1.completion.isActive = true) :
    w.completion.isActive = true := by
  rcases setWritable_cases h b with ⟨-, e⟩ | ⟨-, -, e⟩ | ⟨-, -, -, e⟩ | ⟨-, -, r, -, e⟩ <;> rw [e] at active
  · exact active
  · exact active
  · exact active
  · cases active

/-! ## writers stay in order -/

theorem sound_offer {w : Writer α ε W} (h : Sound w) (a : α) : Sound (w.offer a).1 := by
  rcases offer_cases w a with ⟨why, e⟩ | ⟨-, -, e⟩ | ⟨hc, hw, adm, -, e⟩ <;> rw [e]
  · exact h
  · exact h
  · refine ⟨fun hw' => absurd hw' (by simp [hw]), fun ht => ?_, by simp, by simp, by simp⟩
    simp [hc, Completion.isTerminated] at ht

theorem sound_setWritable {w : Writer α ε W} (h : Sound w) (b : Bool) : Sound (w.setWritable b).1 := by
  rcases setWritable_cases h b with ⟨-, e⟩ | ⟨-, hp, e⟩ | ⟨-, -, hc, e⟩ | ⟨-, -, r, -, e⟩ <;> rw [e]
  · exact ⟨fun hw => by simp at hw, h.terminated, h.finishing, h.writers, h.drainers⟩
  · exact ⟨fun _ => hp, h.terminated, h.finishing, h.writers, h.drainers⟩
  · exact ⟨fun _ => rfl, fun _ => rfl, fun r hr => absurd hr (hc r), fun _ => rfl, fun _ => rfl⟩
  · exact ⟨fun _ => rfl, fun _ => rfl, fun r hr => by simp at hr, fun _ => rfl, fun _ => rfl⟩

theorem sound_finish {w : Writer α ε W} (h : Sound w) (r : Option ε) : Sound (w.finish r).1 := by
  rcases finish_cases h r with ⟨-, e⟩ | ⟨-, hp, e⟩ | ⟨-, hp, e⟩ <;> rw [e]
  · exact h
  · exact ⟨h.writable, fun _ => hp, fun r hr => by simp at hr, h.writers, h.drainers⟩
  · refine ⟨h.writable, fun ht => by simp [Completion.isTerminated] at ht, fun _ _ => hp, h.writers, h.drainers⟩

theorem sound_cancel {w : Writer α ε W} (h : Sound w) (e : ε) : Sound (w.cancel e).1 := by
  rcases cancel_cases w e with ⟨-, eq⟩ | ⟨-, eq⟩ <;> rw [eq]
  · exact h
  · exact ⟨fun _ => rfl, fun _ => rfl, fun r hr => by simp at hr, fun _ => rfl, fun _ => rfl⟩

theorem sound_pollCapacity [DecidableEq W] {w : Writer α ε W} (h : Sound w) (k : W) :
    Sound (w.pollCapacity k).1 := by
  rcases pollCapacity_cases w k with e | ⟨hp, e⟩ <;> rw [e]
  · exact h
  · exact ⟨h.writable, h.terminated, h.finishing, fun hp' => absurd hp' hp, h.drainers⟩

theorem sound_pollDrained [DecidableEq W] {w : Writer α ε W} (h : Sound w) (k : W) :
    Sound (w.pollDrained k).1 := by
  rcases pollDrained_cases w k with e | ⟨hp, e⟩ <;> rw [e]
  · exact h
  · exact ⟨h.writable, h.terminated, h.finishing, h.writers, fun hp' => absurd hp' hp⟩

/-- However a writer is used, it stays in order, and an end stays an end. -/
structure Leads (w w' : Writer α ε W) : Prop where
  sound : w.Sound → w'.Sound
  past : w.completion.isTerminated = true → w'.completion.isTerminated = true

theorem Leads.refl (w : Writer α ε W) : Leads w w := ⟨id, id⟩

theorem Leads.trans {w w' w'' : Writer α ε W} (h : Leads w w') (k : Leads w' w'') : Leads w w'' :=
  ⟨k.sound ∘ h.sound, k.past ∘ h.past⟩

theorem leads_cancel (w : Writer α ε W) (e : ε) : Leads w (w.cancel e).1 := by
  refine ⟨fun h => sound_cancel h e, fun past => ?_⟩
  rcases cancel_cases w e with ⟨-, eq⟩ | ⟨-, eq⟩ <;> rw [eq]
  · exact past
  · rfl

/-! ## what becomes of the elements -/

/-- An operation that loses nothing: what was kept and what was added was handed over, or is kept. The end
comes last, and nothing happens behind it. -/
structure Passes (w w' : Writer α ε W) (added : List α) (es : List (WriterEvent α ε)) : Prop where
  sound : w'.Sound
  sum : w.pending ++ added = handedOver es ++ w'.pending
  last : es.Pairwise fun e _ => e.isEnd = false
  told : ∀ e ∈ es, e.isEnd = true → w'.completion.isTerminated = true
  past : w.completion.isTerminated = true →
    es = [] ∧ added = [] ∧ w'.completion.isTerminated = true

theorem passes_of_same {w w' : Writer α ε W} (sound : w'.Sound) (kept : w'.pending = w.pending)
    (same : w'.completion = w.completion) : Passes w w' [] [] :=
  ⟨sound, by simp [kept], .nil, by simp, fun h => ⟨rfl, rfl, same ▸ h⟩⟩

theorem passes_offer {w : Writer α ε W} (h : Sound w) (a : α) :
    Passes w (w.offer a).1 (if (w.offer a).2.1.isAccepted then [a] else []) (w.offer a).2.2 := by
  have sound := sound_offer h a
  rcases offer_cases w a with ⟨why, e⟩ | ⟨hc, hw, e⟩ | ⟨hc, hw, adm, hadm, e⟩ <;> rw [e] at sound ⊢
  · exact passes_of_same sound rfl rfl
  · refine ⟨sound, by simp [Admission.isAccepted, h.writable hw], by simp, by simp [WriterEvent.isEnd], ?_⟩
    simp [hc, Completion.isTerminated]
  · exact ⟨sound, by simp [hadm], .nil, by simp, by simp [hc, Completion.isTerminated]⟩

theorem passes_setWritable {w : Writer α ε W} (h : Sound w) (b : Bool) :
    Passes w (w.setWritable b).1 [] (w.setWritable b).2.1 := by
  have sound := sound_setWritable h b
  rcases setWritable_cases h b with ⟨-, e⟩ | ⟨-, hp, e⟩ | ⟨-, hp, hc, e⟩ | ⟨-, hp, r, hc, e⟩ <;>
    rw [e] at sound ⊢
  · exact passes_of_same sound rfl rfl
  · exact passes_of_same sound rfl rfl
  · exact ⟨sound, by simp, by simp, by simp [WriterEvent.isEnd], fun past => absurd (h.terminated past) hp⟩
  · exact ⟨sound, by simp, by simp [WriterEvent.isEnd], by simp [Completion.isTerminated],
      fun past => absurd (h.terminated past) hp⟩

theorem passes_finish {w : Writer α ε W} (h : Sound w) (r : Option ε) :
    Passes w (w.finish r).1 [] (w.finish r).2.1 := by
  have sound := sound_finish h r
  rcases finish_cases h r with ⟨-, e⟩ | ⟨hc, hp, e⟩ | ⟨hc, hp, e⟩ <;> rw [e] at sound ⊢
  · exact passes_of_same sound rfl rfl
  · exact ⟨sound, by simp, by simp, by simp [Completion.isTerminated],
      by simp [hc, Completion.isTerminated]⟩
  · exact ⟨sound, by simp, .nil, by simp, by simp [hc, Completion.isTerminated]⟩

theorem passes_pollCapacity [DecidableEq W] {w : Writer α ε W} (h : Sound w) (k : W) :
    Passes w (w.pollCapacity k).1 [] [] := by
  have sound := sound_pollCapacity h k
  rcases pollCapacity_cases w k with e | ⟨-, e⟩ <;> rw [e] at sound ⊢ <;> exact passes_of_same sound rfl rfl

theorem passes_pollDrained [DecidableEq W] {w : Writer α ε W} (h : Sound w) (k : W) :
    Passes w (w.pollDrained k).1 [] [] := by
  have sound := sound_pollDrained h k
  rcases pollDrained_cases w k with e | ⟨-, e⟩ <;> rw [e] at sound ⊢ <;> exact passes_of_same sound rfl rfl

end Writer

end CallLifecycle
