import CallLifecycle.Proofs.Writer.Traffic

/-!
# Producers that await their writes

A producer that awaits each write before it begins the next is slowed down by a full buffer. Whether it can also be
refused depends on the marks:

* `Paced` — no write begins before all earlier ones were answered;
* `roomy_after` — behind answered writes the buffer has room, if the low mark is below the limit;
* `filling`, `filled_filling` — if the marks coincide, a row of writes that are answered at once fills the buffer;
* `suspends_iff_low_lt_limit` — **writes that are awaited are never refused for want of room** just if the marks leave
  room between the low mark and the limit.
-/

namespace CallLifecycle.Writer

variable {α β ε W : Type}

namespace Session

variable [DecidableEq W]

theorem length_step_le {x : Session β ε W} (h : x.writer.Sound) {a : Act β ε W} (other : ∀ b, a ≠ .offer b) :
    (x.step a).writer.pending.length ≤ x.writer.pending.length := by
  have accepts := accepted_step (x := x) other
  have emptied (past : (x.step a).isOver = true) : (x.step a).writer.pending = [] :=
    (sound_step h a).terminated past
  cases change_step h a with
  | silent added _ _ accepted kept =>
    obtain rfl : added = [] := by simpa [accepts] using accepted
    simp [kept]
  | batch _ _ _ _ _ _ kept => simp [kept]
  | asked _ _ _ _ _ _ kept => simp [kept]
  | ended _ _ now => simp [emptied (by simp [isOver, now, Completion.isTerminated])]
  | cut _ _ _ now => simp [emptied (by simp [isOver, now, Completion.isTerminated])]

end Session

theorem offer_of_room {w : Writer β ε W} (active : w.completion = .active) (closed : w.writable = false)
    (room : w.pending.length < w.config.limit) (b : β) : (w.offer b).1 = { w with pending := w.pending ++ [b] } := by
  rcases offer_verdict w b with ⟨ended, -⟩ | ⟨-, isOpen, -⟩ | ⟨-, -, full, -⟩ | ⟨-, -, -, e⟩
  · exact absurd active ended
  · rw [closed] at isOpen
    cases isOpen
  · omega
  · rw [e]

theorem length_le_of_look [DecidableEq W] {w : Writer β ε W} (h : w.Sound) {a : α} {k : W}
    {r : Except WriteFailure Unit} (ready : (Errand.write a).look w k = .ready r) :
    w.pending.length ≤ w.config.low := by
  rcases look_verdict ready with ⟨-, -, low⟩ | ⟨-, cancelled⟩
  · exact low
  · have none : w.pending = [] := h.terminated (by rw [cancelled]; rfl)
    simp [none]

theorem ne_full_of_look [DecidableEq W] {w : Writer β ε W} {errand : Errand α} {k : W}
    {r : Except WriteFailure Unit} (ready : errand.look w k = .ready r) : r ≠ .error .tooManyPendingWrites := by
  rintro rfl
  cases errand with
  | write a => rcases look_verdict ready with ⟨is, -⟩ | ⟨is, -⟩ <;> cases is
  | drained =>
    unfold Errand.look at ready
    cases hr : (w.pollDrained k).2 <;> simp [hr, Poll.map] at ready

namespace Traffic

/-- All writes were answered. -/
def Rested (x : Traffic α ε W) : Prop :=
  ∀ (n : Nat) (f : Future α W) (a : α), x.futures[n]? = some f → f.errand = .write a →
    ∃ r, f.standing = .resolved r

variable [DecidableEq W]

/-- Every write begins only when all earlier ones were answered. -/
def Paced (x : Traffic α ε W) (moves : List (Move α ε W)) : Prop :=
  ∀ early a late, moves = early ++ .write a :: late → (run step x early).Rested

variable {x : Traffic α ε W} {m : Move α ε W} {c : WriterConfig}

theorem paced_snoc {moves : List (Move α ε W)} :
    Paced x (moves ++ [m]) ↔ Paced x moves ∧ ∀ a, m = .write a → (run step x moves).Rested := by
  constructor
  · intro h
    refine ⟨fun early a late split => h early a (late ++ [m]) (by rw [split]; simp), ?_⟩
    rintro a rfl
    exact h moves a [] rfl
  · rintro ⟨h, last⟩ early a late split
    rcases List.eq_nil_or_concat late with rfl | ⟨late, b, rfl⟩
    · obtain ⟨rfl, is⟩ := List.append_inj' split rfl
      exact last a (List.head_eq_of_cons_eq is)
    · rw [List.concat_eq_append, ← List.cons_append, ← List.append_assoc] at split
      exact h early a late (List.append_inj' split rfl).1

/-! ## with room between the marks -/

/-- The writes are all answered behind a move because they were before, or because the last one was just now, for
which the buffer must have been emptied. -/
theorem rested_of_step (h : Attended c x) (rested : (x.step m).Rested) :
    x.Rested ∨ (∃ n k, m = .poll n k) ∧ x.session.writer.pending.length ≤ c.normalized.low := by
  by_contra no
  obtain ⟨restless, late⟩ := not_or.mp no
  refine restless fun n f a is errand => ?_
  obtain ⟨r, turned⟩ := rested n (x.turn m n f) a (future_step.mpr (.inl ⟨f, is, rfl⟩)) errand
  rcases resolved_turn turned with was | ⟨k, look, -, ready⟩
  · exact ⟨r, was⟩
  · rw [errand] at ready
    have low := length_le_of_look h.sound ready
    rw [h.config] at low
    exact absurd ⟨⟨n, k, look⟩, low⟩ late

/-- A write that begins and is answered at once leaves room behind. -/
theorem roomy_write (h : Attended c x) (room : x.session.writer.pending.length < c.normalized.limit) {a : α}
    (rested : (x.step (.write a)).Rested) :
    (x.step (.write a)).session.writer.pending.length < c.normalized.limit := by
  have begun := rested x.futures.length _ a (future_step.mpr (.inr ⟨rfl, rfl⟩)) rfl
  change (x.session.writer.offer (x.futures.length, a)).1.pending.length < _
  rcases offer_verdict x.session.writer (x.futures.length, a) with
    ⟨-, e⟩ | ⟨-, -, e⟩ | ⟨-, -, -, e⟩ | ⟨-, -, -, e⟩ <;> rw [e] at begun ⊢
  · exact room
  · exact room
  · exact room
  · -- the element is kept; at the high mark its write would not have been answered
    have below : ¬ x.session.writer.config.high ≤ x.session.writer.pending.length + 1 := by
      intro high
      obtain ⟨r, answered⟩ := begun
      simp [high, Standing.admitted] at answered
    have high := c.high_normalized_le_limit
    rw [h.config] at below
    simp only [List.length_append, List.length_singleton]
    omega

theorem roomy_step (h : Attended c x) (apart : c.normalized.low < c.normalized.limit)
    (room : x.Rested → x.session.writer.pending.length < c.normalized.limit)
    (paced : ∀ a, m = .write a → x.Rested) (rested : (x.step m).Rested) :
    (x.step m).session.writer.pending.length < c.normalized.limit := by
  -- Only a write makes the buffer grow, and it begins at rest, when there is room.
  by_cases write : ∃ a, m = .write a
  · obtain ⟨a, rfl⟩ := write
    exact roomy_write h (room (paced a rfl)) rested
  · have shrinks : (x.step m).session.writer.pending.length ≤ x.session.writer.pending.length :=
      Session.length_step_le h.sound (act_ne_offer fun a is => write ⟨a, is⟩)
    rcases rested_of_step h rested with was | ⟨-, low⟩
    · exact Nat.lt_of_le_of_lt shrinks (room was)
    · omega

/-- Behind answered writes there is room, and none of them was refused for want of it. -/
theorem roomy_after (c : WriterConfig) (runtime : Bool) (apart : c.normalized.low < c.normalized.limit)
    {moves : List (Move α ε W)} (paced : Paced (new c runtime) moves) :
    ((run step (new c runtime) moves).Rested →
      (run step (new c runtime) moves).session.writer.pending.length < c.normalized.limit) ∧
    ∀ (n : Nat) (f : Future α W), (run step (new c runtime) moves).futures[n]? = some f →
      f.standing ≠ .resolved (.error .tooManyPendingWrites) := by
  induction moves using List.reverseRecOn with
  | nil =>
    refine ⟨fun _ => ?_, fun n f is => by simp [new] at is⟩
    exact Nat.lt_of_lt_of_le Nat.zero_lt_one (Nat.le_trans c.one_le_high_normalized c.high_normalized_le_limit)
  | append_singleton moves m ih =>
    obtain ⟨paced, awaited⟩ := paced_snoc.mp paced
    obtain ⟨room, unrefused⟩ := ih paced
    have h := attended_after (ε := ε) c runtime moves
    rw [run_snoc]
    refine ⟨roomy_step h apart room awaited, fun n g is refused => ?_⟩
    rcases future_step.mp is with ⟨f, was, rfl⟩ | ⟨-, begun⟩
    · rcases resolved_turn refused with before | ⟨k, -, -, ready⟩
      · exact unrefused n f was before
      · exact ne_full_of_look ready rfl
    · cases m with
      | write a =>
        -- A write that is refused for want of room would have begun with a full buffer.
        have free := room (awaited a rfl)
        obtain rfl := Option.some.inj begun
        rcases Standing.admitted_verdict refused with ⟨is, -⟩ | ⟨-, full⟩ | ⟨is, -⟩
        · cases is
        · rw [h.config] at full
          omega
        · cases is
      | drained =>
        obtain rfl := Option.some.inj begun
        cases refused
      | _ => cases begun

/-! ## with marks that coincide -/

omit [DecidableEq W] in
/-- Writes that are awaited one after the other, while the sink is not writable. -/
def filling (a : α) (k : W) : Nat → List (Move α ε W)
  | 0 => [.setWritable false]
  | n + 1 => filling a k n ++ [.write a, .poll n k]

/-- How a writer stands whose buffer was filled with `n` elements. -/
structure Filled (c : WriterConfig) (n : Nat) (x : Traffic α ε W) : Prop where
  attended : Attended c x
  active : x.session.writer.completion = .active
  writable : x.session.writer.writable = false
  length : x.session.writer.pending.length = n
  futures : x.futures.length = n
  rested : x.Rested

theorem length_futures (x : Traffic α ε W) (m : Move α ε W) :
    (x.step m).futures.length = x.futures.length + (x.begun m).toList.length := by
  simp [step]

/-- A look changes nothing of a writer but who waits. -/
theorem writer_poll (x : Traffic α ε W) (n : Nat) (k : W) :
    (x.step (.poll n k)).session.writer.pending = x.session.writer.pending ∧
      (x.step (.poll n k)).session.writer.completion = x.session.writer.completion ∧
      (x.step (.poll n k)).session.writer.writable = x.session.writer.writable := by
  simp only [step]
  rcases act_poll_cases x n k with e | e | e <;> rw [e]
  · exact ⟨rfl, rfl, rfl⟩
  · exact ⟨pending_pollCapacity _ k, completion_pollCapacity _ k, writable_pollCapacity _ k⟩
  · exact ⟨pending_pollDrained _ k, completion_pollDrained _ k, writable_pollDrained _ k⟩

/-- A write that was admitted is answered by a look that finds the buffer at the low mark. -/
theorem resolved_of_low {f : Future α W} {a : α} (errand : f.errand = .write a) {adm : Admission}
    (standing : f.standing = .admitted adm) (going : x.session.writer.completion = .active)
    (low : x.session.writer.pending.length ≤ x.session.writer.config.low) (n : Nat) (k : W) :
    ∃ r, (x.turn (.poll n k) n f).standing = .resolved r := by
  cases adm with
  | suspended =>
    refine ⟨.ok (), ?_⟩
    rcases pollCapacity_verdict x.session.writer k with ⟨cancelled, -⟩ | ⟨-, -, e⟩ | ⟨-, more, -⟩
    · rw [going] at cancelled
      cases cancelled
    · simp [turn, errand, standing, Standing.admitted, Standing.isOpen, Errand.look, e, Standing.answered]
    · omega
  | refused why => exact ⟨_, by rw [turn_of_resolved standing, standing]; rfl⟩
  | done => exact ⟨_, by rw [turn_of_resolved standing, standing]; rfl⟩

/-- Where the low mark is as high as the limit, a buffer with room takes one more element in, and answers. -/
theorem Filled.more {n : Nat} (h : Filled c n x) (coincide : c.normalized.limit ≤ c.normalized.low)
    (room : n < c.normalized.limit) (a : α) (k : W) : Filled c (n + 1) (run step x [.write a, .poll n k]) := by
  obtain ⟨attended, active, writable, length, futures, rested⟩ := h
  have attended' := attended_step attended (.write a)
  have written : (x.step (.write a)).session.writer =
      { x.session.writer with pending := x.session.writer.pending ++ [(x.futures.length, a)] } := by
    exact offer_of_room active writable (by rwa [attended.config, length]) _
  generalize hy : x.step (.write a) = y at attended' written
  have longer : y.session.writer.pending.length = n + 1 := by simp [written, length]
  have going : y.session.writer.completion = .active := by rw [written, active]
  have low : y.session.writer.pending.length ≤ y.session.writer.config.low := by
    rw [attended'.config]
    omega
  obtain ⟨kept, same, closed⟩ := writer_poll y n k
  change Filled c (n + 1) ((x.step (.write a)).step (.poll n k))
  rw [hy]
  refine ⟨attended_step attended' _, same.trans going, ?_, by rw [kept, longer], ?_, ?_⟩
  · rw [closed, written, writable]
  · rw [length_futures, ← hy, length_futures, futures]
    rfl
  · intro i g b is errand
    obtain ⟨f, was, rfl⟩ := (future_step.mp is).resolve_right fun h => by cases h.2
    rw [← hy] at was
    rcases future_step.mp was with ⟨f, old, rfl⟩ | ⟨rfl, begun⟩
    · -- The writes that were answered stay so, and the new one is answered by the look: it finds the buffer no longer
      -- than the low mark.
      obtain ⟨r, resolved⟩ := rested i f b old errand
      have stays : x.turn (.write a) i f = f := turn_of_resolved resolved
      exact ⟨r, by rw [stays, turn_of_resolved resolved, resolved]⟩
    · obtain rfl := Option.some.inj begun
      rw [futures]
      exact resolved_of_low rfl rfl going low n k

theorem filled_filling (c : WriterConfig) (runtime : Bool) (coincide : c.normalized.limit ≤ c.normalized.low) (a : α)
    (k : W) {n : Nat} (room : n ≤ c.normalized.limit) :
    Filled c n (run step (new c runtime : Traffic α ε W) (filling a k n)) ∧
      Paced (new c runtime : Traffic α ε W) (filling a k n) := by
  induction n with
  | zero =>
    refine ⟨⟨attended_after c runtime _, rfl, rfl, rfl, rfl, fun n f b is => ?_⟩, fun early b late split => ?_⟩
    · simp [filling, run, step, new, begun] at is
    · cases early <;> simp [filling] at split
  | succ n ih =>
    obtain ⟨filled, paced⟩ := ih (Nat.le_of_succ_le room)
    refine ⟨?_, ?_⟩
    · rw [filling, run_append]
      exact filled.more coincide room a k
    · have split : filling a k (n + 1) = (filling a k n ++ [.write a]) ++ [(.poll n k : Move α ε W)] := by
        simp [filling]
      rw [split, paced_snoc, paced_snoc]
      exact ⟨⟨paced, fun _ _ => filled.rested⟩, fun _ is => by cases is⟩

/-- **Writes that are awaited, each before the next begins, are never refused for want of room just if the low mark is
below the limit.** Where the marks coincide, also because the limit alone was set low, nothing suspends a producer
before the buffer is full, and the next write is refused. -/
theorem suspends_iff_low_lt_limit [Inhabited α] [Inhabited W] (c : WriterConfig) (runtime : Bool) :
    (∀ moves : List (Move α ε W), Paced (new c runtime) moves →
      ∀ (n : Nat) (f : Future α W), (run step (new c runtime) moves).futures[n]? = some f →
        f.standing ≠ .resolved (.error .tooManyPendingWrites)) ↔
    c.normalized.low < c.normalized.limit := by
  constructor
  · intro never
    by_contra coincide
    -- Filled to the limit one write at a time, the buffer has no room for the next, although every write was answered.
    obtain ⟨filled, paced⟩ := filled_filling (ε := ε) c runtime (Nat.le_of_not_lt coincide) (default : α)
      (default : W) (Nat.le_refl c.normalized.limit)
    have paced' : Paced (new c runtime) (filling (default : α) (default : W) c.normalized.limit ++
        [(.write default : Move α ε W)]) :=
      paced_snoc.mpr ⟨paced, fun _ _ => filled.rested⟩
    generalize hx : run step (new c runtime : Traffic α ε W) (filling default default c.normalized.limit) = x at filled
    refine never _ paced' x.futures.length _ (by rw [run_snoc, hx]; exact future_step.mpr (.inr ⟨rfl, rfl⟩)) ?_
    rcases offer_verdict x.session.writer (x.futures.length, default) with
      ⟨ended, -⟩ | ⟨-, open', -⟩ | ⟨-, -, -, e⟩ | ⟨-, -, room, -⟩
    · exact absurd filled.active ended
    · rw [filled.writable] at open'
      cases open'
    · rw [e]
      rfl
    · rw [filled.attended.config, filled.length] at room
      exact absurd room (Nat.lt_irrefl _)
  · intro apart moves paced
    exact (roomy_after c runtime apart paced).2

/-- Whoever sets nothing but a limit, and that no higher than the low mark, makes the marks coincide. -/
example : ({ limit := 4 } : WriterConfig).normalized = { high := 4, low := 4, limit := 4 } := by decide

end Traffic

end CallLifecycle.Writer
