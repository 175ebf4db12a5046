import CallLifecycle.Proofs.Writer.Traffic

/-!
# What the result of a write says

A suspended write learns what became of its element only when it is looked at again. What the result then says of the
element:

* `Books` — the account of traffic: which elements were accepted, which of them were handed over, are kept, or were
  thrown away by a cancel, and how the futures of their writes stand;
* `CutAt` — the cancel that ended the traffic;
* `books_after` — the account is right behind any moves;
* `fate_of_resolved` — **a result other than a cancel is true**: a refused element is never handed over, and an element
  that was brought in was handed over, is kept, or was thrown away by a cancel behind the result. A write that resolves
  to a cancel learns only that there was one: its element was thrown away if it was still kept, and was handed over
  otherwise.
-/

namespace CallLifecycle.Writer

variable {α β ε W : Type}

namespace Session

variable {x y : Session β ε W} {a : Act β ε W}

theorem isOver_of_cancelled (cancelled : x.writer.completion = .cancelled) : x.isOver = true := by
  rw [isOver, cancelled]
  rfl

/-- What was handed over and what is kept is what was accepted, up to a cancel. -/
theorem Change.sum (h : Change x a y) (sound : y.writer.Sound) (uncut : y.writer.completion ≠ .cancelled) :
    x.writer.completion ≠ .cancelled ∧
      (handedOver x.told ++ x.writer.pending = x.accepted →
        handedOver y.told ++ y.writer.pending = y.accepted) := by
  have ended (past : y.isOver = true) : y.writer.pending = [] := sound.terminated past
  cases h with
  | silent added same told accepted kept =>
    refine ⟨same ▸ uncut, fun sum => ?_⟩
    rw [told, kept, accepted, ← sum, List.append_assoc]
  | batch added same _ _ told accepted kept =>
    refine ⟨same ▸ uncut, fun sum => ?_⟩
    rw [told, kept, accepted, ← sum]
    simp
  | asked r _ before _ told accepted kept =>
    refine ⟨by simp [before], fun sum => ?_⟩
    rw [told, kept, accepted, sum]
  | ended r why now told accepted =>
    refine ⟨by rcases why with ⟨-, h, -⟩ | ⟨-, h, -⟩ <;> simp [h], fun sum => ?_⟩
    rw [ended (by simp [isOver, now, Completion.isTerminated]), told, accepted, ← sum]
    by_cases none : x.writer.pending = [] <;> simp [none]
  | cut e _ _ now => exact absurd now uncut

/-- A writer that is cancelled was so before, or there and then. -/
theorem Change.cut_of_cancelled (h : Change x a y) (cancelled : y.writer.completion = .cancelled) :
    x.writer.completion = .cancelled ∨ x.isOver = false ∧ x.canceling a ≠ none ∧
      handedOver y.told = handedOver x.told ∧ y.accepted = x.accepted := by
  cases h with
  | silent _ same => exact .inl (same ▸ cancelled)
  | batch _ same => exact .inl (same ▸ cancelled)
  | asked _ _ _ now => rw [now] at cancelled; cases cancelled
  | ended _ _ now => rw [now] at cancelled; cases cancelled
  | cut e why going now told accepted => exact .inr ⟨going, by simp [why], by simp [told], accepted⟩

end Session

def Standing.isRefused : Standing W → Bool
  | .resolved (.error .alreadyFinished) => true
  | .resolved (.error .tooManyPendingWrites) => true
  | _ => false

theorem isRefused_offer (w : Writer β ε W) (b : β) :
    (Standing.admitted (w.offer b).2.1 : Standing W).isRefused = !(w.offer b).2.1.isAccepted := by
  rcases offer_verdict w b with ⟨-, e⟩ | ⟨-, -, e⟩ | ⟨-, -, -, e⟩ | ⟨-, -, -, e⟩ <;> rw [e]
  · rfl
  · rfl
  · rfl
  · dsimp only
    split <;> rfl

namespace Traffic

variable [DecidableEq W] {x : Traffic α ε W} {m : Move α ε W}

/-! ## the account -/

/-- The account of traffic. -/
structure Books (x : Traffic α ε W) : Prop where
  sound : x.session.writer.Sound
  /-- The elements that were accepted carry the numbers of writes, -/
  marked : ∀ p ∈ x.session.accepted, p.1 < x.futures.length
  /-- in order. -/
  distinct : x.session.accepted.Pairwise fun p q => p.1 < q.1
  /-- The element of a write was accepted, unless the write was refused. -/
  registered : ∀ (n : Nat) (f : Future α W) (a : α), x.futures[n]? = some f → f.errand = .write a →
    ((n, a) ∈ x.session.accepted ↔ f.standing.isRefused = false)
  /-- A write resolves to a cancel only behind one. -/
  excused : ∀ (n : Nat) (f : Future α W) (a : α), x.futures[n]? = some f → f.errand = .write a →
    f.standing = .resolved (.error .cancelled) → x.session.writer.completion = .cancelled
  /-- Up to a cancel, what was accepted was handed over or is kept. -/
  sum : x.session.writer.completion ≠ .cancelled →
    handedOver x.session.told ++ x.session.writer.pending = x.session.accepted

theorem accepted_write (x : Traffic α ε W) (a : α) : (x.step (.write a)).session.accepted = x.session.accepted ++
    if (x.session.writer.offer (x.futures.length, a)).2.1.isAccepted then [(x.futures.length, a)] else [] := rfl

theorem accepted_cases (x : Traffic α ε W) (m : Move α ε W) :
    (x.step m).session.accepted = x.session.accepted ∨
      ∃ a, m = .write a ∧ (x.step m).session.accepted = x.session.accepted ++ [(x.futures.length, a)] := by
  by_cases write : ∃ a, m = .write a
  · obtain ⟨a, rfl⟩ := write
    rw [accepted_write]
    cases (x.session.writer.offer (x.futures.length, a)).2.1.isAccepted with
    | false => exact .inl (List.append_nil _)
    | true => exact .inr ⟨a, rfl, rfl⟩
  · exact .inl (Session.accepted_step (act_ne_offer fun a is => write ⟨a, is⟩))

omit [DecidableEq W] in
theorem begun_write {f : Future α W} {a : α} (begun : x.begun m = some f) (errand : f.errand = .write a) :
    m = .write a ∧ f = ⟨.write a, .admitted (x.session.writer.offer (x.futures.length, a)).2.1⟩ := by
  cases m with
  | write b =>
    obtain rfl := Option.some.inj begun
    cases errand
    exact ⟨rfl, rfl⟩
  | drained =>
    obtain rfl := Option.some.inj begun
    cases errand
  | _ => cases begun

theorem isRefused_turn {n : Nat} {f : Future α W} {a : α} (errand : f.errand = .write a) :
    (x.turn m n f).standing.isRefused = f.standing.isRefused := by
  have resolved {s : Standing W} (refused : s.isRefused = true) : ∃ why, s = .resolved (.error why) := by
    cases s with
    | resolved r =>
      cases r with
      | ok u => cases refused
      | error why => exact ⟨why, rfl⟩
    | _ => cases refused
  rw [Bool.eq_iff_iff]
  constructor
  · intro refused
    obtain ⟨why, is⟩ := resolved refused
    rcases resolved_turn is with was | ⟨k, -, -, ready⟩
    · rwa [was, ← is]
    · rw [errand] at ready
      rcases look_verdict ready with ⟨is', -⟩ | ⟨is', -⟩
      · cases is'
      · rw [is, is'] at refused
        cases refused
  · intro refused
    obtain ⟨why, was⟩ := resolved refused
    rwa [turn_of_resolved was]

omit [DecidableEq W] in
theorem books_new (c : WriterConfig) (runtime : Bool) : Books (new c runtime : Traffic α ε W) where
  sound := sound_new c
  marked := by simp [new, Session.new]
  distinct := .nil
  registered n f a is := by simp [new] at is
  excused n f a is := by simp [new] at is
  sum _ := rfl

theorem mem_accepted_step {n : Nat} (old : n < x.futures.length) (m : Move α ε W) (a : α) :
    (n, a) ∈ (x.step m).session.accepted ↔ (n, a) ∈ x.session.accepted := by
  rcases accepted_cases x m with same | ⟨b, -, more⟩
  · rw [same]
  · rw [more]
    simp [Nat.ne_of_lt old]

/-- A write that resolves to a cancel at a move does so behind one. -/
theorem cancelled_of_resolved (h : Books x) {n : Nat} {g : Future α W} {a : α} (is : (x.step m).futures[n]? = some g)
    (errand : g.errand = .write a) (cancelled : g.standing = .resolved (.error .cancelled)) :
    x.session.writer.completion = .cancelled := by
  rcases future_step.mp is with ⟨f, was, rfl⟩ | ⟨rfl, begun⟩
  · change f.errand = .write a at errand
    rcases resolved_turn cancelled with before | ⟨k, -, -, ready⟩
    · exact h.excused n f a was errand before
    · rw [errand] at ready
      rcases look_verdict ready with ⟨is, -⟩ | ⟨-, is⟩
      · cases is
      · exact is
  · obtain ⟨rfl, rfl⟩ := begun_write begun errand
    rcases Standing.admitted_verdict cancelled with ⟨is, -⟩ | ⟨is, -⟩ | ⟨is, -⟩ <;> cases is

theorem books_step (h : Books x) (m : Move α ε W) : Books (x.step m) := by
  have change := Session.change_step h.sound (x.act m)
  have sound := Session.sound_step h.sound (x.act m)
  have longer : x.futures.length ≤ (x.step m).futures.length := by simp [step]
  refine
    { sound, marked := ?marked, distinct := ?distinct, registered := ?registered, excused := ?excused, sum := ?sum }
  case marked =>
    intro p mem
    rcases accepted_cases x m with same | ⟨a, rfl, more⟩
    · rw [same] at mem
      exact Nat.lt_of_lt_of_le (h.marked p mem) longer
    · rw [more, List.mem_append, List.mem_singleton] at mem
      rcases mem with mem | rfl
      · exact Nat.lt_of_lt_of_le (h.marked p mem) longer
      · simp [step, begun]
  case distinct =>
    rcases accepted_cases x m with same | ⟨a, -, more⟩
    · rw [same]
      exact h.distinct
    · rw [more, List.pairwise_append]
      exact ⟨h.distinct, List.pairwise_singleton _ _, by simpa using h.marked⟩
  case registered =>
    intro n g a is errand
    rcases future_step.mp is with ⟨f, was, rfl⟩ | ⟨rfl, begun⟩
    · -- The element of an earlier write is accepted now just if it was before, and a turn does not refuse it.
      have old := (List.getElem?_eq_some_iff.mp was).1
      rw [mem_accepted_step old, h.registered n f a was errand, isRefused_turn (f := f) errand]
    · obtain ⟨rfl, rfl⟩ := begun_write begun errand
      rw [accepted_write, isRefused_offer]
      have fresh : (x.futures.length, a) ∉ x.session.accepted := fun mem => Nat.lt_irrefl _ (h.marked _ mem)
      cases (x.session.writer.offer (x.futures.length, a)).2.1.isAccepted <;> simp [fresh]
  case excused =>
    intro n g a is errand cancelled
    have before := cancelled_of_resolved h is errand cancelled
    exact (change.eq_of_isOver (Session.isOver_of_cancelled before)).1.trans before
  case sum =>
    intro uncut
    obtain ⟨before, sum⟩ := change.sum sound uncut
    exact sum (h.sum before)

theorem Books.after (h : Books x) (moves : List (Move α ε W)) : Books (run step x moves) :=
  run_induction h fun _ m books => books_step books m

theorem books_after (c : WriterConfig) (runtime : Bool) (moves : List (Move α ε W)) :
    Books (run step (new c runtime) moves) :=
  (books_new c runtime).after moves

theorem told_after_of_isOver (h : Books x) (past : x.session.isOver = true) (moves : List (Move α ε W)) :
    (run step x moves).session.isOver = true ∧ (run step x moves).session.told = x.session.told := by
  refine run_induction (P := fun y : Traffic α ε W => y.session.isOver = true ∧ y.session.told = x.session.told)
    ⟨past, rfl⟩ ?_
  rintro early m ⟨still, told⟩
  have change := Session.change_step (h.after early).sound ((run step x early).act m)
  obtain ⟨same, silent, -⟩ := change.eq_of_isOver still
  refine ⟨?_, silent.trans told⟩
  unfold Session.isOver at still ⊢
  rwa [← same] at still

theorem resolved_after {n : Nat} {f : Future α W} {r : Except WriteFailure Unit} (is : x.futures[n]? = some f)
    (resolved : f.standing = .resolved r) (moves : List (Move α ε W)) : (run step x moves).futures[n]? = some f :=
  run_induction (P := fun y : Traffic α ε W => y.futures[n]? = some f) is fun _ _ was =>
    future_step.mpr (.inl ⟨f, was, (turn_of_resolved resolved).symm⟩)

/-! ## the cancel -/

/-- The move behind `early` is the cancel that ended the traffic. -/
def CutAt (x : Traffic α ε W) (moves early : List (Move α ε W)) : Prop :=
  ∃ m late, moves = early ++ m :: late ∧ (run step x early).session.isOver = false ∧
    (run step x early).session.canceling ((run step x early).act m) ≠ none

/-- How traffic stands that a cancel ended: what was kept then is neither handed over nor kept, and no write has
resolved well since. -/
structure Discarded (early late : Traffic α ε W) : Prop where
  sum : handedOver late.session.told ++ early.session.writer.pending = late.session.accepted
  resolved : ∀ (n : Nat) (f : Future α W) (a : α), late.futures[n]? = some f → f.errand = .write a →
    f.standing = .resolved (.ok ()) → early.futures[n]? = some f

omit [DecidableEq W] in
theorem canceling_act (h : x.session.canceling (x.act m) ≠ none) :
    (∀ a, m ≠ .write a) ∧ ∀ n k, m ≠ .poll n k := by
  refine ⟨?_, ?_⟩
  · rintro a rfl
    exact h rfl
  · rintro n k rfl
    rcases act_poll_cases x n k with e | e | e <;> rw [e] at h <;> exact h rfl

/-- From a cancel on no write resolves well. -/
theorem resolved_step (cancelled : x.session.writer.completion = .cancelled ∨ x.session.canceling (x.act m) ≠ none)
    {n : Nat} {f : Future α W} {a : α} (is : (x.step m).futures[n]? = some f) (errand : f.errand = .write a)
    (ok : f.standing = .resolved (.ok ())) : x.futures[n]? = some f := by
  rcases future_step.mp is with ⟨f, was, rfl⟩ | ⟨rfl, begun⟩
  · rcases resolved_turn ok with before | ⟨k, rfl, -, ready⟩
    · rwa [turn_of_resolved before]
    · change f.errand = .write a at errand
      rw [errand] at ready
      rcases look_verdict ready with ⟨-, going, -⟩ | ⟨is, -⟩
      · exact absurd rfl ((canceling_act (cancelled.resolve_left going)).2 n k)
      · cases is
  · obtain ⟨rfl, rfl⟩ := begun_write begun errand
    have past := cancelled.resolve_right fun h => (canceling_act h).1 a rfl
    rcases Standing.admitted_verdict ok with ⟨is, -⟩ | ⟨is, -⟩ | ⟨-, active⟩
    · cases is
    · cases is
    · rw [past] at active
      cases active

/-- Traffic that is cancelled was so by one of its moves, which threw away what was kept. -/
theorem discarded_after (c : WriterConfig) (runtime : Bool) (moves : List (Move α ε W))
    (cancelled : (run step (new c runtime) moves).session.writer.completion = .cancelled) :
    ∃ early, CutAt (new c runtime) moves early ∧
      Discarded (run step (new c runtime) early) (run step (new c runtime) moves) := by
  induction moves using List.reverseRecOn with
  | nil => cases cancelled
  | append_singleton moves m ih =>
    have books := books_after (ε := ε) c runtime moves
    rw [run_snoc] at cancelled ⊢
    have change := Session.change_step books.sound ((run step (new c runtime) moves).act m)
    -- The cancel is an earlier move, or the last one.
    rcases change.cut_of_cancelled cancelled with was | ⟨going, cancels, told, accepted⟩
    · obtain ⟨early, ⟨b, late, split, cut⟩, discarded⟩ := ih was
      obtain ⟨-, told, accepted, -⟩ := change.eq_of_isOver (Session.isOver_of_cancelled was)
      refine ⟨early, ⟨b, late ++ [m], by simp [split], cut⟩, ?_, fun n f a is errand ok => ?_⟩
      · have sum := discarded.sum
        rwa [← told, ← accepted] at sum
      · exact discarded.resolved n f a (resolved_step (.inl was) is errand ok) errand ok
    · refine ⟨moves, ⟨m, [], rfl, going, cancels⟩, ?_, fun n f a is errand ok => ?_⟩
      · have sum := books.sum fun h => by simp [Session.isOver_of_cancelled h] at going
        rwa [← told, ← accepted] at sum
      · exact resolved_step (.inr cancels) is errand ok

/-! ## what results say -/

theorem accepted_of_handedOver (c : WriterConfig) (runtime : Bool) (moves : List (Move α ε W)) {p : Nat × α}
    (handed : p ∈ handedOver (run step (new c runtime) moves).session.told) :
    p ∈ (run step (new c runtime) moves).session.accepted := by
  by_cases cancelled : (run step (new c runtime) moves).session.writer.completion = .cancelled
  · obtain ⟨early, -, discarded⟩ := discarded_after c runtime moves cancelled
    rw [← discarded.sum]
    exact List.mem_append_left _ handed
  · rw [← (books_after c runtime moves).sum cancelled]
    exact List.mem_append_left _ handed

/-- **What a result says is true, but for a cancel.** The element of a write that is refused was not handed over and
never will be. The element of a write that resolves well was handed over, is kept, or was thrown away by a cancel behind
the result. A write that resolves to a cancel learns that there was one, and no more: its element was thrown away if it
was still kept then, and had been handed over otherwise. -/
theorem fate_of_resolved (c : WriterConfig) (runtime : Bool) (moves more : List (Move α ε W)) {n : Nat} {a : α}
    {r : Except WriteFailure Unit}
    (is : (run step (new c runtime) moves).futures[n]? = some ⟨.write a, .resolved r⟩) :
    (∀ why, r = .error why → why ≠ .cancelled →
      (n, a) ∉ handedOver (run step (new c runtime) (moves ++ more)).session.told) ∧
    (r = .error .cancelled → ∃ early, CutAt (new c runtime) moves early ∧
      ((n, a) ∈ handedOver (run step (new c runtime) (moves ++ more)).session.told ↔
        (n, a) ∉ (run step (new c runtime) early).session.writer.pending)) ∧
    (r = .ok () →
      (n, a) ∈ handedOver (run step (new c runtime) moves).session.told ∨
      (n, a) ∈ (run step (new c runtime) moves).session.writer.pending ∨
      ∃ early, CutAt (new c runtime) moves early ∧ (n, a) ∈ (run step (new c runtime) early).session.writer.pending ∧
        (run step (new c runtime) early).futures[n]? = some ⟨.write a, .resolved (.ok ())⟩) := by
  have books := books_after (ε := ε) c runtime moves
  have accepted := books.registered n _ a is rfl
  refine ⟨?_, ?_, ?_⟩
  · rintro why rfl refused handed
    have later := resolved_after is rfl more
    rw [← run_append] at later
    have entered := ((books_after c runtime (moves ++ more)).registered n _ a later rfl).mp
      (accepted_of_handedOver c runtime (moves ++ more) handed)
    cases why with
    | cancelled => exact refused rfl
    | alreadyFinished => cases entered
    | tooManyPendingWrites => cases entered
  · rintro rfl
    -- The elements that were accepted are apart by their numbers: what was handed over was not thrown away.
    have cancelled := books.excused n _ a is rfl rfl
    obtain ⟨early, cut, discarded⟩ := discarded_after c runtime moves cancelled
    have past := Session.isOver_of_cancelled cancelled
    have mem := accepted.mpr rfl
    have distinct := books.distinct
    rw [← discarded.sum] at mem distinct
    refine ⟨early, cut, ?_⟩
    rw [run_append, (told_after_of_isOver books past more).2]
    constructor
    · intro handed kept
      exact Nat.lt_irrefl n ((List.pairwise_append.mp distinct).2.2 _ handed _ kept)
    · intro lost
      exact (List.mem_append.mp mem).resolve_right lost
  · rintro rfl
    have mem := accepted.mpr rfl
    by_cases cancelled : (run step (new c runtime) moves).session.writer.completion = .cancelled
    · obtain ⟨early, cut, discarded⟩ := discarded_after c runtime moves cancelled
      rw [← discarded.sum] at mem
      rcases List.mem_append.mp mem with handed | kept
      · exact .inl handed
      · exact .inr (.inr ⟨early, cut, kept, discarded.resolved n _ a is rfl rfl⟩)
    · rw [← books.sum cancelled] at mem
      rcases List.mem_append.mp mem with handed | kept
      · exact .inl handed
      · exact .inr (.inl kept)

/-- A write that suspends, is flushed and then looked at behind a cancel. -/
def flushedAndCancelled : List (Move Nat String Nat) :=
  [.setWritable false, .write 10, .poll 0 7, .setWritable true, .cancel "reset", .poll 0 7]

/-- A write whose element the sink was handed resolves to a cancel. -/
theorem cancelled_though_handed_over :
    let x := new { high := 1, low := 0, limit := 2 } false
    (run step x flushedAndCancelled).futures[0]? = some ⟨.write 10, .resolved (.error .cancelled)⟩ ∧
    (0, 10) ∈ handedOver (run step x flushedAndCancelled).session.told ∧
    ∃ early, CutAt x flushedAndCancelled early ∧
      ((0, 10) ∈ handedOver (run step x (flushedAndCancelled ++ [])).session.told ↔
        (0, 10) ∉ (run step x early).session.writer.pending) :=
  ⟨rfl, by decide, (fate_of_resolved { high := 1, low := 0, limit := 2 } false flushedAndCancelled [] rfl).2.1 rfl⟩

end Traffic

end CallLifecycle.Writer
