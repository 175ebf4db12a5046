import CallLifecycle.Proofs.Runs
import CallLifecycle.Proofs.Writer.Sound
import Mathlib.Data.List.Induction

/-!
# What the sink of a writer is told

A session plays the producers, the sink and the tasks of one writer, in any order of steps, and remembers
which elements were accepted and what the sink was told.

* `Session.step` — one step of a session;
* `Change` — all that a step can do;
* `told_accounts_for_accepted` — **the account of a session**: what was told is a row of batches with at
  most one end behind it, and together with what is still kept, or was thrown away by a cancel, it is just
  what was accepted.
-/

namespace CallLifecycle.Writer

inductive Act (α ε W : Type) where
  /-- A write begins: its element is offered. If that suspends it, looks follow. -/
  | offer (a : α)
  /-- A suspended write is looked at. -/
  | look (k : W)
  /-- A wait for the buffer to empty is looked at. -/
  | lookDrained (k : W)
  /-- A suspended write is dropped; the writer does not notice. -/
  | abandon
  | setWritable (b : Bool)
  /-- The writer is to end, well or with an error. -/
  | finish (reason : Option ε)
  | cancel (reason : ε)
  /-- The writer is to be cancelled by a task, if there can be one. -/
  | cancelLater (reason : ε)
  /-- A task runs, in no particular order. -/
  | runTask (n : Nat)

/-- A writer in use. -/
structure Session (α ε W : Type) where
  writer : Writer α ε W
  /-- Tasks can be started. -/
  runtime : Bool
  /-- The reasons that the tasks are to cancel the writer with. -/
  tasks : List ε := []
  /-- What the sink was told. -/
  told : List (WriterEvent α ε) := []
  /-- The elements that were accepted. -/
  accepted : List α := []

def Act.finishing {α ε W : Type} : Act α ε W → Option (Option ε)
  | .finish r => some r
  | _ => none

namespace Session

variable {α ε W : Type}

def new (c : WriterConfig) (runtime : Bool) : Session α ε W := { writer := .new c, runtime }

def isOver (x : Session α ε W) : Bool := x.writer.completion.isTerminated

def took (x : Session α ε W) (r : Writer α ε W × List (WriterEvent α ε) × List W) : Session α ε W :=
  { x with writer := r.1, told := x.told ++ r.2.1 }

variable [DecidableEq W]

def step (x : Session α ε W) : Act α ε W → Session α ε W
  | .offer a =>
    let r := x.writer.offer a
    { x with writer := r.1, told := x.told ++ r.2.2,
             accepted := x.accepted ++ if r.2.1.isAccepted then [a] else [] }
  | .look k => { x with writer := (x.writer.pollCapacity k).1 }
  | .lookDrained k => { x with writer := (x.writer.pollDrained k).1 }
  | .abandon => x
  | .setWritable b => x.took (x.writer.setWritable b)
  | .finish r => x.took (x.writer.finish r)
  | .cancel e => x.took (x.writer.cancel e)
  | .cancelLater e =>
    if x.runtime then { x with tasks := x.tasks ++ [e] } else x.took (x.writer.cancel e)
  | .runTask n =>
    match x.tasks[n]? with
    | some e => { x with tasks := x.tasks.eraseIdx n }.took (x.writer.cancel e)
    | none => x

omit [DecidableEq W] in
/-- The reason of a step that cancels the writer there and then. -/
def canceling (x : Session α ε W) : Act α ε W → Option ε
  | .cancel e => some e
  | .cancelLater e => if x.runtime then none else some e
  | .runTask n => x.tasks[n]?
  | _ => none

/-- What was told: batches, none of them empty, and behind them the end, if it came. -/
def HasTold (x : Session α ε W) (batches : List (List α)) (ending : Option (Option ε)) : Prop :=
  x.told = batches.map .yielded ++ (ending.map .terminated).toList ∧ ∀ b ∈ batches, b ≠ []

/-! ## all that a step can do -/

/-- What a step `a` does that turns the session `x` into `y`. -/
inductive Change (x : Session α ε W) (a : Act α ε W) (y : Session α ε W) : Prop
  /-- The sink is told nothing, and at most an element more is kept. -/
  | silent (added : List α) (same : y.writer.completion = x.writer.completion) (told : y.told = x.told)
      (accepted : y.accepted = x.accepted ++ added) (kept : y.writer.pending = x.writer.pending ++ added)
      (open' : x.isOver = true → added = []) (uncut : x.canceling a = none ∨ x.isOver = true)
      (unasked : a.finishing = none ∨ x.writer.completion ≠ .active)
  /-- The sink is handed all that was kept, or what has just come. -/
  | batch (added : List α) (same : y.writer.completion = x.writer.completion) (going : x.isOver = false)
      (some : x.writer.pending ++ added ≠ [])
      (told : y.told = x.told ++ [.yielded (x.writer.pending ++ added)])
      (accepted : y.accepted = x.accepted ++ added) (kept : y.writer.pending = [])
      (uncut : x.canceling a = none) (unasked : a.finishing = none)
  /-- The end is to come behind what is kept. -/
  | asked (r : Option ε) (ask : a.finishing = some r) (before : x.writer.completion = .active)
      (now : y.writer.completion = .finishing r) (told : y.told = x.told) (accepted : y.accepted = x.accepted)
      (kept : y.writer.pending = x.writer.pending) (uncut : x.canceling a = none)
  /-- The end comes, behind all that was kept. -/
  | ended (r : Option ε) (why : a.finishing = some r ∧ x.writer.completion = .active ∧ x.writer.pending = [] ∨
        a.finishing = none ∧ x.writer.completion = .finishing r ∧ x.writer.pending ≠ [])
      (now : y.writer.completion = .finished)
      (told : y.told = x.told ++ (if x.writer.pending = [] then [] else [.yielded x.writer.pending]) ++
        [.terminated r])
      (accepted : y.accepted = x.accepted) (uncut : x.canceling a = none)
  /-- The end comes, instead of all that was kept. -/
  | cut (e : ε) (why : x.canceling a = some e) (going : x.isOver = false)
      (now : y.writer.completion = .cancelled) (told : y.told = x.told ++ [.terminated (some e)])
      (accepted : y.accepted = x.accepted)

omit [DecidableEq W] in
theorem Change.nothing {x y : Session α ε W} {a : Act α ε W}
    (same : y.writer.completion = x.writer.completion) (told : y.told = x.told)
    (accepted : y.accepted = x.accepted) (kept : y.writer.pending = x.writer.pending)
    (uncut : x.canceling a = none ∨ x.isOver = true)
    (unasked : a.finishing = none ∨ x.writer.completion ≠ .active) : Change x a y :=
  .silent [] same told (by simp [accepted]) (by simp [kept]) (fun _ => rfl) uncut unasked

omit [DecidableEq W] in
theorem change_cancel (x y : Session α ε W) {a : Act α ε W} {e : ε} (hc : x.canceling a = some e)
    (ha : a.finishing = none) (hw : y.writer = (x.writer.cancel e).1)
    (ht : y.told = x.told ++ (x.writer.cancel e).2.1) (hk : y.accepted = x.accepted) : Change x a y := by
  rcases cancel_cases x.writer e with ⟨past, eq⟩ | ⟨going, eq⟩ <;> rw [eq] at hw ht
  · exact .nothing (by rw [hw]) (by simpa using ht) hk (by rw [hw]) (.inr past) (.inl ha)
  · exact .cut e hc going (by rw [hw]) ht hk

theorem change_step {x : Session α ε W} (h : x.writer.Sound) (a : Act α ε W) : Change x a (x.step a) := by
  cases a with
  | offer a =>
    rcases offer_cases x.writer a with ⟨why, e⟩ | ⟨hc, hw, e⟩ | ⟨hc, hw, adm, hadm, e⟩
    · exact .nothing (by simp [step, e]) (by simp [step, e]) (by simp [step, e, Admission.isAccepted])
        (by simp [step, e]) (.inl rfl) (.inl rfl)
    · have hp := h.writable hw
      exact .batch [a] (by simp [step, e]) (by simp [isOver, hc, Completion.isTerminated]) (by simp)
        (by simp [step, e, hp]) (by simp [step, e, Admission.isAccepted]) (by simp [step, e, hp]) rfl rfl
    · exact .silent [a] (by simp [step, e]) (by simp [step, e]) (by simp [step, e, hadm]) (by simp [step, e])
        (by simp [isOver, hc, Completion.isTerminated]) (.inl rfl) (.inl rfl)
  | look k =>
    rcases pollCapacity_cases x.writer k with e | ⟨-, e⟩ <;>
      exact .nothing (by simp [step, e]) rfl rfl (by simp [step, e]) (.inl rfl) (.inl rfl)
  | lookDrained k =>
    rcases pollDrained_cases x.writer k with e | ⟨-, e⟩ <;>
      exact .nothing (by simp [step, e]) rfl rfl (by simp [step, e]) (.inl rfl) (.inl rfl)
  | abandon => exact .nothing rfl rfl rfl rfl (.inl rfl) (.inl rfl)
  | setWritable b =>
    rcases setWritable_cases h b with ⟨-, e⟩ | ⟨-, hp, e⟩ | ⟨-, hp, hc, e⟩ | ⟨-, hp, r, hc, e⟩
    · exact .nothing (by simp [step, took, e]) (by simp [step, took, e]) rfl (by simp [step, took, e])
        (.inl rfl) (.inl rfl)
    · exact .nothing (by simp [step, took, e]) (by simp [step, took, e]) rfl (by simp [step, took, e])
        (.inl rfl) (.inl rfl)
    · -- Something is kept, and a writer that is over keeps nothing.
      have going : x.isOver = false := by
        by_contra past
        exact hp (h.terminated (by simpa [isOver] using past))
      exact .batch [] (by simp [step, took, e]) going (by simpa using hp) (by simp [step, took, e])
        (by simp [step, took]) (by simp [step, took, e]) rfl rfl
    · exact .ended r (.inr ⟨rfl, hc, hp⟩) (by simp [step, took, e]) (by simp [step, took, e, hp]) rfl rfl
  | finish r =>
    rcases finish_cases h r with ⟨hc, e⟩ | ⟨hc, hp, e⟩ | ⟨hc, hp, e⟩
    · exact .nothing (by simp [step, took, e]) (by simp [step, took, e]) rfl (by simp [step, took, e])
        (.inl rfl) (.inr fun ha => by simp [ha, Completion.isActive] at hc)
    · exact .ended r (.inl ⟨rfl, hc, hp⟩) (by simp [step, took, e]) (by simp [step, took, e, hp]) rfl rfl
    · exact .asked r rfl hc (by simp [step, took, e]) (by simp [step, took, e]) rfl (by simp [step, took, e]) rfl
  | cancel e => exact change_cancel x _ rfl rfl rfl rfl rfl
  | cancelLater e =>
    by_cases hr : x.runtime = true
    · exact .nothing (by simp [step, hr]) (by simp [step, hr]) (by simp [step, hr]) (by simp [step, hr])
        (.inl (by simp [canceling, hr])) (.inl rfl)
    · exact change_cancel x _ (e := e) (by simp [canceling, hr]) rfl (by simp [step, took, hr])
        (by simp [step, took, hr]) (by simp [step, took, hr])
  | runTask n =>
    cases ht : x.tasks[n]? with
    | none =>
      exact .nothing (by simp [step, ht]) (by simp [step, ht]) (by simp [step, ht]) (by simp [step, ht])
        (.inl ht) (.inl rfl)
    | some e =>
      exact change_cancel x _ ht rfl (by simp [step, took, ht]) (by simp [step, took, ht])
        (by simp [step, took, ht])

theorem sound_step {x : Session α ε W} (h : x.writer.Sound) (a : Act α ε W) : (x.step a).writer.Sound := by
  cases a with
  | offer a => exact sound_offer h a
  | look k => exact sound_pollCapacity h k
  | lookDrained k => exact sound_pollDrained h k
  | abandon => exact h
  | setWritable b => exact sound_setWritable h b
  | finish r => exact sound_finish h r
  | cancel e => exact sound_cancel h e
  | cancelLater e =>
    simp only [step]
    split
    · exact h
    · exact sound_cancel h e
  | runTask n =>
    simp only [step]
    split
    · exact sound_cancel h _
    · exact h

/-! ## the account of a session -/

/-- No cancel came before the end. -/
def Uncut (x : Session α ε W) (acts : List (Act α ε W)) : Prop :=
  ∀ early a late, acts = early ++ a :: late → (run step x early).canceling a ≠ none →
    (run step x early).isOver = true

/-- How the account of a session stands that begins as `x` and takes the steps `acts`. -/
inductive Account (x : Session α ε W) (acts : List (Act α ε W)) : Prop
  /-- The end is still to come. What was handed over, and behind it what is kept, was accepted. -/
  | going (batches : List (List α)) (told : (run step x acts).HasTold batches none)
      (going : (run step x acts).isOver = false)
      (sum : batches.flatten ++ (run step x acts).writer.pending = (run step x acts).accepted)
      (uncut : Uncut x acts)
  /-- The end came behind all that was accepted, with the reason of the first call to finish. -/
  | finished (batches : List (List α)) (r : Option ε) (told : (run step x acts).HasTold batches (some r))
      (past : (run step x acts).isOver = true) (sum : batches.flatten = (run step x acts).accepted)
      (first : acts.findSome? Act.finishing = some r) (uncut : Uncut x acts)
  /-- The end came with a cancel, also if an end was asked for before, and what was kept then is lost. -/
  | cut (batches : List (List α)) (early late : List (Act α ε W)) (a : Act α ε W) (e : ε)
      (split : acts = early ++ a :: late) (before : (run step x early).isOver = false)
      (why : (run step x early).canceling a = some e) (told : (run step x acts).HasTold batches (some (some e)))
      (past : (run step x acts).isOver = true)
      (sum : batches.flatten ++ (run step x early).writer.pending = (run step x acts).accepted)

/-- What has to be known of a session besides its account: how far its writer is with an end that was asked
for. -/
structure InOrder (x : Session α ε W) (acts : List (Act α ε W)) : Prop where
  sound : (run step x acts).writer.Sound
  active : (run step x acts).writer.completion = .active → acts.findSome? Act.finishing = none
  finishing : ∀ r, (run step x acts).writer.completion = .finishing r →
    acts.findSome? Act.finishing = some r

theorem uncut_snoc {x : Session α ε W} {acts : List (Act α ε W)} {a : Act α ε W} (h : Uncut x acts)
    (ha : (run step x acts).canceling a = none ∨ (run step x acts).isOver = true) : Uncut x (acts ++ [a]) := by
  intro early b late hsplit hb
  rcases List.eq_nil_or_concat late with rfl | ⟨late, c, rfl⟩
  · obtain ⟨rfl, hab⟩ := List.append_inj' hsplit rfl
    cases hab
    exact ha.resolve_left hb
  · rw [List.concat_eq_append, ← List.cons_append, ← List.append_assoc] at hsplit
    exact h early b late (List.append_inj' hsplit rfl).1 hb

theorem inOrder_snoc {x : Session α ε W} {acts : List (Act α ε W)} (h : InOrder x acts) (a : Act α ε W) :
    InOrder x (acts ++ [a]) := by
  obtain ⟨hs, hact, hfin⟩ := h
  have change := change_step hs a
  refine ⟨by simpa using sound_step hs a, ?_, ?_⟩ <;> rw [run_snoc, List.findSome?_append]
  · -- An active writer stays active only if the step did not ask for the end.
    intro hy
    cases change with
    | silent _ same _ _ _ _ _ unasked =>
      have hx := same ▸ hy
      simpa [hact hx] using unasked.resolve_right (fun n => n hx)
    | batch _ same _ _ _ _ _ _ unasked => simp [hact (same ▸ hy), unasked]
    | asked r _ _ now => simp [now] at hy
    | ended r _ now => simp [now] at hy
    | cut e _ _ now => simp [now] at hy
  · intro r hy
    cases change with
    | silent _ same => simp [hfin r (same ▸ hy)]
    | batch _ same => simp [hfin r (same ▸ hy)]
    | asked r' ask before now =>
      rw [now] at hy
      cases hy
      simp [hact before, ask]
    | ended r _ now => simp [now] at hy
    | cut e _ _ now => simp [now] at hy

omit [DecidableEq W] in
/-- At a writer that is over a step changes nothing that the sink or the producers could see. -/
theorem Change.eq_of_isOver {x y : Session α ε W} {a : Act α ε W} (h : Change x a y)
    (past : x.isOver = true) : y.writer.completion = x.writer.completion ∧ y.told = x.told ∧
      y.accepted = x.accepted ∧ y.writer.pending = x.writer.pending := by
  cases h with
  | silent added same told accepted kept open' =>
    obtain rfl := open' past
    exact ⟨same, told, by simpa using accepted, by simpa using kept⟩
  | batch _ _ going => simp [going] at past
  | asked _ _ before => simp [isOver, before, Completion.isTerminated] at past
  | ended r why =>
    rcases why with ⟨-, h, -⟩ | ⟨-, h, -⟩ <;> simp [isOver, h, Completion.isTerminated] at past
  | cut _ _ going => simp [going] at past

theorem account_snoc {x : Session α ε W} {acts : List (Act α ε W)} (ho : InOrder x acts)
    (h : Account x acts) (a : Act α ε W) : Account x (acts ++ [a]) := by
  have change := change_step ho.sound a
  cases h with
  | going batches told going sum uncut =>
    obtain ⟨told, nonempty⟩ := told
    have still : ∀ {y : Session α ε W}, y.writer.completion = (run step x acts).writer.completion →
        y.isOver = false := fun e => by rw [isOver, e]; exact going
    cases change with
    | silent added same t acc kept _ hu =>
      refine .going batches ⟨by simp [t, told], nonempty⟩ (by simpa using still same) ?_ (uncut_snoc uncut hu)
      simp [kept, acc, ← sum]
    | batch added same _ some t acc kept hu =>
      refine .going (batches ++ [(run step x acts).writer.pending ++ added]) ⟨by simp [t, told], ?_⟩
        (by simpa using still same) ?_ (uncut_snoc uncut (.inl hu))
      · simpa [or_imp, forall_and] using ⟨nonempty, by simpa using some⟩
      · simp [kept, acc, ← sum]
    | asked r _ _ now t acc kept hu =>
      refine .going batches ⟨by simp [t, told], nonempty⟩ (by simp [isOver, now, Completion.isTerminated]) ?_
        (uncut_snoc uncut (.inl hu))
      simp [kept, acc, sum]
    | ended r why now t acc hu =>
      -- The end is told by the call to finish itself, or later for the first such call.
      have first : (acts ++ [a]).findSome? Act.finishing = some r := by
        rw [List.findSome?_append]
        rcases why with ⟨ask, hc, -⟩ | ⟨-, hc, -⟩
        · simp [ho.active hc, ask]
        · simp [ho.finishing r hc]
      have past : ((run step x acts).step a).isOver = true := by simp [isOver, now, Completion.isTerminated]
      -- What is kept goes ahead of the end as one more batch.
      by_cases hp : (run step x acts).writer.pending = []
      · refine .finished batches r ⟨by simp [t, told, hp], nonempty⟩ (by simpa using past) ?_ first
          (uncut_snoc uncut (.inl hu))
        simp [acc, ← sum, hp]
      · refine .finished (batches ++ [(run step x acts).writer.pending]) r ⟨by simp [t, told, hp], ?_⟩
          (by simpa using past) ?_ first (uncut_snoc uncut (.inl hu))
        · simpa [or_imp, forall_and] using ⟨nonempty, hp⟩
        · simp [acc, ← sum]
    | cut e why _ now t acc =>
      refine .cut batches acts [] a e rfl going why ⟨by simp [t, told], nonempty⟩
        (by simp [isOver, now, Completion.isTerminated]) ?_
      simp [acc, sum]
  | finished batches r told past sum first uncut =>
    obtain ⟨hc, ht, ha, -⟩ := change.eq_of_isOver past
    refine .finished batches r ⟨by simp [ht, told.1], told.2⟩ (by simpa [isOver, hc] using past)
      (by simp [ha, sum]) (by simp [List.findSome?_append, first]) (uncut_snoc uncut (.inr past))
  | cut batches early late b e split before why told past sum =>
    obtain ⟨hc, ht, ha, -⟩ := change.eq_of_isOver past
    exact .cut batches early (late ++ [a]) b e (by simp [split]) before why ⟨by simp [ht, told.1], told.2⟩
      (by simpa [isOver, hc] using past) (by simp [ha, sum])

/-- Behind the end, neither a call to finish nor a cancel changes anything. -/
theorem step_of_isOver {x : Session α ε W} (h : x.writer.Sound) (past : x.isOver = true) {a : Act α ε W}
    (ha : a.finishing ≠ none ∨ x.canceling a ≠ none) :
    (x.step a).writer = x.writer ∧ (x.step a).told = x.told ∧ (x.step a).accepted = x.accepted := by
  have late (e : ε) : x.writer.cancel e = (x.writer, [], []) := by
    rcases cancel_cases x.writer e with ⟨-, eq⟩ | ⟨going, -⟩
    · exact eq
    · simp [isOver, going] at past
  cases a with
  | finish r =>
    rcases finish_cases h r with ⟨-, eq⟩ | ⟨hc, -⟩ | ⟨hc, -⟩
    · simp [step, took, eq]
    · simp [isOver, hc, Completion.isTerminated] at past
    · simp [isOver, hc, Completion.isTerminated] at past
  | cancel e => simp [step, took, late]
  | cancelLater e => by_cases hr : x.runtime = true <;> simp [step, took, late, hr]
  | runTask n => cases ht : x.tasks[n]? <;> simp [step, took, late, ht]
  | _ => simp [Act.finishing, canceling] at ha

theorem inOrder_of_new (c : WriterConfig) (runtime : Bool) (acts : List (Act α ε W)) :
    InOrder (new c runtime) acts ∧ Account (new c runtime) acts := by
  induction acts using List.reverseRecOn with
  | nil =>
    refine ⟨⟨sound_new c, fun _ => rfl, fun r h => by simp [new, Writer.new] at h⟩, ?_⟩
    exact .going [] ⟨rfl, by simp⟩ rfl rfl fun early a late h => by simp at h
  | append_singleton acts a ih => exact ⟨inOrder_snoc ih.1 a, account_snoc ih.1 ih.2 a⟩

/-- **The account of a session.** Whatever the steps, the sink is told batches, none of them empty, with at
most one end behind them. The batches, and behind them what is kept or what the cancel threw away, are just
what was accepted. Once the end was told, neither a call to finish nor a cancel changes anything. -/
theorem told_accounts_for_accepted (c : WriterConfig) (runtime : Bool) (acts : List (Act α ε W)) :
    Account (new c runtime) acts ∧
    ∀ a, (run step (new c runtime) acts).isOver = true →
      (a.finishing ≠ none ∨ (run step (new c runtime) acts).canceling a ≠ none) →
      ((run step (new c runtime) acts).step a).writer = (run step (new c runtime) acts).writer ∧
      ((run step (new c runtime) acts).step a).told = (run step (new c runtime) acts).told ∧
      ((run step (new c runtime) acts).step a).accepted = (run step (new c runtime) acts).accepted := by
  obtain ⟨ho, account⟩ := inOrder_of_new (W := W) c runtime acts
  exact ⟨account, fun a past ha => step_of_isOver ho.sound past ha⟩

end Session

end CallLifecycle.Writer
