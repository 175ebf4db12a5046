import CallLifecycle.Proofs.Server.Ledger
import CallLifecycle.Proofs.Writer.Traffic

/-!
# Who waits at a server call is woken

A handler and its clones wait at a call for room in its writer, for the writer to empty, for the cancellation and for
the answers to settings. They leave a waker at each place.

* `Beside`, `Kept` — what the helpers of the loop leave alone, and what they keep that composes;
* `Wait`, `Call.Attends` — what a waker can be left for, and that it is left and has to wait;
* `Tends` — whoever waits at a call, and has to, still does so behind some effects or was woken by them;
* `kept_tends`, `tends_onCommand`, … — no part of a turn forgets anybody;
* `tends_step`, `tends_after` — **neither does a step, nor a run**;
* `suspended?`, `attends_of_suspended` — who is told to wait is registered.
-/

namespace CallLifecycle.Server

/-- What a waker can be left for. -/
inductive Wait where
  /-- A suspended write, or a wait for the buffer to empty. -/
  | writer (errand : Writer.Errand Unit)
  /-- The cancellation; whoever reads requests waits for it as well. -/
  | cancellation
  /-- The answer to a setting. -/
  | reply

def Act.isOutside {Out W : Type} : Act Out W → Bool
  | .submit _ | .hangUp | .awaitEnd _ => true
  | _ => false

def Act.isDeed {Out W : Type} : Act Out W → Bool
  | .deed _ => true
  | _ => false

namespace Call

variable {σ Out In W : Type} {s : Setup σ Out In} {c c' c'' : Call σ Out In W}

/-! ## what the helpers of the loop keep -/

/-- The settings that were answered, those that are ordered, and the number of the next. -/
def docket (c : Call σ Out In W) : List (Nat × Except Status Unit) × List Command × Nat :=
  (c.replies, c.commands, c.nextReply)

/-- A change beside all that somebody waits for, all orders and all answers. -/
structure Beside (c c' : Call σ Out In W) : Prop where
  writer : c'.writer = c.writer
  cancellation : c'.cancellation = c.cancellation
  replyWaiters : c'.replyWaiters = c.replyWaiters
  docket : c'.docket = c.docket
  trace : c.trace <+: c'.trace

theorem beside_refl (c : Call σ Out In W) : Beside c c := ⟨rfl, rfl, rfl, rfl, List.prefix_rfl⟩

theorem Beside.trans (h : Beside c c') (k : Beside c' c'') : Beside c c'' :=
  ⟨k.writer.trans h.writer, k.cancellation.trans h.cancellation, k.replyWaiters.trans h.replyWaiters,
    k.docket.trans h.docket, h.trace.trans k.trace⟩

theorem Beside.behind (k : Beside c' c'') (h : Beside c c') : Beside c c'' := h.trans k

theorem beside_intercept (s : Setup σ Out In) (c : Call σ Out In W) (p : ResponsePart) :
    Beside c (c.intercept s p).1 := by
  unfold intercept
  split
  · exact ⟨rfl, rfl, rfl, rfl, List.prefix_append _ _⟩
  · exact beside_refl c

theorem beside_transmit (c : Call σ Out In W) (p : ResponsePart) : Beside c (c.transmit p) := by
  unfold transmit
  split
  · exact ⟨rfl, rfl, rfl, rfl, List.prefix_append _ _⟩
  · exact beside_refl c

theorem beside_release (c : Call σ Out In W) : Beside c c.release := by
  unfold release
  split
  · exact ⟨rfl, rfl, rfl, rfl, List.prefix_append _ _⟩
  · exact ⟨rfl, rfl, rfl, rfl, List.prefix_rfl⟩

theorem beside_sendEnd (s : Setup σ Out In) (c : Call σ Out In W) (status : Status) (more : Metadata) :
    Beside c (c.sendEnd s status more) := by
  unfold sendEnd
  simp only
  split
  · exact ((beside_intercept s _ _).trans ((beside_transmit _ _).trans (beside_release _))).behind
      ⟨rfl, rfl, rfl, rfl, List.prefix_rfl⟩
  · exact beside_refl c

theorem beside_endOnceDone (s : Setup σ Out In) (c : Call σ Out In W) : Beside c (c.endOnceDone s) := by
  unfold endOnceDone
  split
  · exact beside_refl c
  · split
    · exact beside_refl c
    · exact (beside_sendEnd s _ _ _).behind ⟨rfl, rfl, rfl, rfl, List.prefix_rfl⟩
    · exact (beside_sendEnd s _ _ _).behind ⟨rfl, rfl, rfl, rfl, List.prefix_rfl⟩

theorem beside_deliver (c : Call σ Out In W) (m : In) : Beside c (c.deliver m) := by
  unfold deliver
  split
  · exact ⟨rfl, rfl, rfl, rfl, List.prefix_append _ _⟩
  · exact beside_refl c

theorem beside_closeRequests (c : Call σ Out In W) (t : Terminal Status) : Beside c (c.closeRequests t) :=
  ⟨rfl, rfl, rfl, rfl, List.prefix_append _ _⟩

/-- A relation that composes, and holds behind changes beside and when the handler is let go. So do all that a call
does to speak, and to give up. -/
structure Kept (R : Call σ Out In W → Call σ Out In W → Prop) : Prop where
  trans : ∀ {c c' c''}, R c c' → R c' c'' → R c c''
  beside : ∀ {c c'}, Beside c c' → R c c'
  disengage : ∀ c, R c c.disengage

namespace Kept

variable {R : Call σ Out In W → Call σ Out In W → Prop} (h : Kept R)
include h

theorem refl (c : Call σ Out In W) : R c c := h.beside (beside_refl c)

theorem behind (k : R c' c'') (same : Beside c c') : R c c'' := h.trans (h.beside same) k

theorem cancel (s : Setup σ Out In) (c : Call σ Out In W) (e : Failure) : R c (c.cancel s e) := by
  unfold Call.cancel
  split
  · exact h.refl c
  · have givenUp : R c { c with progress := c.progress.cancel.1 }.disengage :=
      h.behind (h.disengage _) ⟨rfl, rfl, rfl, rfl, List.prefix_rfl⟩
    simp only
    split
    · exact h.trans givenUp (h.beside ((beside_sendEnd s _ _ _).behind ⟨rfl, rfl, rfl, rfl, List.prefix_rfl⟩))
    · exact h.trans givenUp (h.beside (beside_release _))

theorem sendPart (s : Setup σ Out In) (c : Call σ Out In W) (p : ResponsePart) : R c (c.sendPart s p).1 := by
  have looked := beside_intercept s c p
  unfold Call.sendPart
  simp only
  split
  · exact h.behind (h.cancel s _ _) looked
  · exact h.beside (looked.trans (beside_transmit _ _))

theorem sendHeaders (s : Setup σ Out In) (c : Call σ Out In W) : R c (c.sendHeaders s).1 := by
  unfold Call.sendHeaders
  split
  · split
    · exact h.behind (h.sendPart s _ _) ⟨rfl, rfl, rfl, rfl, List.prefix_rfl⟩
    · exact h.refl c
  · exact h.refl c

theorem sendMessage (s : Setup σ Out In) (c : Call σ Out In W) (m : Outbound Out) : R c (c.sendMessage s m).1 := by
  rcases encoded : s.codec.encode m.message c.surroundings with ⟨status | data, x⟩ <;>
    simp only [Call.sendMessage, encoded]
  · exact h.behind (h.cancel s _ _) ⟨rfl, rfl, rfl, rfl, List.prefix_rfl⟩
  · split
    · exact h.behind (h.sendPart s _ _) ⟨rfl, rfl, rfl, rfl, List.prefix_rfl⟩
    · exact h.beside ⟨rfl, rfl, rfl, rfl, List.prefix_rfl⟩
    · exact h.behind (h.cancel s _ _) ⟨rfl, rfl, rfl, rfl, List.prefix_rfl⟩

theorem sendMessages (s : Setup σ Out In) (c : Call σ Out In W) (batch : List (Outbound Out)) :
    R c (c.sendMessages s batch) := by
  -- The call is left general, since each message leaves another one behind.
  induction batch generalizing c with
  | nil => exact h.refl c
  | cons m rest ih =>
    have headed := h.sendHeaders s c
    have said := h.sendMessage s (c.sendHeaders s).1 m
    rw [Call.sendMessages]
    split
    · exact h.refl c
    · split
      · rename_i stops
        rwa [stops] at headed
      · rename_i goesOn
        rw [goesOn] at headed said
        split
        · rename_i stops
          rw [stops] at said
          exact h.trans headed said
        · rename_i goesOn
          rw [goesOn] at said
          exact h.trans headed (h.trans said (ih _))

theorem onEvent (s : Setup σ Out In) (c : Call σ Out In W) (e : HandlerEvent Out) : R c (c.onEvent s e) := by
  cases e with
  | yielded batch => exact h.sendMessages s c batch
  | drained reason => exact h.beside ((beside_endOnceDone s _).behind ⟨rfl, rfl, rfl, rfl, List.prefix_rfl⟩)
  | returned outcome => exact h.beside ((beside_endOnceDone s _).behind ⟨rfl, rfl, rfl, rfl, List.prefix_rfl⟩)

theorem onHangUp (s : Setup σ Out In) (c : Call σ Out In W) : R c (c.onHangUp s) := by
  unfold Call.onHangUp
  simp only
  split
  · exact h.beside ⟨rfl, rfl, rfl, rfl, List.prefix_rfl⟩
  · exact h.behind (h.cancel s _ _) ⟨rfl, rfl, rfl, rfl, List.prefix_rfl⟩

end Kept

/-! ## who waits -/

/-- A waker is left at a call, and what it waits for has not come yet. -/
def Attends (c : Call σ Out In W) (k : W) : Wait → Prop
  | .writer errand => c.writer.Attends k errand
  | .cancellation => k ∈ c.cancellation.waiters ∧ c.cancellation.raised = false
  | .reply => k ∈ c.replyWaiters

/-- Whoever waits at the call `c`, and has to, still does so at `c'` or was woken on the way. -/
def Tends (c c' : Call σ Out In W) : Prop :=
  ∃ es, c'.trace = c.trace ++ es ∧ ∀ k wait, c.Attends k wait → .woke k ∈ es ∨ c'.Attends k wait

theorem Tends.trans (h : Tends c c') (h' : Tends c' c'') : Tends c c'' := by
  obtain ⟨es, trace, tends⟩ := h
  obtain ⟨fs, trace', tends'⟩ := h'
  refine ⟨es ++ fs, by rw [trace', trace, List.append_assoc], fun k wait attends => ?_⟩
  rcases tends k wait attends with woken | still
  · exact .inl (List.mem_append_left _ woken)
  · exact (tends' k wait still).imp (List.mem_append_right _) id

theorem tends_of_more (writer : Writer.Tends c.writer c'.writer [])
    (waiters : c.cancellation.waiters ⊆ c'.cancellation.waiters)
    (raised : c'.cancellation.raised = c.cancellation.raised) (replyWaiters : c.replyWaiters ⊆ c'.replyWaiters)
    (trace : c.trace <+: c'.trace) : Tends c c' := by
  obtain ⟨es, trace⟩ := trace
  refine ⟨es, trace.symm, fun k wait attends => .inr ?_⟩
  cases wait with
  | writer errand => exact (writer.attends attends).resolve_left List.not_mem_nil
  | cancellation => exact ⟨waiters attends.1, raised.trans attends.2⟩
  | reply => exact replyWaiters attends

theorem tends_of_same (writer : c'.writer = c.writer) (cancellation : c'.cancellation = c.cancellation)
    (replyWaiters : c'.replyWaiters = c.replyWaiters) (trace : c.trace <+: c'.trace) : Tends c c' :=
  tends_of_more (writer ▸ Writer.tends_refl _ _) (cancellation ▸ List.Subset.refl _) (by rw [cancellation])
    (replyWaiters ▸ List.Subset.refl _) trace

theorem tends_of_beside (h : Beside c c') : Tends c c' :=
  tends_of_same h.writer h.cancellation h.replyWaiters h.trace

theorem tends_refl (c : Call σ Out In W) : Tends c c := tends_of_beside (beside_refl c)

theorem Tends.of_same (h : Tends c' c'') (writer : c'.writer = c.writer)
    (cancellation : c'.cancellation = c.cancellation) (replyWaiters : c'.replyWaiters = c.replyWaiters)
    (trace : c.trace <+: c'.trace) : Tends c c'' :=
  (tends_of_same writer cancellation replyWaiters trace).trans h

theorem tends_emit (c : Call σ Out In W) (es : List (Effect W)) : Tends c (c.emit es) :=
  tends_of_same rfl rfl rfl (List.prefix_append _ _)

/-! ## what the helpers of the loop wake -/

/-- Whoever waits at the writer is woken by what it wakes. -/
theorem tends_withWriter
    {r : Writer (Outbound Out) Failure W × List (WriterEvent (Outbound Out) Failure) × List W}
    (tends : Writer.Tends c.writer r.1 r.2.2) : Tends c (c.withWriter r) := by
  rw [withWriter_eq]
  refine ⟨_, List.append_assoc .., fun k wait attends => ?_⟩
  cases wait with
  | writer errand =>
    exact (tends.attends attends).imp (fun woken => List.mem_append_right _ (List.mem_map_of_mem woken)) id
  | cancellation => exact .inr attends
  | reply => exact .inr attends

theorem tends_raiseCancellation (c : Call σ Out In W) : Tends c c.raiseCancellation := by
  rw [raiseCancellation_eq]
  refine ⟨_, rfl, fun k wait attends => ?_⟩
  cases wait with
  | writer errand => exact .inr attends
  | cancellation =>
    -- The token was not raised before, so that raising it wakes all who wait.
    obtain ⟨waits, unraised⟩ := attends
    left
    simp only [Token.raise, unraised]
    exact List.mem_map_of_mem waits
  | reply => exact .inr attends

theorem kept_tends : Kept (Tends : Call σ Out In W → Call σ Out In W → Prop) where
  trans := Tends.trans
  beside := tends_of_beside
  disengage c := by
    unfold disengage
    split
    · have raised := (tends_raiseCancellation { c with engaged := false }).of_same rfl rfl rfl (c := c) List.prefix_rfl
      refine raised.trans ((tends_of_beside (beside_closeRequests _ (.failed callWasCancelled))).trans ?_)
      exact (tends_withWriter (Writer.tends_cancel _ _)).trans (tends_emit _ _)
    · exact tends_refl c

/-! ## no part of a turn forgets anybody -/

theorem tends_onCommand (s : Setup σ Out In) (c : Call σ Out In W) (o : Command) : Tends c (c.onCommand s o) := by
  cases o with
  | abort reason => exact kept_tends.cancel s c _
  | set id setting =>
    obtain ⟨headers, trailers, compressionDefault, e⟩ := apply_eq c setting
    simp only [onCommand, e, emit_eq]
    refine ⟨_, rfl, fun k wait attends => ?_⟩
    cases wait with
    | writer errand => exact .inr attends
    | cancellation => exact .inr attends
    | reply => exact .inl (List.mem_map_of_mem attends)

theorem tends_crash (c : Call σ Out In W) : Tends c c.crash :=
  (tends_of_beside (beside_release c)).trans (tends_of_same rfl rfl rfl (List.prefix_append _ _))

theorem tends_startHandler (s : Setup σ Out In) (now : Instant) (c : Call σ Out In W) (sound : c.writer.Sound)
    (m : Metadata) : Tends c (c.startHandler s now m) := by
  unfold startHandler
  split
  · exact tends_crash c
  · have unwritable : Writer.Tends c.writer (if c.writable then c.writer else (c.writer.setWritable false).1) [] := by
      split
      · exact Writer.tends_refl _ _
      · exact Writer.tends_setWritable sound false
    exact tends_of_more unwritable (List.Subset.refl _) rfl (List.Subset.refl _) (List.prefix_append _ _)

theorem tends_onForwarded (s : Setup σ Out In) (now : Instant) (c : Call σ Out In W) (sound : c.writer.Sound)
    (p : RequestPart) : Tends c (c.onForwarded s now p) := by
  cases p with
  | metadata m => exact tends_startHandler s now c sound m
  | message data =>
    rcases decoded : s.codec.decode data c.surroundings with ⟨status | m, x⟩ <;> simp only [onForwarded, decoded]
    · exact (kept_tends.cancel s _ _).of_same rfl rfl rfl List.prefix_rfl
    · exact (tends_of_beside (beside_deliver _ _)).of_same rfl rfl rfl List.prefix_rfl
  | close =>
    simp only [onForwarded]
    split
    · exact tends_of_beside (beside_closeRequests c _)
    · exact tends_refl c

theorem tends_onPart (s : Setup σ Out In) (now : Instant) (c : Call σ Out In W) (sound : c.writer.Sound)
    (p : RequestPart) : Tends c (c.onPart s now p) := by
  unfold onPart
  simp only
  split
  · exact (kept_tends.cancel s _ _).of_same rfl rfl rfl (List.prefix_append _ _)
  · split
    · refine (tends_onForwarded s now _ ?_ _).of_same rfl rfl rfl (List.prefix_append _ _)
      exact sound
    · exact tends_of_same rfl rfl rfl (List.prefix_append _ _)
    · exact (kept_tends.cancel s _ _).of_same rfl rfl rfl (List.prefix_append _ _)

theorem tends_onInbound (s : Setup σ Out In) (now : Instant) (c : Call σ Out In W) (sound : c.writer.Sound)
    (i : Inbound) : Tends c (c.onInbound s now i) := by
  cases i with
  | part p => exact tends_onPart s now c sound p
  | error e => exact kept_tends.cancel s c e
  | finish => exact kept_tends.cancel s c _
  | writable b =>
    simp only [onInbound]
    split
    · refine (tends_withWriter ?_).of_same rfl rfl rfl List.prefix_rfl
      exact Writer.tends_setWritable sound b
    · exact tends_of_same rfl rfl rfl List.prefix_rfl

theorem tends_turn (s : Setup σ Out In) {now : Instant} (sound : c.writer.Sound) (turn : c.turn s now = some c') :
    Tends c c' := by
  unfold Call.turn at turn
  split at turn
  · cases turn
  · split at turn
    · obtain rfl := Option.some.inj turn
      exact (kept_tends.onEvent s _ _).of_same rfl rfl rfl List.prefix_rfl
    · obtain rfl := Option.some.inj turn
      exact (tends_onCommand s _ _).of_same rfl rfl rfl List.prefix_rfl
    · obtain rfl := Option.some.inj turn
      refine (tends_onInbound s now _ ?_ _).of_same rfl rfl rfl List.prefix_rfl
      exact sound
    · split at turn
      · obtain rfl := Option.some.inj turn
        exact kept_tends.onHangUp s c
      · split at turn
        · split at turn
          · obtain rfl := Option.some.inj turn
            exact kept_tends.cancel s c _
          · cases turn
        · cases turn

theorem tends_conclude (c : Call σ Out In W) : Tends c c.conclude := by
  unfold conclude
  split
  · exact tends_refl c
  · have raised : Tends c (if c.engaged then { c with engaged := false }.raiseCancellation else c) := by
      split
      · exact (tends_raiseCancellation _).of_same rfl rfl rfl List.prefix_rfl
      · exact tends_refl c
    refine raised.trans ⟨_, rfl, fun k wait attends => ?_⟩
    cases wait with
    | writer errand => exact .inr attends
    | cancellation => exact .inr attends
    | reply => exact .inl (List.mem_map_of_mem (List.mem_append_right _ attends))

/-! ## neither does a step, nor a run -/

theorem tends_report (c : Call σ Out In W) (sound : c.writer.Sound) (outcome : Option Failure) :
    Tends c (c.report outcome) := by
  refine (tends_withWriter (Writer.tends_finish sound none)).trans ?_
  rw [report, tell_eq]
  exact tends_of_same rfl rfl rfl (List.prefix_append _ _)

section Steps

variable [DecidableEq W]

theorem subset_poll (t : Token W) (w : W) : t.waiters ⊆ (t.poll w).1.waiters ∧ (t.poll w).1.raised = t.raised := by
  unfold Token.poll
  split
  · exact ⟨List.Subset.refl _, rfl⟩
  · exact ⟨Writer.subset_register w _, rfl⟩

theorem token_readMessage {α : Type} (t : Token W) (ch : Channel α Status W) (w : W) :
    (readMessage t ch w).1 = (t.poll w).1 := by
  unfold readMessage
  rcases t.poll w with ⟨t', _ | _⟩ <;> rfl

/-- Who looks at something leaves the others waiting. -/
theorem tends_perform (c : Call σ Out In W) (sound : c.writer.Sound) (d : Deed Out W) : Tends c (c.perform d) := by
  cases d with
  | write m => exact tends_withWriter (Writer.tends_offer c.writer m)
  | awaitWrite w =>
    exact tends_of_more (Writer.tends_pollCapacity c.writer w) (List.Subset.refl _) rfl (List.Subset.refl _)
      List.prefix_rfl
  | awaitDrained w =>
    exact tends_of_more (Writer.tends_pollDrained c.writer w) (List.Subset.refl _) rfl (List.Subset.refl _)
      List.prefix_rfl
  | finish => exact tends_withWriter (Writer.tends_finish sound none)
  | read w =>
    obtain ⟨more, raised⟩ := subset_poll c.cancellation w
    rw [← token_readMessage c.cancellation c.requests w] at more raised
    exact tends_of_more (Writer.tends_refl _ _) more raised (List.Subset.refl _) List.prefix_rfl
  | set setting =>
    simp only [perform, issue]
    split
    · exact tends_refl c
    · exact tends_of_same rfl rfl rfl (List.prefix_append _ _)
  | awaitReply id w =>
    simp only [perform, pollReply]
    split
    · exact tends_refl c
    · split
      · exact tends_refl c
      · exact tends_of_more (Writer.tends_refl _ _) (List.Subset.refl _) rfl (Writer.subset_register w _)
          List.prefix_rfl
  | abort reason =>
    simp only [perform, abort]
    split
    · exact tends_refl c
    · exact tends_of_same rfl rfl rfl (List.prefix_append _ _)
  | awaitCancelled w =>
    obtain ⟨more, raised⟩ := subset_poll c.cancellation w
    exact tends_of_more (Writer.tends_refl _ _) more raised (List.Subset.refl _) List.prefix_rfl
  | returned outcome => exact (tends_report c sound outcome).trans (tends_of_beside (beside_closeRequests _ _))
  | lost =>
    refine (tends_of_beside (beside_closeRequests c .finished)).trans (tends_report _ ?_ _)
    exact sound

/-- The transport, and who waits for the end of the call, change no more than what they wait for and hand in. -/
theorem step_of_outside (s : Setup σ Out In) (c : Call σ Out In W) {a : Act Out W} (outside : a.isOutside = true) :
    ∃ inbox handles completionWaiters es, Silent es ∧
      c.step s a = { c with inbox, handles, completionWaiters, trace := c.trace ++ es } := by
  have still : c = { c with trace := c.trace ++ [] } := by simp
  have woke : Silent ([.wokeLoop] : List (Effect W)) := by simp [Effect.isSilent]
  cases a with
  | submit i =>
    simp only [step, submit]
    split
    · exact ⟨_, _, _, [], silent_nil, still⟩
    · exact ⟨_, _, _, _, woke, rfl⟩
  | hangUp =>
    simp only [step, hangUp]
    split
    · split
      · exact ⟨c.inbox, false, c.completionWaiters, [], silent_nil, by simp⟩
      · exact ⟨_, _, _, _, woke, rfl⟩
    · exact ⟨_, _, _, [], silent_nil, still⟩
  | awaitEnd w =>
    simp only [step, pollCompleted]
    split
    · exact ⟨_, _, _, [], silent_nil, still⟩
    · exact ⟨c.inbox, c.handles, register w c.completionWaiters, [], silent_nil, by simp⟩
  | _ => cases outside

theorem tends_step (s : Setup σ Out In) (c : Call σ Out In W) (sound : c.writer.Sound) (a : Act Out W) :
    Tends c (c.step s a) := by
  cases outside : a.isOutside with
  | true =>
    obtain ⟨inbox, handles, completionWaiters, es, -, same⟩ := step_of_outside s c outside
    rw [same]
    exact tends_of_same rfl rfl rfl (List.prefix_append _ _)
  | false =>
    cases a with
    | deed d =>
      simp only [step]
      split
      · exact tends_perform c sound d
      · exact tends_refl c
    | turn now =>
      cases turn : c.turn s now with
      | none => simpa [step, turn] using tends_refl c
      | some c' => simpa [step, turn] using tends_turn s sound turn
    | conclude => exact tends_conclude c
    | _ => cases outside

/-- **Nobody who waits is forgotten**, in any run. -/
theorem tends_after (s : Setup σ Out In) (x : σ) (early late : List (Act Out W)) :
    Tends (run (step s) (new s x) early) (run (step s) (new s x) (early ++ late)) := by
  rw [run_append]
  refine run_induction (tends_refl _) fun more a tends => ?_
  obtain ⟨said, done, ledger⟩ := ledger_after s x (early ++ more)
  rw [run_append] at ledger
  exact tends.trans (tends_step s _ ledger.sound a)

/-! ## who is told to wait -/

/-- Who is told to wait for what a deed looks at. -/
def suspended? (c : Call σ Out In W) : Deed Out W → Option W
  | .awaitWrite w => if (c.pollWrite w).2.isReady then none else some w
  | .awaitDrained w => if (c.pollDrained w).2.isReady then none else some w
  | .read w => if (c.readRequest w).2.isReady then none else some w
  | .awaitReply id w => if (c.pollReply id w).2.isReady then none else some w
  | .awaitCancelled w => if (c.pollCancelled w).2 then none else some w
  | _ => none

omit [DecidableEq W] in
theorem eq_pending_of_isReady {α : Type} {r : Poll α} (h : r.isReady = false) : r = .pending := by
  cases r with
  | pending => rfl
  | ready a => cases h

theorem poll_of_not_raised {t : Token W} {w : W} (waits : (t.poll w).2 = false) :
    w ∈ (t.poll w).1.waiters ∧ (t.poll w).1.raised = false := by
  unfold Token.poll at waits ⊢
  split
  · simp_all
  · rename_i unraised
    exact ⟨Writer.mem_register w _, by simpa using unraised⟩

theorem poll_of_readMessage {α : Type} {t : Token W} {ch : Channel α Status W} {w : W}
    (waits : (readMessage t ch w).2.2 = .pending) : (t.poll w).2 = false := by
  unfold readMessage at waits
  split at waits
  · cases waits
  · rename_i e
    rw [e]

theorem attends_of_suspended {d : Deed Out W} {w : W} (sound : c.writer.Sound) (waits : c.suspended? d = some w) :
    ∃ wait, (c.perform d).Attends w wait := by
  cases d with
  | awaitWrite k =>
    obtain ⟨pending, rfl⟩ : (c.pollWrite k).2.isReady = false ∧ k = w := by simpa [suspended?] using waits
    have look : (Writer.Errand.write ()).look c.writer k = .pending := eq_pending_of_isReady pending
    exact ⟨.writer (.write ()), Writer.attends_of_look sound look⟩
  | awaitDrained k =>
    obtain ⟨pending, rfl⟩ : (c.pollDrained k).2.isReady = false ∧ k = w := by simpa [suspended?] using waits
    have look : (Writer.Errand.drained : Writer.Errand Unit).look c.writer k = .pending :=
      congrArg (Poll.map Except.ok) (eq_pending_of_isReady pending)
    exact ⟨.writer .drained, Writer.attends_of_look sound look⟩
  | read k =>
    obtain ⟨pending, rfl⟩ : (c.readRequest k).2.isReady = false ∧ k = w := by simpa [suspended?] using waits
    have unraised := poll_of_readMessage (eq_pending_of_isReady pending)
    refine ⟨.cancellation, ?_⟩
    simp only [Attends, perform, readRequest, token_readMessage]
    exact poll_of_not_raised unraised
  | awaitReply id k =>
    obtain ⟨pending, rfl⟩ : (c.pollReply id k).2.isReady = false ∧ k = w := by simpa [suspended?] using waits
    refine ⟨.reply, ?_⟩
    unfold pollReply at pending
    simp only [Attends, perform, pollReply]
    split at pending
    · cases pending
    · split at pending
      · cases pending
      · simp_all [Writer.mem_register]
  | awaitCancelled k =>
    obtain ⟨unraised, rfl⟩ : (c.pollCancelled k).2 = false ∧ k = w := by simpa [suspended?] using waits
    exact ⟨.cancellation, poll_of_not_raised unraised⟩
  | _ => cases waits

end Steps

end Call

end CallLifecycle.Server
