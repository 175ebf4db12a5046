import CallLifecycle.Proofs.Server.Starting
import CallLifecycle.Proofs.Server.Verdict

/-!
# Calls whose time runs out

* `Arms` — a turn that starts a handler whose call has a deadline;
* `Armed`, `armed_after` — from then on the alarm of the deadline stays set as long as the call goes on, whatever the
  handler, the transport and the handles do;
* `endSent_of_due` — **a call whose time ran out** has sent its end once its loop has nothing to do;
* `Expires`, `exists_arms_of_expires` — a turn that ends a call because its time ran out comes no sooner than the alarm;
* `rests_of_ended` — behind the end of a call nothing expires.
-/

namespace CallLifecycle.Server.Call

variable {σ Out In W : Type} {s : Setup σ Out In} {c c' : Call σ Out In W}

/-- The next turn takes up the metadata of a request, and its handler starts with a deadline: the instant behind the
shortest of the timeouts that the metadata tell and the server sets, which the clock can tell. -/
inductive Arms (s : Setup σ Out In) (now : Instant) (c : Call σ Out In W) (due : Instant) : Prop
  | mk (p : RequestPart) (m : Metadata) (rest : List Inbound) (going : Running c)
      (takes : TakesUp s c p (.metadata m) rest) (idle : c.progress.handler = .idle)
      (timed : Timeout.Due m s.config.timeout now (some due)) (tellable : due ≤ Instant.latest) : Arms s now c due

/-- The alarm of the deadline is set as long as the call goes on. -/
structure Armed (due : Instant) (c : Call σ Out In W) : Prop where
  uncut : c.crashed = false
  going : Running c → c.progress.handler = .active ∧ c.deadline = some due.alarm

/-! ## the alarm is set -/

theorem armed_of_arms (h : Live c) {now due : Instant} (arms : Arms s now c due) :
    ∃ c', c.turn s now = some c' ∧ Armed due c' := by
  obtain ⟨p, m, rest, going, takes, idle, timed, tellable⟩ := arms
  have fits : ¬ Overruns s now m := by
    rw [overruns_iff timed]
    rintro ⟨i, same, beyond⟩
    obtain rfl := Option.some.inj same
    exact absurd tellable (Nat.not_le_of_lt beyond)
  obtain ⟨c', turn, starts⟩ := startsWith_of_tellable h takes idle timed fits
  exact ⟨c', turn, starts.uncut, fun _ => ⟨starts.handler, starts.alarm⟩⟩

/-! ## the alarm stays set -/

/-- A turn leaves the deadline of a call that goes on as it is, unless it starts the handler. -/
theorem Advance.deadline_cases {now : Instant} (h : Advance s now c c') :
    (c'.deadline = c.deadline ∧ c'.crashed = c.crashed ∧ c'.progress.handler = c.progress.handler) ∨
    (¬ Running c' ∧ (c.progress.handler = .active → c'.crashed = c.crashed)) ∨
    (c.progress.handler = .idle ∧ ∃ p m rest, TakesUp s c p (.metadata m) rest) := by
  cases h with
  | spoke batch rest ps next speaks => exact .inl ⟨by rw [speaks.same], by rw [speaks.same], speaks.handler_eq⟩
  | noted e rest next news same | applied id setting rest idle orders same =>
    exact .inl ⟨by rw [same], by rw [same], by rw [same]⟩
  | concluded e rest outcome next news drained reported concludes =>
    exact .inr (.inl ⟨fun going => going.2 (by rw [concludes.same]), fun _ => by rw [concludes.same]⟩)
  | gaveUp e d fails tried givenUp =>
    exact .inr (.inl ⟨fun going => going.2 (by rw [givenUp.same]), fun _ => by rw [givenUp.same, tried.same]⟩)
  | started p m rest deadline vs takes idle same => exact .inr (.inr ⟨idle, p, m, rest, takes⟩)
  | cutOff p m rest takes cut crashes => exact .inr (.inr ⟨crashes.idle, p, m, rest, takes⟩)
  | delivered p data m rest x es takes receiving decoded silent same
  | closed p rest es takes receiving silent same | noticed idle orders inbox handles unnoticed whole same =>
    exact .inl ⟨by rw [same], by rw [same], by rw [same]⟩
  | writable b rest idle orders inbox same =>
    left
    rw [same]
    split
    · rw [withWriter_eq]
      exact ⟨rfl, rfl, rfl⟩
    · exact ⟨rfl, rfl, rfl⟩

section Steps

variable [DecidableEq W]

theorem deadline_perform (c : Call σ Out In W) (d : Deed Out W) : (c.perform d).deadline = c.deadline := by
  cases d with
  | write | finish => simp only [perform, write, finishResponses, withWriter_eq]
  | returned | lost =>
    simp only [perform, returned, lost, report, finishResponses, closeRequests_eq, tell_eq, withWriter_eq]
  | set => simp only [perform, issue]; split <;> rfl
  | abort => simp only [perform, abort]; split <;> rfl
  | awaitReply =>
    simp only [perform, pollReply]
    split
    · rfl
    · split <;> rfl
  | awaitWrite | awaitDrained | read | awaitCancelled => rfl

theorem deadline_step (s : Setup σ Out In) (c : Call σ Out In W) {a : Act Out W} (other : ∀ now, a ≠ .turn now) :
    (c.step s a).deadline = c.deadline := by
  cases a with
  | submit | hangUp | awaitEnd =>
    simp only [step, submit, hangUp, pollCompleted]
    split <;> try split
    all_goals rfl
  | deed d =>
    simp only [step]
    split
    · exact deadline_perform c d
    · rfl
  | turn now => exact absurd rfl (other now)
  | conclude =>
    simp only [step, conclude]
    split
    · rfl
    · split <;> rfl

variable {taken done : List (Outbound Out)} {said : List ResponsePart} {due : Instant}

theorem armed_step (h : Armed due c) (ledger : Ledger s c taken said done) (a : Act Out W) :
    Armed due (c.step s a) := by
  by_cases turns : ∃ now, a = .turn now
  · obtain ⟨now, rfl⟩ := turns
    cases turn : c.turn s now with
    | none => simpa [step, turn] using h
    | some c' =>
      obtain ⟨live, -⟩ := ledger.live_of_turn turn
      obtain ⟨active, deadline⟩ := h.going ⟨live.ended, live.handler⟩
      have step : c.step s (.turn now) = c' := by simp [step, turn]
      rw [step]
      rcases (advance live turn).deadline_cases with ⟨same, uncut, handler⟩ | ⟨stops, uncut⟩ | ⟨idle, -⟩
      · exact ⟨uncut.trans h.uncut, fun _ => ⟨handler.trans active, same.trans deadline⟩⟩
      · exact ⟨(uncut active).trans h.uncut, fun going => absurd going stops⟩
      · simp [active] at idle
  · have other (now : Instant) : a ≠ .turn now := fun e => turns ⟨now, e⟩
    have told := told_step s ledger.sound other
    have progress := told.frame.progress
    refine ⟨told.frame.crashed.trans h.uncut, fun going => ?_⟩
    obtain ⟨active, deadline⟩ := h.going ⟨told.ended going.1, by simpa [progress] using going.2⟩
    exact ⟨by rw [progress, active], (deadline_step s c other).trans deadline⟩

theorem armed_after (h : Armed due c) (ledger : Ledger s c taken said done) (acts : List (Act Out W)) :
    Armed due (run (step s) c acts) := by
  induction acts generalizing c taken said done with
  | nil => exact h
  | cons a acts ih =>
    obtain ⟨said', done', behind⟩ := ledger_step ledger a
    exact ih (armed_step h ledger a) behind

/-- **A call whose time ran out** has sent its end once its loop has nothing to do. -/
theorem endSent_of_due (x : σ) {early late : List (Act Out W)} {now clock : Instant}
    (arms : Arms s now (run (step s) (new s x) early) due) (past : due ≤ clock)
    (still : (run (step s) (new s x) (early ++ .turn now :: late)).isBusy clock = false) :
    EndSent s (run (step s) (new s x) (early ++ .turn now :: late)) := by
  obtain ⟨said, done, ledger⟩ := ledger_after s x early
  obtain ⟨said', done', whole⟩ := ledger_after s x (early ++ .turn now :: late)
  have live : Live (run (step s) (new s x) early) := by
    obtain ⟨p, m, rest, going, -⟩ := arms
    exact ledger.live_of_running going
  have armed : Armed due (run (step s) (new s x) (early ++ .turn now :: late)) := by
    obtain ⟨c', turn, armed⟩ := armed_of_arms live arms
    have step : (run (step s) (new s x) early).step s (.turn now) = c' := by simp [step, turn]
    obtain ⟨_, _, behind⟩ := ledger_step ledger (.turn now)
    rw [run_append, run_cons]
    exact armed_after (step ▸ armed) behind late
  generalize run (step s) (new s x) (early ++ .turn now :: late) = c at whole armed still ⊢
  cases whole.standing with
  | live live' =>
    obtain ⟨-, deadline⟩ := armed.going ⟨live'.ended, live'.handler⟩
    have goesOff : due.alarm ≤ clock := Nat.le_trans (Instant.alarm_le due) past
    have handler := live'.handler
    simp [isBusy, live'.ended, Progress.isCompleted, handler, deadline, goesOff] at still
  | closed outbound => exact whole.endSent outbound
  | cut _ _ crashed => simp [armed.uncut] at crashed

/-! ## nothing expires too soon -/

omit [DecidableEq W] in
/-- The next turn ends the call because its time ran out. -/
structure Expires (now : Instant) (c : Call σ Out In W) : Prop where
  going : Running c
  idle : c.events = []
  orders : c.commands = []
  inbox : c.inbox = []
  noticed : c.handles = true ∨ c.hungUp = true
  due : ∃ d, c.deadline = some d ∧ d ≤ now

omit [DecidableEq W] in
theorem Expires.endsFor {now : Instant} (h : Expires now c) : EndsFor s now c (.failed .deadlineExceeded) := by
  obtain ⟨d, deadline, due⟩ := h.due
  exact .failed _ h.going
    (.other _ h.idle (.expired d h.idle h.orders h.inbox h.noticed deadline due))

/-- The alarm of a call that goes on was set when its handler started. -/
theorem exists_arms_of_deadline (s : Setup σ Out In) (x : σ) {acts : List (Act Out W)} {d : Instant}
    (going : Running (run (step s) (new s x) acts)) (deadline : (run (step s) (new s x) acts).deadline = some d) :
    ∃ early now late due, acts = early ++ .turn now :: late ∧ Arms s now (run (step s) (new s x) early) due ∧
      d = due.alarm := by
  induction acts using List.reverseRecOn with
  | nil => cases deadline
  | append_singleton acts a ih =>
    obtain ⟨said, done, ledger⟩ := ledger_after s x acts
    rw [run_append, run_cons, run_nil] at going deadline
    have before (k : Running (run (step s) (new s x) acts)) (set : (run (step s) (new s x) acts).deadline = some d) :
        ∃ early now late due, acts ++ [a] = early ++ .turn now :: late ∧ Arms s now (run (step s) (new s x) early) due ∧
          d = due.alarm := by
      obtain ⟨early, now, late, due, rfl, arms, same⟩ := ih k set
      exact ⟨early, now, late ++ [a], due, by simp, arms, same⟩
    by_cases turns : ∃ now, a = .turn now
    · obtain ⟨now, rfl⟩ := turns
      cases turn : (run (step s) (new s x) acts).turn s now with
      | none =>
        have same : (run (step s) (new s x) acts).step s (.turn now) = run (step s) (new s x) acts := by
          simp [step, turn]
        rw [same] at going deadline
        exact before going deadline
      | some c' =>
        obtain ⟨live, -⟩ := ledger.live_of_turn turn
        have turned : (run (step s) (new s x) acts).step s (.turn now) = c' := by simp [step, turn]
        rw [turned] at going deadline
        -- Only the turn that starts the handler sets an alarm; what came before it set none that still holds.
        rcases (advance live turn).deadline_cases with ⟨same, -⟩ | ⟨stops, -⟩ | ⟨idle, p, m, rest, takes⟩
        · exact before ⟨live.ended, live.handler⟩ (same ▸ deadline)
        · exact absurd going stops
        · have running : Running (run (step s) (new s x) acts) := ⟨live.ended, live.handler⟩
          have timed := Timeout.due_effective m s.config.timeout now
          -- A deadline that the clock cannot tell cuts the loop off, and this call goes on.
          by_cases overruns : Overruns s now m
          · obtain ⟨c'', turn', cut⟩ := cutsShort_of_overruns ledger running takes idle overruns
            obtain rfl := Option.some.inj (turn.symm.trans turn')
            exact absurd going cut.isOver
          · obtain ⟨c'', turn', starts⟩ := startsWith_of_tellable live takes idle timed overruns
            obtain rfl := Option.some.inj (turn.symm.trans turn')
            obtain ⟨due, same, rfl⟩ := Option.map_eq_some_iff.mp (starts.alarm.symm.trans deadline)
            have tellable : due ≤ Instant.latest :=
              Nat.le_of_not_lt fun beyond => overruns ((overruns_iff timed).mpr ⟨due, same, beyond⟩)
            exact ⟨acts, now, [], due, rfl, ⟨p, m, rest, running, takes, idle, same ▸ timed, tellable⟩, rfl⟩
    · have other (now : Instant) : a ≠ .turn now := fun e => turns ⟨now, e⟩
      have told := told_step s ledger.sound other
      refine before ⟨told.ended going.1, ?_⟩ ((deadline_step s _ other) ▸ deadline)
      have progress := told.frame.progress
      exact progress ▸ going.2

/-- **No call expires too soon**: the alarm was set when its handler started, and the turn comes no sooner. -/
theorem exists_arms_of_expires (s : Setup σ Out In) (x : σ) {acts : List (Act Out W)} {now : Instant}
    (expires : Expires now (run (step s) (new s x) acts)) :
    ∃ early started late due, acts = early ++ .turn started :: late ∧
      Arms s started (run (step s) (new s x) early) due ∧ due.alarm ≤ now := by
  obtain ⟨d, deadline, goesOff⟩ := expires.due
  obtain ⟨early, started, late, due, split, arms, rfl⟩ := exists_arms_of_deadline s x expires.going deadline
  exact ⟨early, started, late, due, split, arms, goesOff⟩

/-- **Behind the end of a call nothing expires**: its loop takes no turn, whatever the clock tells, and nothing is
sent. -/
theorem rests_of_ended (s : Setup σ Out In) (x : σ) {acts : List (Act Out W)}
    (ended : (run (step s) (new s x) acts).progress.outbound = .ended) (now : Instant) (late : List (Act Out W)) :
    (run (step s) (new s x) (acts ++ late)).turn s now = none ∧
      (run (step s) (new s x) (acts ++ late)).sent = (run (step s) (new s x) acts).sent := by
  obtain ⟨said, done, ledger⟩ := ledger_after s x acts
  have isOver : ¬ Running (run (step s) (new s x) acts) :=
    fun going => (ledger.live_of_running going).outbound ended
  rw [run_append]
  obtain ⟨isOver', sent⟩ := unsent_after ledger isOver late
  exact ⟨turn_of_not_running s isOver' now, sent⟩

end Steps

end CallLifecycle.Server.Call
