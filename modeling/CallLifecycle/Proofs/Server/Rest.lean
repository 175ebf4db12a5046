import CallLifecycle.Proofs.Server.Requests
import CallLifecycle.Proofs.Server.Words

/-!
# Calls at rest

* `Told` — what a step but a turn tells the loop;
* `unsent_after` — a call that is over says nothing;
* `Course`, `course_after` — **in every run** what the loop was told of the end of the handler and of its writer is
  noted or waits in its queue;
* `Course.waits` — a call of which nothing more is told waits for its transport;
* `HeldBack` — a call whose messages wait for a transport that nobody can make writable any more;
* `endSent_of_rest` — **a call that comes to rest** has sent its end, unless it was cut off or is held back.
-/

namespace CallLifecycle.Server.Call

variable {σ Out In W : Type} {s : Setup σ Out In} {c c' : Call σ Out In W}

/-! ## what the loop is told -/

/-- What a step but a turn tells the loop: of the end of the writer, if it ends, and of the `ends` of the handler. -/
structure Told (c c' : Call σ Out In W) (ends : List (Option Failure)) : Prop where
  frame : Undisturbed c c'
  ended : c'.ended = false → c.ended = false
  sound : c'.writer.Sound
  events : ∃ es, (c'.ended = false → c'.events = c.events ++ es) ∧
    (c'.writer.completion.isTerminated = true →
      c.writer.completion.isTerminated = true ∨ ∃ e ∈ es, e.isDrained = true) ∧
    ∀ o, .returned o ∈ es ↔ o ∈ ends
  active : c'.writer.completion.isActive = true → c.writer.completion.isActive = true ∧ ends = []
  past : c.writer.completion.isTerminated = true → c'.writer.completion.isTerminated = true
  still : c.hasStarted = false → c'.writer = c.writer

theorem told_of_same (frame : Undisturbed c c') (ended : c'.ended = c.ended) (sound : c'.writer.Sound)
    (events : c'.events = c.events) (completion : c'.writer.completion = c.writer.completion)
    (still : c.hasStarted = false → c'.writer = c.writer) : Told c c' [] :=
  ⟨frame, fun h => ended ▸ h, sound, ⟨[], by simp [events], fun h => .inl (completion ▸ h), by simp⟩,
    fun h => ⟨completion ▸ h, rfl⟩, fun h => completion ▸ h, still⟩

theorem exists_isDrained {es : List (WriterEvent (Outbound Out) Failure)} (h : ∃ e ∈ es, e.isEnd = true) :
    ∃ e ∈ es.map ofWriterEvent, e.isDrained = true := by
  obtain ⟨e, mem, isEnd⟩ := h
  exact ⟨_, List.mem_map_of_mem mem, (isDrained_ofWriterEvent e).trans isEnd⟩

theorem returned_notMem (es : List (WriterEvent (Outbound Out) Failure)) (o : Option Failure) :
    .returned o ∉ es.map ofWriterEvent := by
  simp only [List.mem_map, not_exists, not_and]
  rintro (_ | _) - <;> simp [ofWriterEvent]

theorem told_finish (sound : c.writer.Sound) (started : c.hasStarted = true) (frame : Undisturbed c c')
    (ended : c'.ended = c.ended) (writer : c'.writer = (c.writer.finish none).1) (ends : List (Option Failure))
    (events : c.ended = false →
      c'.events = c.events ++ ((c.writer.finish none).2.1.map ofWriterEvent ++ ends.map .returned)) :
    Told c c' ends := by
  have inactive := c.writer.isActive_finish none
  refine ⟨frame, fun h => ended ▸ h, writer ▸ Writer.sound_finish sound none,
    ⟨_, fun h => events (ended ▸ h), fun past => ?_, fun o => ?_⟩, fun active => ?_, fun past => ?_, fun h => ?_⟩
  · rw [writer] at past
    refine (Writer.told_finish sound none past).imp id fun told => ?_
    obtain ⟨e, mem, drained⟩ := exists_isDrained told
    exact ⟨e, List.mem_append_left _ mem, drained⟩
  · simp [returned_notMem]
  · rw [writer, inactive] at active
    cases active
  · rw [writer]
    exact ((Writer.passes_finish sound none).past past).2.2
  · simp [started] at h

section Steps

variable [DecidableEq W]

theorem told_perform (sound : c.writer.Sound) (started : c.hasStarted = true) (d : Deed Out W) :
    Told c (c.perform d) d.report?.toList := by
  have worked := worked_perform sound d
  have still (h : c.hasStarted = false) : (c.perform d).writer = c.writer := by simp [started] at h
  obtain ⟨es, rs, passes, -⟩ := worked.events
  have same (events : (c.perform d).events = c.events)
      (completion : (c.perform d).writer.completion = c.writer.completion) : Told c (c.perform d) [] :=
    told_of_same worked.frame worked.ended passes.sound events completion still
  cases d with
  | write m =>
    have completion : (c.perform (.write m)).writer.completion = c.writer.completion := by
      simp only [perform, write, withWriter_eq]
      exact Writer.completion_offer c.writer m
    refine ⟨worked.frame, fun h => worked.ended ▸ h, passes.sound,
      ⟨(c.writer.offer m).2.2.map ofWriterEvent, fun going => ?_, fun past => .inl (completion ▸ past), fun o => ?_⟩,
      fun active => ⟨completion ▸ active, rfl⟩, fun past => completion ▸ past, still⟩
    · have before := worked.ended ▸ going
      simp only [perform, write, withWriter_eq, before]
      rfl
    · simp [returned_notMem, Deed.report?]
  | finish =>
    refine told_finish sound started worked.frame worked.ended ?_ [] fun going => ?_ <;>
      simp [perform, finishResponses, withWriter_eq]
    simp [going]
  | returned outcome =>
    refine told_finish sound started worked.frame worked.ended ?_ [outcome] fun going => ?_ <;>
      simp [perform, returned, report, finishResponses, closeRequests_eq, tell_eq, withWriter_eq]
    simp [going]
  | lost =>
    refine told_finish sound started worked.frame worked.ended ?_ [some endedWithoutReturning] fun going => ?_ <;>
      simp [perform, lost, report, finishResponses, closeRequests_eq, tell_eq, withWriter_eq]
    simp [going]
  | read w => exact same rfl rfl
  | set setting =>
    refine same ?_ ?_ <;> simp only [perform, issue] <;> split <;> rfl
  | abort reason =>
    refine same ?_ ?_ <;> simp only [perform, abort] <;> split <;> rfl
  | awaitReply id w =>
    refine same ?_ ?_ <;> simp only [perform, pollReply] <;> split <;> try split
    all_goals rfl
  | awaitCancelled w => exact same rfl rfl
  | awaitWrite w => exact same rfl (Writer.completion_pollCapacity c.writer w)
  | awaitDrained w => exact same rfl (Writer.completion_pollDrained c.writer w)

theorem told_step (s : Setup σ Out In) (sound : c.writer.Sound) {a : Act Out W} (other : ∀ now, a ≠ .turn now) :
    Told c (c.step s a) (c.reports a) := by
  have woke : Silent ([.wokeLoop] : List (Effect W)) := by simp [Effect.isSilent]
  have same {c' : Call σ Out In W} {es : List (Effect W)} (silent : Silent es)
      (e : c' = { c with inbox := c'.inbox, handles := c'.handles, completionWaiters := c'.completionWaiters,
                         trace := c.trace ++ es }) : Told c c' [] := by
    rw [e]
    exact told_of_same ⟨rfl, rfl, rfl, rfl, rfl, rfl, rfl, rfl, rfl, rfl, rfl, es, silent, rfl⟩ rfl sound rfl rfl
      fun _ => rfl
  cases a with
  | submit i =>
    simp only [step, submit]
    split
    · exact same silent_nil (by simp)
    · exact same woke rfl
  | hangUp =>
    simp only [step, hangUp]
    split
    · split
      · exact same silent_nil (by simp)
      · exact same woke rfl
    · exact same silent_nil (by simp)
  | awaitEnd w =>
    simp only [step, pollCompleted]
    split <;> exact same silent_nil (by simp)
  | deed d =>
    by_cases started : c.hasStarted = true
    · simpa [step, reports, started] using told_perform sound started d
    · simpa [step, reports, started] using same silent_nil (by simp)
  | turn now => exact absurd rfl (other now)
  | conclude =>
    rcases concluded_conclude c with e | ⟨frame, completed, before, ended, writer⟩
    · simpa [step, reports, e] using same silent_nil (by simp)
    · refine ⟨frame, fun h => by simp [step, ended] at h, writer ▸ sound,
        ⟨[], fun h => by simp [step, ended] at h, fun past => .inl (writer ▸ past), by simp [reports]⟩,
        fun active => ⟨writer ▸ active, rfl⟩, fun past => writer ▸ past, fun _ => writer⟩

/-! ## calls that are over -/

omit [DecidableEq W] in
theorem turn_of_not_running (s : Setup σ Out In) (isOver : ¬ Running c) (now : Instant) : c.turn s now = none := by
  unfold Call.turn
  rw [if_pos]
  by_contra going
  simp only [Bool.or_eq_true, not_or, Bool.not_eq_true] at going
  exact isOver ⟨going.1, fun completed => by simp [Progress.isCompleted, completed] at going⟩

theorem undisturbed_step (s : Setup σ Out In) (sound : c.writer.Sound) (isOver : ¬ Running c) (a : Act Out W) :
    ¬ Running (c.step s a) ∧ Undisturbed c (c.step s a) := by
  by_cases turns : ∃ now, a = .turn now
  · obtain ⟨now, rfl⟩ := turns
    simpa [step, turn_of_not_running s isOver now] using ⟨isOver, Undisturbed.refl c⟩
  · have told := told_step s sound fun now e => turns ⟨now, e⟩
    refine ⟨fun k => isOver ⟨told.ended k.1, ?_⟩, told.frame⟩
    rw [← told.frame.progress]
    exact k.2

theorem unsent_step (s : Setup σ Out In) (sound : c.writer.Sound) (isOver : ¬ Running c) (a : Act Out W) :
    ¬ Running (c.step s a) ∧ (c.step s a).sent = c.sent :=
  (undisturbed_step s sound isOver a).imp_right Undisturbed.sent_eq

theorem running_of_step (sound : c.writer.Sound) {a : Act Out W} (going : Running (c.step s a)) : Running c := by
  by_contra isOver
  exact (unsent_step s sound isOver a).1 going

/-- A call that is over stays so, and nothing that its loop decides changes any more. -/
theorem undisturbed_after {taken done : List (Outbound Out)} {said : List ResponsePart}
    (ledger : Ledger s c taken said done) (isOver : ¬ Running c) (acts : List (Act Out W)) :
    ¬ Running (run (step s) c acts) ∧ Undisturbed c (run (step s) c acts) := by
  induction acts generalizing c taken said done with
  | nil => exact ⟨isOver, .refl c⟩
  | cons a acts ih =>
    obtain ⟨isOver', frame⟩ := undisturbed_step s ledger.sound isOver a
    obtain ⟨said', done', behind⟩ := ledger_step ledger a
    obtain ⟨isOver'', still⟩ := ih behind isOver'
    exact ⟨isOver'', frame.trans still⟩

/-- A call that is over stays so, and says nothing. -/
theorem unsent_after {taken done : List (Outbound Out)} {said : List ResponsePart}
    (ledger : Ledger s c taken said done) (isOver : ¬ Running c) (acts : List (Act Out W)) :
    ¬ Running (run (step s) c acts) ∧ (run (step s) c acts).sent = c.sent :=
  (undisturbed_after ledger isOver acts).imp_right Undisturbed.sent_eq

theorem running_of_append (s : Setup σ Out In) (x : σ) (acts more : List (Act Out W))
    (running : Running (run (step s) (new s x) (acts ++ more))) : Running (run (step s) (new s x) acts) := by
  obtain ⟨said, done, ledger⟩ := ledger_after s x acts
  rw [run_append] at running
  by_contra isOver
  exact (unsent_after ledger isOver more).1 running

end Steps

/-! ## how far a call is with its end -/

/-- How far a call is with its end, whose handler said how it ended, if it did. -/
structure Course (c : Call σ Out In W) (ends : List (Option Failure)) : Prop where
  hungUp : Running c → c.hungUp = true → c.progress.inbound = .closed
  writer : ends ≠ [] → c.writer.completion.isActive = false
  /-- The end of the handler is noted, or waits in the queue. -/
  noted : Running c → ends ≠ [] → c.outcome ≠ none ∨ ∃ o, .returned o ∈ c.events
  /-- The end of the writer is noted, or waits in the queue. -/
  drained : Running c → c.writer.completion.isTerminated = true →
    c.drained = true ∨ ∃ e ∈ c.events, e.isDrained = true
  apart : Running c → c.drained = true → c.outcome = none
  outcome : Running c → ∀ o, c.outcome = some o ∨ .returned o ∈ c.events → o ∈ ends
  idle : c.progress.handler = .idle → c.hasStarted = false ∧ c.writer.pending = []
  past : c.progress.handler = .completed →
    c.writer.pending = [] ∧ (c.hasStarted = true → c.writer.completion.isTerminated = true)

theorem course_new (s : Setup σ Out In) (x : σ) : Course (new s x : Call σ Out In W) [] := by
  refine ⟨by simp [new], by simp, by simp, fun _ past => ?_, by simp [new], by simp [new], fun _ => ⟨rfl, rfl⟩,
    by simp [new]⟩
  simp [new, Writer.new, Completion.isTerminated] at past

section Step

variable {ends ends' : List (Option Failure)}

theorem Course.told (h : Course c ends) (told : Told c c' ends') : Course c' (ends ++ ends') := by
  have progress := told.frame.progress
  have running (k : Running c') : Running c := ⟨told.ended k.1, by rw [← progress]; exact k.2⟩
  obtain ⟨es, events, drained, returned⟩ := told.events
  refine ⟨fun k hungUp => ?_, fun isOver => ?_, fun k isOver => ?_, fun k past => ?_, fun k noted => ?_,
    fun k o known => ?_, fun idle => ?_, fun past => ?_⟩
  · rw [progress]
    exact h.hungUp (running k) (told.frame.hungUp ▸ hungUp)
  · by_contra active
    obtain ⟨before, rfl⟩ := told.active (by simpa using active)
    simp [h.writer (by simpa using isOver)] at before
  · rw [told.frame.outcome, events k.1]
    rcases ends' with _ | ⟨o, ends'⟩
    · rcases h.noted (running k) (by simpa using isOver) with noted | ⟨o, mem⟩
      · exact .inl noted
      · exact .inr ⟨o, List.mem_append_left _ mem⟩
    · exact .inr ⟨o, List.mem_append_right _ ((returned o).mpr (by simp))⟩
  · rw [told.frame.drained, events k.1]
    rcases drained past with before | ⟨e, mem, isDrained⟩
    · rcases h.drained (running k) before with noted | ⟨e, mem, isDrained⟩
      · exact .inl noted
      · exact .inr ⟨e, List.mem_append_left _ mem, isDrained⟩
    · exact .inr ⟨e, List.mem_append_right _ mem, isDrained⟩
  · rw [told.frame.outcome]
    exact h.apart (running k) (told.frame.drained ▸ noted)
  · rw [told.frame.outcome, events k.1, List.mem_append] at known
    rw [List.mem_append, ← returned o]
    rcases known with known | known | known
    · exact .inl (h.outcome (running k) o (.inl known))
    · exact .inl (h.outcome (running k) o (.inr known))
    · exact .inr known
  · obtain ⟨unstarted, empty⟩ := h.idle (progress ▸ idle)
    exact ⟨told.frame.hasStarted_eq.trans unstarted, by rw [told.still unstarted, empty]⟩
  · obtain ⟨empty, isOver⟩ := h.past (progress ▸ past)
    refine ⟨?_, fun started => told.past (isOver (told.frame.hasStarted_eq ▸ started))⟩
    cases started : c.hasStarted with
    | false => rw [told.still started, empty]
    | true => exact told.sound.terminated (told.past (isOver started))

theorem Course.of_same (h : Course c ends) (running : Running c) (handler : c'.progress.handler = c.progress.handler)
    (hungUp : c'.hungUp = true → c'.progress.inbound = .closed) (hasStarted : c'.hasStarted = c.hasStarted)
    (writer : c'.writer = c.writer) (drained : c'.drained = c.drained) (outcome : c'.outcome = c.outcome)
    (events : c'.events = c.events) : Course c' ends :=
  ⟨fun _ => hungUp, writer ▸ h.writer, fun _ => outcome ▸ events ▸ h.noted running,
    fun _ => writer ▸ drained ▸ events ▸ h.drained running, fun _ => drained ▸ outcome ▸ h.apart running,
    fun _ => outcome ▸ events ▸ h.outcome running, handler ▸ hasStarted ▸ writer ▸ h.idle,
    handler ▸ hasStarted ▸ writer ▸ h.past⟩

theorem course_of_completed (completed : c'.progress.handler = .completed)
    (inactive : ends ≠ [] → c'.writer.completion.isActive = false) (pending : c'.writer.pending = [])
    (terminated : c'.hasStarted = true → c'.writer.completion.isTerminated = true) : Course c' ends := by
  have stopped (k : Running c') : False := k.2 completed
  exact ⟨fun k => (stopped k).elim, inactive, fun k => (stopped k).elim, fun k => (stopped k).elim,
    fun k => (stopped k).elim, fun k => (stopped k).elim, fun idle => by simp [completed] at idle,
    fun _ => ⟨pending, terminated⟩⟩

theorem Course.givenUp (h : Course c ends) (live : Live c) (engages : c.progress.handler = .active → c.engaged = true)
    {d : Call σ Out In W} {e : Failure} (tried : Tried c d) (givenUp : GivenUp s e d c') : Course c' ends := by
  have completed : c'.progress.handler = .completed := by rw [givenUp.same]
  have writer : c'.writer = if c.engaged then (c.writer.cancel (.status callWasCancelled)).1 else c.writer := by
    rw [givenUp.same, tried.same]
  have hasStarted := givenUp.hasStarted.trans tried.hasStarted
  cases engaged : c.engaged with
  | true =>
    rw [engaged, if_pos rfl] at writer
    have terminated := Writer.isTerminated_cancel c.writer (.status callWasCancelled)
    rw [← writer] at terminated
    have sound : c'.writer.Sound := writer ▸ Writer.sound_cancel live.sound _
    exact course_of_completed completed (fun _ => writer ▸ Writer.isActive_cancel _ _) (sound.terminated terminated)
      fun _ => terminated
  | false =>
    rw [engaged, if_neg (by simp)] at writer
    have idle := live.idle_or_active.resolve_right fun active => by simp [engages active] at engaged
    obtain ⟨unstarted, empty⟩ := h.idle idle
    exact course_of_completed completed (writer ▸ h.writer) (writer ▸ empty) fun started => by
      simp [hasStarted, unstarted] at started

/-- The transport tells a call under way whether it is writable. -/
theorem Course.rewritable (h : Course c ends) (live : Live c) (idle : c.events = []) (engaged : c.engaged = true)
    (b : Bool) {rest : List Inbound} :
    Course ({ c with inbox := rest, writable := b }.withWriter (c.writer.setWritable b)) ends := by
  have running : Running c := ⟨live.ended, live.handler⟩
  have active := live.active_of_engaged engaged
  rw [withWriter_eq]
  simp only [idle, live.ended, List.nil_append]
  refine ⟨fun _ => h.hungUp running, fun returned => ?_, fun _ returned => ?_, fun _ past => ?_,
    fun _ => h.apart running, fun _ o known => ?_, fun idle => by simp [active] at idle,
    fun past => by simp [active] at past⟩
  · by_contra still
    have before := Writer.isActive_setWritable live.sound b (by simpa using still)
    simp [h.writer returned] at before
  · simpa [idle] using (h.noted running returned).imp id fun known => by simp [idle] at known
  · rcases Writer.told_setWritable live.sound b past with before | told
    · exact .inl ((h.drained running before).resolve_right (by simp [idle]))
    · exact .inr (exists_isDrained told)
  · exact h.outcome running o (.inl (known.resolve_right (returned_notMem _ o)))

/-- The end of the writer or of the handler leaves the queue of the loop, and is noted. -/
theorem Course.note (h : Course c ends) (live : Live c) {e : HandlerEvent Out} {rest : List (HandlerEvent Out)}
    (next : c.events = e :: rest) (news : e.isYielded = false)
    (waits : (c.drained || e.isDrained) = true → e.outcome?.or c.outcome = none) :
    Course { c with events := rest, drained := c.drained || e.isDrained, outcome := e.outcome?.or c.outcome } ends := by
  have running : Running c := ⟨live.ended, live.handler⟩
  have active := live.active_of_events (by simp [next])
  refine ⟨fun _ => h.hungUp running, h.writer, fun _ isOver => ?_, fun _ past => ?_, fun _ => waits,
    fun _ o known => ?_, fun idle => by simp [active] at idle, fun past => by simp [active] at past⟩
  · have noted := h.noted running isOver
    cases e <;> simp_all [HandlerEvent.outcome?]
  · have drained := h.drained running past
    cases e <;> simp_all [HandlerEvent.isDrained]
  · refine h.outcome running o ?_
    rw [next]
    cases e with
    | yielded => cases news
    | drained => exact known.imp id fun mem => List.mem_cons_of_mem _ mem
    | returned outcome =>
      rcases known with known | mem
      · obtain rfl : outcome = o := by simpa [HandlerEvent.outcome?] using known
        simp
      · exact .inr (List.mem_cons_of_mem _ mem)

theorem Course.launched (h : Course c ends) (live : Live c) (idle : c.progress.handler = .idle)
    (hungUp : c'.hungUp = c.hungUp) (events : c'.events = c.events) (drained : c'.drained = c.drained)
    (outcome : c'.outcome = c.outcome) (completion : c'.writer.completion = c.writer.completion)
    (handler : c'.progress.handler = .active) : Course c' ends := by
  have running : Running c := ⟨live.ended, live.handler⟩
  have waiting := live.inbound.mpr idle
  refine ⟨fun _ gone => ?_, fun isOver => ?_, fun _ => ?_, fun _ past => ?_, fun _ => ?_, fun _ => ?_,
    fun active => by simp [handler] at active, fun past => by simp [handler] at past⟩
  · simp [h.hungUp running (hungUp ▸ gone)] at waiting
  · exact (congrArg Completion.isActive completion).trans (h.writer isOver)
  · rw [outcome, events]
    exact h.noted running
  · rw [drained, events]
    exact h.drained running ((congrArg Completion.isTerminated completion).symm.trans past)
  · rw [drained, outcome]
    exact h.apart running
  · rw [outcome, events]
    exact h.outcome running

theorem Course.crashed (h : Course c ends) (crashes : Crashes c c') (writer : c'.writer = c.writer) :
    Course c' ends := by
  have stopped (k : Running c') : False := by
    have ended := crashes.ended
    simp [k.1] at ended
  refine ⟨fun k => (stopped k).elim, writer ▸ h.writer, fun k => (stopped k).elim, fun k => (stopped k).elim,
    fun k => (stopped k).elim, fun k => (stopped k).elim, fun _ => ?_, fun past => by simp [crashes.handler] at past⟩
  rw [crashes.hasStarted, writer]
  exact h.idle crashes.idle

theorem Course.advance (h : Course c ends) (live : Live c) (tidy : Tidy c.drained c.events c.writer)
    (engaged : c.progress.handler = .active → c.engaged = true) {now : Instant}
    (advance : Advance s now c c') : Course c' ends := by
  have running : Running c := ⟨live.ended, live.handler⟩
  cases advance with
  | gaveUp e d fails tried givenUp => exact h.givenUp live engaged tried givenUp
  | spoke batch rest ps next speaks =>
    have active := live.active_of_events (by simp [next])
    rw [speaks.same]
    refine ⟨fun _ => h.hungUp running, h.writer, fun _ isOver => ?_, fun _ past => ?_, fun _ => h.apart running,
      fun _ o known => ?_, fun idle => by simp [active] at idle, fun past => by simp [active] at past⟩
    · simpa [next] using h.noted running isOver
    · simpa [next, HandlerEvent.isDrained] using h.drained running past
    · exact h.outcome running o (known.imp id fun mem => next ▸ List.mem_cons_of_mem _ mem)
  | noted e rest next news same waits =>
    rw [same] at waits ⊢
    exact h.note live next news waits
  | concluded e rest outcome next news drained reported concludes =>
    have writer : c'.writer = c.writer := by rw [concludes.same]
    rw [next] at tidy
    have terminated := tidy.tail.told (.inl drained)
    exact course_of_completed (by rw [concludes.same]) (writer ▸ h.writer)
      (writer ▸ live.sound.terminated terminated) fun _ => writer ▸ terminated
  | applied id setting rest idle orders same =>
    refine h.of_same running ?_ ?_ ?_ ?_ ?_ ?_ ?_ <;> rw [same]
    · exact h.hungUp running
    · simp [hasStarted, (silent_woke c.replyWaiters).any_eq]
  | started p m rest deadline vs takes idle same =>
    rw [same]
    refine h.launched live idle rfl rfl rfl rfl ?_ rfl
    dsimp only
    split <;> rfl
  | cutOff p m rest takes cut crashes requests writer => exact h.crashed crashes writer
  | delivered p data m rest x es takes receiving decoded silent same =>
    refine h.of_same running ?_ ?_ ?_ ?_ ?_ ?_ ?_ <;> rw [same]
    · exact h.hungUp running
    · simp [hasStarted, silent.any_eq]
  | closed p rest es takes receiving silent same =>
    refine h.of_same running ?_ ?_ ?_ ?_ ?_ ?_ ?_ <;> rw [same]
    · exact fun _ => rfl
    · simp [hasStarted, silent.any_eq]
  | writable b rest idle orders inbox same =>
    rw [same]
    split
    · rename_i engaged
      exact h.rewritable live idle engaged b
    · exact h.of_same running rfl (h.hungUp running) rfl rfl rfl rfl rfl
  | noticed idle orders inbox handles unnoticed whole same =>
    rw [same]
    exact h.of_same running rfl (fun _ => whole) rfl rfl rfl rfl rfl

theorem Course.step [DecidableEq W] (h : Course c ends) {taken done : List (Outbound Out)} {said : List ResponsePart}
    (ledger : Ledger s c taken said done) (engaged : c.progress.handler = .active → c.engaged = true)
    (a : Act Out W) : Course (c.step s a) (ends ++ c.reports a) := by
  by_cases turns : ∃ now, a = .turn now
  · obtain ⟨now, rfl⟩ := turns
    cases turn : c.turn s now with
    | none => simpa [Call.step, turn, reports] using h
    | some c' =>
      obtain ⟨live, tidy, -⟩ := ledger.live_of_turn turn
      simpa [Call.step, turn, reports] using h.advance live tidy engaged (Call.advance live turn)
  · exact h.told (told_step s ledger.sound fun now e => turns ⟨now, e⟩)

end Step

section Run

variable [DecidableEq W]

theorem course_after (s : Setup σ Out In) (x : σ) (acts : List (Act Out W)) :
    Course (run (step s) (new s x) acts) ((new s x).reported s acts) := by
  induction acts using List.reverseRecOn with
  | nil => exact course_new s x
  | append_singleton acts a ih =>
    obtain ⟨said, done, ledger⟩ := ledger_after s x acts
    have intake := intake_after s x acts
    unfold reported at ih intake ⊢
    rw [gather_snoc, run_append]
    exact ih.step ledger intake.engaged a

/-! ## calls at rest -/

/-- A call at rest: no handle of its transport is alive, no deadline is to come, and the loop has nothing to do. -/
structure AtRest (s : Setup σ Out In) (c : Call σ Out In W) : Prop where
  handles : c.handles = false
  deadline : c.deadline = none
  turn : ∀ now, c.turn s now = none

def EndSent (s : Setup σ Out In) (c : Call σ Out In W) : Prop :=
  c.progress.outbound = .ended ∧
    ∃ early q status trailers, c.sent = early ++ [q] ∧ Emerges s.pipeline (.close status trailers) q

/-- A call whose request is whole, and whose writer keeps messages for a transport that is not writable. -/
structure HeldBack (c : Call σ Out In W) : Prop where
  inbound : c.progress.inbound = .closed
  writable : c.writer.writable = false
  pending : c.writer.pending ≠ []

omit [DecidableEq W] in
/-- A call that goes on while nothing is told of its handler, although that has ended, keeps messages for a transport
that is not writable. -/
theorem Course.waits {ends : List (Option Failure)} (h : Course c ends) (live : Live c) (idle : c.events = [])
    (isOver : ends ≠ []) : c.writer.writable = false ∧ c.writer.pending ≠ [] := by
  have running : Running c := ⟨live.ended, live.handler⟩
  have noted : c.outcome ≠ none := by simpa [idle] using h.noted running isOver
  -- A writer that has ended would have been noted, and the end of the handler with it.
  have waits : c.writer.completion.isTerminated = false := by
    by_contra past
    have drained : c.drained = true := by simpa [idle] using h.drained running (by simpa using past)
    exact noted (h.apart running drained)
  obtain ⟨r, finishing⟩ : ∃ r, c.writer.completion = .finishing r := by
    have inactive := h.writer isOver
    cases hc : c.writer.completion <;> simp_all [Completion.isActive, Completion.isTerminated]
  have pending := live.sound.finishing r finishing
  refine ⟨?_, pending⟩
  by_contra writable
  exact pending (live.sound.writable (by simpa using writable))

omit [DecidableEq W] in
/-- A call that goes on while it is at rest, and whose handler ended, is held back. -/
theorem Course.heldBack {ends : List (Option Failure)} (h : Course c ends) (live : Live c) (rest : AtRest s c)
    (isOver : c.hasStarted = true → ends ≠ []) : HeldBack c := by
  have running : Running c := ⟨live.ended, live.handler⟩
  obtain ⟨events, hungUp⟩ : c.events = [] ∧ c.hungUp = true := by
    have idle := rest.turn 0
    rw [← Option.not_isSome_iff_eq_none, isSome_turn] at idle
    have handler := live.handler
    simp [isBusy, live.ended, Progress.isCompleted, handler, rest.handles, rest.deadline] at idle
    tauto
  have inbound := h.hungUp running hungUp
  have started := live.started.mpr (live.active_of_inbound (by simp [inbound]))
  obtain ⟨writable, pending⟩ := h.waits live events (isOver started)
  exact ⟨inbound, writable, pending⟩

omit [DecidableEq W] in
theorem forall₂_concat {α β : Type} {r : α → β → Prop} {ps : List α} {p : α} {qs : List β}
    (h : List.Forall₂ r (ps ++ [p]) qs) : ∃ early q, qs = early ++ [q] ∧ List.Forall₂ r ps early ∧ r p q := by
  induction ps generalizing qs with
  | nil =>
    obtain ⟨q, none, hq, nothing, rfl⟩ := List.forall₂_cons_left_iff.mp h
    obtain rfl := List.forall₂_nil_left_iff.mp nothing
    exact ⟨[], q, rfl, .nil, hq⟩
  | cons a ps ih =>
    obtain ⟨b, qs, hb, rest, rfl⟩ := List.forall₂_cons_left_iff.mp h
    obtain ⟨early, q, rfl, some, hq⟩ := ih rest
    exact ⟨b :: early, q, rfl, .cons hb some, hq⟩

omit [DecidableEq W] in
theorem Ledger.endSent {taken done : List (Outbound Out)} {said : List ResponsePart}
    (h : Ledger s c taken said done) (outbound : c.progress.outbound = .ended) : EndSent s c := by
  have order := h.order
  rw [outbound] at order
  rcases List.eq_nil_or_concat' said with rfl | ⟨ps, p, rfl⟩
  · simp [OutboundPhase.follow] at order
  · obtain ⟨early, q, sent, -, emerges⟩ := forall₂_concat h.emerged
    rw [List.map_append, OutboundPhase.follow_append, Option.bind_eq_some_iff] at order
    obtain ⟨o, -, last⟩ := order
    cases p with
    | close status trailers => exact ⟨outbound, early, q, status, trailers, sent, emerges⟩
    | metadata => cases o <;> simp [OutboundPhase.follow, OutboundPhase.next?, ResponsePart.kind] at last
    | message => cases o <;> simp [OutboundPhase.follow, OutboundPhase.next?, ResponsePart.kind] at last

/-- **A call that comes to rest.** Once all handles were dropped, the handler ended, no deadline is to come and the loop
has nothing to do, the end was sent, unless the loop was cut off or the call is held back. -/
theorem endSent_of_rest (s : Setup σ Out In) (x : σ) (acts : List (Act Out W))
    (rest : AtRest s (run (step s) (new s x) acts))
    (isOver : (run (step s) (new s x) acts).hasStarted = true → (new s x).reported s acts ≠ []) :
    EndSent s (run (step s) (new s x) acts) ↔
      ¬ WasCutOff s (new s x) acts ∧ ¬ HeldBack (run (step s) (new s x) acts) := by
  obtain ⟨said, done, ledger⟩ := ledger_after s x acts
  have course := course_after s x acts
  rw [← crashed_after_iff]
  cases ledger.standing with
  | live live =>
    have heldBack := course.heldBack live rest isOver
    exact iff_of_false (fun ends => live.outbound ends.1) fun both => both.2 heldBack
  | closed outbound handler whole sub =>
    have nothing := (course.past handler).1
    exact iff_of_true (ledger.endSent outbound) ⟨by simp [whole], fun held => held.pending nothing⟩
  | cut outbound ended crashed sub =>
    exact iff_of_false (fun ends => by simp [ends.1] at outbound) fun both => both.1 crashed

end Run

/-- The transport stops being writable before the handler writes and returns, and is dropped behind the request. -/
def dropped : List (Act Bytes Nat) :=
  [.submit (.part (.metadata {})), .submit (.writable false), .submit (.part .close), .turn 0, .turn 0, .turn 0,
   .deed (.write ⟨[1], .inherit⟩), .deed (.returned none), .turn 0, .hangUp, .turn 0]

/-- The message of a call that is held back is never sent, nor is its end. -/
theorem endSent_of_dropped :
    AtRest plain (run (step plain) (new plain ()) dropped) ∧ (new plain ()).reported plain dropped = [none] ∧
    (new plain ()).accepted plain dropped = [⟨[1], .inherit⟩] ∧ (run (step plain) (new plain ()) dropped).sent = [] ∧
    ¬ EndSent plain (run (step plain) (new plain ()) dropped) := by
  have rest : AtRest plain (run (step plain) (new plain ()) dropped) := ⟨rfl, rfl, fun _ => rfl⟩
  have held : HeldBack (run (step plain) (new plain ()) dropped) := ⟨rfl, rfl, by decide⟩
  have ends := endSent_of_rest plain () dropped rest fun _ => by decide
  exact ⟨rest, rfl, rfl, rfl, fun sent => (ends.mp sent).2 held⟩

end CallLifecycle.Server.Call
