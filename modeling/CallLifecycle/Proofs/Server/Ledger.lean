import CallLifecycle.Proofs.Server.Turn
import Mathlib.Data.List.Infix
import Mathlib.Data.List.Induction

/-!
# The ledger of a server call

What a call has said is kept beside what its writer accepted, step by step.

* `Tidy` — the queue of the loop is in order: nothing is handed over behind the end of the writer;
* `Standing` — a call goes on, was closed, or was cut off;
* `Ledger`, `ledger_after` — **in every run** what was said is in order, its messages are the first of those
  that were accepted, and as long as the call goes on the others wait in the queue or in the writer;
* `sent_after`, `exists_step_of_sent` — what was sent stays sent, and was sent at a step.
-/

namespace CallLifecycle.Server.Call

variable {σ Out In W : Type} {s : Setup σ Out In} {c c' : Call σ Out In W}

/-! ## the queue of the loop -/

/-- The queue of the loop is in order, and the loop was told of the end of the writer or not. -/
structure Tidy (drained : Bool) (events : List (HandlerEvent Out)) (w : Writer (Outbound Out) Failure W) :
    Prop where
  told : drained = true ∨ (∃ e ∈ events, e.isDrained = true) → w.completion.isTerminated = true
  behind : drained = true → events.flatMap HandlerEvent.elements = []
  last : events.Pairwise fun e f => e.isDrained = true → f.elements = []

theorem flatMap_ofWriterEvent (es : List (WriterEvent (Outbound Out) Failure)) :
    (es.map ofWriterEvent).flatMap HandlerEvent.elements = handedOver es := by
  rw [handedOver, List.flatMap_map]
  congr 1
  funext e
  cases e <;> rfl

theorem isDrained_ofWriterEvent (e : WriterEvent (Outbound Out) Failure) :
    (ofWriterEvent e).isDrained = e.isEnd := by
  cases e <;> rfl

theorem Tidy.append {drained : Bool} {events : List (HandlerEvent Out)}
    {w w' : Writer (Outbound Out) Failure W} {added : List (Outbound Out)}
    {es : List (WriterEvent (Outbound Out) Failure)} (h : Tidy drained events w)
    (passes : w.Passes w' added es) (rs : List (HandlerEvent Out))
    (returns : ∀ e ∈ rs, ∃ o, e = .returned o) :
    Tidy drained (events ++ es.map ofWriterEvent ++ rs) w' := by
  have nothing : ∀ e ∈ rs, e.elements = [] ∧ e.isDrained = false := by
    intro e he
    obtain ⟨o, rfl⟩ := returns e he
    exact ⟨rfl, rfl⟩
  have none : rs.flatMap HandlerEvent.elements = [] := List.flatMap_eq_nil_iff.mpr fun e he => (nothing e he).1
  refine ⟨?_, ?_, ?_⟩
  · rintro (hd | ⟨e, he, hd⟩)
    · exact (passes.past (h.told (.inl hd))).2.2
    · rcases List.mem_append.mp he with he | he
      · rcases List.mem_append.mp he with he | he
        · exact (passes.past (h.told (.inr ⟨e, he, hd⟩))).2.2
        · obtain ⟨f, hf, rfl⟩ := List.mem_map.mp he
          exact passes.told f hf (by rwa [isDrained_ofWriterEvent] at hd)
      · simp [(nothing e he).2] at hd
  · intro hd
    obtain ⟨rfl, -, -⟩ := passes.past (h.told (.inl hd))
    simp [h.behind hd, none]
  · refine List.pairwise_append.mpr ⟨List.pairwise_append.mpr ⟨h.last, ?_, ?_⟩, ?_, ?_⟩
    · refine List.pairwise_map.mpr (passes.last.imp fun {e f} he hd => ?_)
      rw [isDrained_ofWriterEvent, he] at hd
      cases hd
    · intro e he f hf hd
      obtain ⟨rfl, -, -⟩ := passes.past (h.told (.inr ⟨e, he, hd⟩))
      simp at hf
    · exact List.pairwise_of_forall_mem_list fun e _ f hf _ => (nothing f hf).1
    · exact fun e _ f hf _ => (nothing f hf).1

theorem Tidy.tail {drained : Bool} {e : HandlerEvent Out} {rest : List (HandlerEvent Out)}
    {w : Writer (Outbound Out) Failure W} (h : Tidy drained (e :: rest) w) :
    Tidy (drained || e.isDrained) rest w := by
  obtain ⟨first, last⟩ := List.pairwise_cons.mp h.last
  refine ⟨?_, ?_, last⟩
  · rintro (hd | ⟨f, hf, hd⟩)
    · rcases Bool.or_eq_true _ _ ▸ hd with hd | hd
      · exact h.told (.inl hd)
      · exact h.told (.inr ⟨e, by simp, hd⟩)
    · exact h.told (.inr ⟨f, by simp [hf], hd⟩)
  · intro hd
    rcases Bool.or_eq_true _ _ ▸ hd with hd | hd
    · exact (List.append_eq_nil_iff.mp (h.behind hd)).2
    · exact List.flatMap_eq_nil_iff.mpr fun f hf => first f hf hd

/-! ## the ledger -/

/-- How a call stands between two steps: of the messages that were `taken` by its writer, those were
`done` that it said. -/
inductive Standing (c : Call σ Out In W) (taken done : List (Outbound Out)) : Prop
  /-- It goes on. The messages that were not said wait in the queue or in the writer. -/
  | live (h : Live c) (tidy : Tidy c.drained c.events c.writer)
      (sum : taken = done ++ c.queued ++ c.writer.pending)
  /-- It said the end. -/
  | closed (outbound : c.progress.outbound = .ended) (handler : c.progress.handler = .completed)
      (whole : c.crashed = false) (sub : done <+: taken)
  /-- It was cut off instead of starting its handler. -/
  | cut (outbound : c.progress.outbound = .headersPending) (ended : c.ended = true)
      (crashed : c.crashed = true) (sub : done <+: taken)

/-- The ledger of a call: what it said, and what of it was sent. -/
structure Ledger (s : Setup σ Out In) (c : Call σ Out In W) (taken : List (Outbound Out))
    (said : List ResponsePart) (done : List (Outbound Out)) : Prop where
  emerged : List.Forall₂ (Emerges s.pipeline) said c.sent
  order : OutboundPhase.headersPending.follow (said.map ResponsePart.kind) = some c.progress.outbound
  codes : List.Forall₂ s.codec.Encodes done (payloads said)
  sound : c.writer.Sound
  standing : Standing c taken done

theorem ledger_new (s : Setup σ Out In) (x : σ) : Ledger s (new s x : Call σ Out In W) [] [] [] := by
  refine ⟨.nil, rfl, .nil, Writer.sound_new _, .live ⟨⟨rfl, ?_⟩, ?_, ?_, ?_, fun _ => rfl, fun _ => rfl,
    fun _ => rfl, rfl, rfl, Writer.sound_new _⟩ ⟨?_, fun _ => rfl, .nil⟩ rfl⟩
  all_goals simp [new, hasStarted]

section Step

variable {taken done : List (Outbound Out)} {said : List ResponsePart}

theorem Ledger.of_frame (h : Ledger s c taken said done) (frame : Undisturbed c c')
    (sound : c'.writer.Sound) {taken' : List (Outbound Out)} (standing : Standing c' taken' done) :
    Ledger s c' taken' said done :=
  ⟨frame.sent_eq ▸ h.emerged, frame.progress ▸ h.order, h.codes, sound, standing⟩

theorem Live.of_frame (h : Live c) (frame : Undisturbed c c') (engaged : c'.engaged = c.engaged)
    (ended : c'.ended = c.ended) (sound : c'.writer.Sound)
    (events : c.progress.handler = .idle → c'.events = []) : Live c' := by
  have progress := frame.progress
  exact ⟨⟨frame.attached.trans h.attached, progress ▸ h.outbound⟩, progress ▸ h.handler,
    by rw [frame.hasStarted_eq, progress]; exact h.started, progress ▸ h.inbound, progress ▸ h.pending,
    fun idle => events (progress ▸ idle), fun idle => engaged.trans (h.engaged (progress ▸ idle)),
    ended.trans h.ended, frame.crashed.trans h.crashed, sound⟩

theorem Ledger.worked (h : Ledger s c taken said done) {added : List (Outbound Out)}
    (worked : Worked c c' added)
    (quiet : Live c → c.progress.handler = .idle → c'.events = c.events) :
    Ledger s c' (taken ++ added) said done := by
  obtain ⟨frame, ended, engaged, es, rs, passes, returns, events⟩ := worked
  refine h.of_frame frame passes.sound ?_
  cases h.standing with
  | live live tidy sum =>
    have going : c'.events = c.events ++ es.map ofWriterEvent ++ rs := by simp [events, live.ended]
    have none : rs.flatMap HandlerEvent.elements = [] := by
      refine List.flatMap_eq_nil_iff.mpr fun e he => ?_
      obtain ⟨o, rfl⟩ := returns e he
      rfl
    refine .live (live.of_frame frame engaged ended passes.sound fun idle => ?_) ?_ ?_
    · rw [quiet live idle, live.events idle]
    · rw [frame.drained, going]
      exact tidy.append passes _ returns
    · rw [queued, going, List.flatMap_append, List.flatMap_append, flatMap_ofWriterEvent, none, sum]
      simpa [queued] using passes.sum
  | closed outbound handler whole sub =>
    have progress := frame.progress
    exact .closed (progress ▸ outbound) (progress ▸ handler) (frame.crashed.trans whole)
      (sub.trans (List.prefix_append ..))
  | cut outbound ended' crashed sub =>
    have progress := frame.progress
    exact .cut (progress ▸ outbound) (ended.trans ended') (frame.crashed.trans crashed)
      (sub.trans (List.prefix_append ..))

theorem Ledger.concluded (h : Ledger s c taken said done) (concluded : Concluded c c') :
    Ledger s c' taken said done := by
  obtain ⟨frame, completed, before, -, writer⟩ := concluded
  refine h.of_frame frame (writer ▸ h.sound) ?_
  have handler : c.progress.handler = .completed := by simpa [Progress.isCompleted] using completed
  cases h.standing with
  | live live => exact absurd handler live.handler
  | closed outbound handler whole sub =>
    have progress := frame.progress
    exact .closed (progress ▸ outbound) (progress ▸ handler) (frame.crashed.trans whole) sub
  | cut _ ended => simp [ended] at before

theorem Ledger.say (h : Ledger s c taken said done) {ps qs : List ResponsePart} (sent : c'.sent = c.sent ++ qs)
    (emerges : List.Forall₂ (Emerges s.pipeline) ps qs)
    (order : c.progress.outbound.follow (ps.map ResponsePart.kind) = some c'.progress.outbound) :
    List.Forall₂ (Emerges s.pipeline) (said ++ ps) c'.sent ∧
    OutboundPhase.headersPending.follow ((said ++ ps).map ResponsePart.kind) = some c'.progress.outbound := by
  refine ⟨sent ▸ List.rel_append h.emerged emerges, ?_⟩
  rw [List.map_append, OutboundPhase.follow_append, h.order]
  exact order

theorem Ledger.closes (h : Ledger s c taken said done) {ps : List ResponsePart} (closes : Closes s c ps c')
    (whole : c.crashed = false) {n : List (Outbound Out)}
    (codes : List.Forall₂ s.codec.Encodes n (payloads ps)) (sub : done ++ n <+: taken) :
    ∃ said, Ledger s c' taken said (done ++ n) := by
  obtain ⟨status, trailers, qs, sent, emerges⟩ := closes.sent
  obtain ⟨o, order, goesOn⟩ := closes.order
  have ending : c.progress.outbound.follow ((ps ++ [ResponsePart.close status trailers]).map ResponsePart.kind) =
      some c'.progress.outbound := by
    rw [List.map_append, OutboundPhase.follow_append, order, closes.outbound]
    simp [OutboundPhase.follow, ResponsePart.kind, OutboundPhase.next?_close goesOn]
  obtain ⟨emerged, order'⟩ := h.say sent emerges ending
  refine ⟨_, emerged, order', ?_, closes.writer.sound h.sound,
    .closed closes.outbound closes.handler (closes.crashed.trans whole) sub⟩
  simpa using List.rel_append h.codes codes

theorem Ledger.same (h : Ledger s c taken said done) (sent : c'.sent = c.sent)
    (outbound : c'.progress.outbound = c.progress.outbound) (sound : c'.writer.Sound)
    (standing : Standing c' taken done) : Ledger s c' taken said done :=
  ⟨sent ▸ h.emerged, outbound ▸ h.order, h.codes, sound, standing⟩

theorem Live.of_speaks (h : Live c) (active : c.progress.handler = .active) {ps : List ResponsePart}
    (speaks : Speaks s c ps c') : Live c' := by
  have isOpen := speaks.isOpen h.toIsOpen
  have started := speaks.hasStarted_eq
  have outbound := speaks.goesOn
  rw [speaks.same] at isOpen started outbound ⊢
  exact ⟨isOpen, h.handler, by rw [started]; exact h.started, h.inbound, by simp [active], by simp [active],
    by simp [active], h.ended, h.crashed, h.sound⟩

theorem Live.of_note (h : Live c) (drained : Bool) (outcome : Option (Option Failure)) :
    Live { c with drained, outcome } :=
  ⟨⟨h.attached, h.outbound⟩, h.handler, h.started, h.inbound, h.pending, h.events, h.engaged, h.ended, h.crashed,
    h.sound⟩

theorem Live.of_handled (h : Live c) (idle : c.events = []) (handled : Handled c c') : Live c' := by
  obtain ⟨es, passes, events, quiet⟩ := handled.events
  refine ⟨⟨handled.attached.trans h.attached, handled.outbound ▸ h.outbound⟩, handled.handler ▸ h.handler, ?_, ?_,
    ?_, fun idle' => ?_, fun idle' => ?_, handled.ended.trans h.ended, handled.crashed.trans h.crashed,
    passes.sound⟩
  · rw [handled.hasStarted, handled.handler]
    exact h.started
  · rw [handled.inbound, handled.handler]
    exact h.inbound
  · rw [handled.handler, handled.outbound]
    exact h.pending
  · rw [handled.handler] at idle'
    simp [events, idle, quiet (h.engaged idle')]
  · rw [handled.handler] at idle'
    exact handled.engaged.trans (h.engaged idle')

theorem Live.of_starts (h : Live c) (starts : Starts c c') : Live c' :=
  ⟨⟨starts.attached.trans h.attached, starts.outbound ▸ h.outbound⟩, by simp [starts.handler],
    by simp [starts.handler, starts.hasStarted], by simp [starts.handler, starts.inbound], by simp [starts.handler],
    by simp [starts.handler], by simp [starts.handler], starts.ended.trans h.ended,
    starts.crashed.trans h.crashed, starts.passes.sound⟩

theorem elements_of_news {e : HandlerEvent Out} (news : e.isYielded = false) : e.elements = [] := by
  cases e with
  | yielded => cases news
  | _ => rfl

theorem upNext_prefix (c : Call σ Out In W) : c.upNext <+: c.queued := by
  rw [upNext, queued]
  cases c.events <;> simp

theorem Ledger.turned {now : Instant} (h : Ledger s c taken said done) (live : Live c)
    (tidy : Tidy c.drained c.events c.writer) (sum : taken = done ++ c.queued ++ c.writer.pending)
    (turned : Turned s now c c') : ∃ said done, Ledger s c' taken said done := by
  cases turned with
  | spoke batch rest ps next speaks codes =>
    have active := live.active_of_events (by simp [next])
    obtain ⟨qs, sent, emerges⟩ := speaks.sent_eq
    obtain ⟨emerged, order⟩ := h.say sent emerges speaks.order
    have live' := (live.of_queues rest c.commands c.inbox (by simp [next])).of_speaks active speaks
    refine ⟨_, done ++ batch, emerged, order, ?_, live'.sound, .live live' ?_ ?_⟩
    · rw [payloads_append]
      exact List.rel_append h.codes codes
    · rw [next] at tidy
      rw [speaks.same]
      simpa [HandlerEvent.isDrained] using tidy.tail
    · rw [speaks.same]
      simp [sum, queued, next, HandlerEvent.elements]
  | noted e rest next news same drained =>
    have live' := live.of_queues rest c.commands c.inbox (by simp [next])
    refine ⟨said, done, ?_⟩
    rw [same]
    refine h.same rfl rfl h.sound (.live (live'.of_note _ _) ?_ ?_)
    · rw [next] at tidy
      simpa [drained] using tidy.tail
    · simp [sum, queued, next, elements_of_news news]
  | ended e rest next news drained closes =>
    exact ⟨_, _, (h.closes closes live.crashed .nil (by simp [sum])).choose_spec⟩
  | handled idle handled =>
    obtain ⟨es, passes, events, -⟩ := handled.events
    refine ⟨said, done, h.same handled.sent handled.outbound passes.sound
      (.live (live.of_handled idle handled) ?_ ?_)⟩
    · simpa [handled.drained, events] using tidy.append passes [] (by simp)
    · rw [queued, events, List.flatMap_append, flatMap_ofWriterEvent, sum]
      simpa [queued] using passes.sum
  | started starts =>
    refine ⟨said, done, h.same starts.sent starts.outbound starts.passes.sound
      (.live (live.of_starts starts) ?_ ?_)⟩
    · simpa [starts.drained, starts.events] using tidy.append starts.passes [] (by simp)
    · rw [queued, starts.events, sum]
      simpa [queued] using starts.passes.sum
  | closed ps n closes codes why =>
    refine ⟨_, _, (h.closes closes live.crashed codes ?_).choose_spec⟩
    -- A call that closes amid messages has said the first of those that were to come next.
    rw [sum, List.append_assoc]
    exact (List.prefix_append_right_inj done).mpr
      ((List.take_prefix ..).trans (c.upNext_prefix.trans (List.prefix_append ..)))
  | crashed cut crashes =>
    refine ⟨said, done,
      h.same crashes.sent crashes.outbound crashes.sound (.cut ?_ crashes.ended crashes.crashed ?_)⟩
    · rw [crashes.outbound, live.pending crashes.idle]
    · simp [sum]

theorem Ledger.live_of_turn (h : Ledger s c taken said done) {now : Instant} (turn : c.turn s now = some c') :
    Live c ∧ Tidy c.drained c.events c.writer ∧ taken = done ++ c.queued ++ c.writer.pending := by
  cases h.standing with
  | live live tidy sum => exact ⟨live, tidy, sum⟩
  | closed _ handler => simp [Call.turn, Progress.isCompleted, handler] at turn
  | cut _ ended => simp [Call.turn, ended] at turn

/-- A step is entered. -/
theorem ledger_step [DecidableEq W] (h : Ledger s c taken said done) (a : Act Out W) :
    ∃ said done, Ledger s (c.step s a) (taken ++ c.accepts a) said done := by
  cases stepped s h.sound a with
  | turned now ha turn =>
    obtain ⟨live, tidy, sum⟩ := h.live_of_turn turn
    subst ha
    simpa [accepts] using h.turned live tidy sum (Call.turned live turn)
  | worked started worked =>
    exact ⟨said, done, h.worked worked fun live idle => by simp [live.started.mp started] at idle⟩
  | waited nothing worked events =>
    rw [nothing]
    exact ⟨said, done, h.worked worked fun _ _ => events⟩
  | concluded nothing concluded =>
    rw [nothing, List.append_nil]
    exact ⟨said, done, h.concluded concluded⟩

/-- **The ledger of every run.** -/
theorem ledger_after [DecidableEq W] (s : Setup σ Out In) (x : σ) (acts : List (Act Out W)) :
    ∃ said done, Ledger s (run (step s) (new s x) acts) ((new s x).accepted s acts) said done := by
  induction acts using List.reverseRecOn with
  | nil => exact ⟨[], [], ledger_new s x⟩
  | append_singleton acts a ih =>
    obtain ⟨said, done, h⟩ := ih
    rw [accepted, gather_snoc, ← accepted, run_append]
    exact ledger_step h a

theorem sent_step [DecidableEq W] (h : Ledger s c taken said done) (a : Act Out W) : c.sent <+: (c.step s a).sent := by
  cases stepped s h.sound a with
  | turned now ha turn =>
    obtain ⟨live, -⟩ := h.live_of_turn turn
    generalize c.step s a = c' at turn
    cases Call.turned live turn with
    | spoke batch rest ps next speaks codes =>
      obtain ⟨qs, sent, -⟩ := speaks.sent_eq
      exact ⟨qs, sent.symm⟩
    | noted e rest next news same drained =>
      rw [same]
      exact List.prefix_rfl
    | ended e rest next news drained closes =>
      obtain ⟨status, trailers, qs, sent, -⟩ := closes.sent
      exact ⟨qs, sent.symm⟩
    | handled idle handled => exact handled.sent ▸ List.prefix_rfl
    | started starts => exact starts.sent ▸ List.prefix_rfl
    | closed ps n closes codes why =>
      obtain ⟨status, trailers, qs, sent, -⟩ := closes.sent
      exact ⟨qs, sent.symm⟩
    | crashed cut crashes => exact crashes.sent ▸ List.prefix_rfl
  | worked started worked => exact worked.frame.sent_eq ▸ List.prefix_rfl
  | waited nothing worked events => exact worked.frame.sent_eq ▸ List.prefix_rfl
  | concluded nothing concluded => exact concluded.frame.sent_eq ▸ List.prefix_rfl

theorem sent_after [DecidableEq W] (h : Ledger s c taken said done) (acts : List (Act Out W)) :
    c.sent <+: (run (step s) c acts).sent := by
  induction acts generalizing c taken said done with
  | nil => exact List.prefix_rfl
  | cons a acts ih =>
    obtain ⟨said', done', behind⟩ := ledger_step h a
    exact (sent_step h a).trans (ih behind)

/-- What was sent was sent at a step. -/
theorem exists_step_of_sent [DecidableEq W] (x : σ) {p : ResponsePart} {acts : List (Act Out W)}
    (mem : p ∈ (run (step s) (new s x) acts).sent) :
    ∃ early a late, acts = early ++ a :: late ∧ p ∉ (run (step s) (new s x) early).sent ∧
      p ∈ ((run (step s) (new s x) early).step s a).sent := by
  induction acts using List.reverseRecOn with
  | nil => simp [new, sent] at mem
  | append_singleton acts a ih =>
    by_cases before : p ∈ (run (step s) (new s x) acts).sent
    · obtain ⟨early, b, late, rfl, unsent, now⟩ := ih before
      exact ⟨early, b, late ++ [a], by simp, unsent, now⟩
    · exact ⟨acts, a, [], rfl, before, by simpa using mem⟩

end Step

end CallLifecycle.Server.Call
