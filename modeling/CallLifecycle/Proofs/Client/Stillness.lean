import CallLifecycle.Proofs.Client.Stepping

/-!
# Steps of a client call that send nothing

* `Still`, `still_step` — a step that sends nothing leaves the stream and the request writer of a call that goes on as
  they are;
* `sent_step` — **what was sent stays sent**, at every step.
-/

namespace CallLifecycle.Client.Call

variable {σ Out In W : Type} {s : Setup σ Out In} {c c' c'' : Call σ Out In W}

/-! ## what sends nothing -/

/-- A step that sends nothing, and hands nothing to the request writer. A call that goes on behind it keeps what it
holds. -/
structure Still (c c' : Call σ Out In W) : Prop where
  sent : c'.sent = c.sent
  writer : c.writer.Leads c'.writer
  pending : c.writer.pending = [] → c'.writer.pending = []
  holds : c'.holdsWriter = true → c.holdsWriter = true
  going : Going c' → Going c ∧ c'.attached = c.attached ∧ c'.writer.pending = c.writer.pending ∧
    c'.writer.completion = c.writer.completion ∧ c'.trace.any Effect.isStopping = c.trace.any Effect.isStopping

theorem Still.refl (c : Call σ Out In W) : Still c c :=
  ⟨rfl, .refl _, id, id, fun h => ⟨h, rfl, rfl, rfl, rfl⟩⟩

theorem Still.trans (h : Still c c') (k : Still c' c'') : Still c c'' := by
  refine ⟨k.sent.trans h.sent, h.writer.trans k.writer, k.pending ∘ h.pending, h.holds ∘ k.holds, fun going => ?_⟩
  obtain ⟨going', attached', pending', completion', stopping'⟩ := k.going going
  obtain ⟨going, attached, pending, completion, stopping⟩ := h.going going'
  exact ⟨going, attached'.trans attached, pending'.trans pending, completion'.trans completion,
    stopping'.trans stopping⟩

theorem still_of_same (alive : c'.alive = c.alive) (finished : c'.finished = c.finished)
    (attached : c'.attached = c.attached) (holds : c'.holdsWriter = c.holdsWriter) (writer : c'.writer = c.writer)
    {es : List (Effect W)} (hushed : Hushed es) (trace : c'.trace = c.trace ++ es) : Still c c' := by
  refine ⟨?_, writer ▸ .refl _, fun h => writer ▸ h, fun h => holds ▸ h, fun h => ?_⟩
  · simp [sent_eq, trace, hushed.sent]
  · exact ⟨⟨alive ▸ h.1, finished ▸ h.2⟩, attached, by rw [writer], by rw [writer], by simp [trace, hushed.unstopped]⟩

theorem still_beside (c : Call σ Out In W) (x : σ) {es : List (Effect W)} (hushed : Hushed es) :
    Still c (c.beside x es) :=
  still_of_same rfl rfl rfl rfl rfl hushed rfl

theorem still_of_writer {w : Writer (Outbound Out) Failure W} (sound : c.writer.Sound → w.Sound)
    (pending : w.pending = c.writer.pending) (completion : w.completion = c.writer.completion) :
    Still c { c with writer := w } :=
  ⟨rfl, ⟨sound, fun past => completion ▸ past⟩, fun h => pending.trans h, id,
    fun h => ⟨h, rfl, pending, completion, rfl⟩⟩

theorem still_of_gone (sent : c'.sent = c.sent) (writer : c.writer.Leads c'.writer)
    (pending : c.writer.pending = [] → c'.writer.pending = []) (holds : c'.holdsWriter = true → c.holdsWriter = true)
    (gone : ¬ Going c') : Still c c' :=
  ⟨sent, writer, pending, holds, fun h => absurd h gone⟩

theorem pending_cancel {w : Writer (Outbound Out) Failure W} (empty : w.pending = []) (e : Failure) :
    (w.cancel e).1.pending = [] := by
  rcases Writer.cancel_cases w e with ⟨-, eq⟩ | ⟨-, eq⟩ <;> rw [eq]
  exact empty

theorem leads_stopped (c : Call σ Out In W) (stop : Stop) : c.writer.Leads (c.stopped stop) := by
  unfold stopped
  split
  · exact Writer.leads_cancel _ _
  · exact .refl _

theorem pending_stopped (c : Call σ Out In W) (stop : Stop) (empty : c.writer.pending = []) :
    (c.stopped stop).pending = [] := by
  unfold stopped
  split
  · exact pending_cancel empty _
  · exact empty

theorem still_settledBy (e : Ending) (stop : Stop) {trace : List (Effect W)}
    (sent : trace.filterMap Effect.part? = c.trace.filterMap Effect.part?) : Still c (c.settledBy e stop trace) := by
  refine still_of_gone ?_ (leads_stopped c stop) (pending_stopped c stop) ?_ (not_going_of_finished rfl)
  · simpa [sent_eq, settledBy] using sent
  · exact fun holds => by simp [settledBy] at holds

theorem still_terminate (c : Call σ Out In W) (status : Status) (stop : Stop) : Still c (c.terminate status stop) := by
  by_cases going : c.finished = false
  · have sent := sent_terminate c status stop
    rw [sent_eq, sent_eq] at sent
    rw [terminate_eq_settledBy going]
    exact still_settledBy _ stop sent
  · rw [terminate_of_finished (by simpa using going)]
    exact .refl c

theorem still_complete (c : Call σ Out In W) (status : Status) (trailers : Metadata) :
    Still c (c.complete status trailers) := by
  by_cases going : c.finished = false
  · have sent := sent_complete c status trailers
    rw [sent_eq, sent_eq] at sent
    rw [complete_eq_settledBy going]
    exact still_settledBy _ .inline sent
  · rw [complete, if_pos (by simpa using going)]
    exact .refl c

theorem still_route (c : Call σ Out In W) (p : ResponsePart) : Still c (c.route s p) := by
  have routing := routing s c p
  generalize c.route s p = c' at routing ⊢
  generalize c.violation? s p = reason at routing
  cases routing with
  | ignored => exact .refl c
  | rejected r x es hushed => exact (still_beside c x hushed).trans (still_terminate _ _ _)
  | violated reason x es hushed => exact (still_beside c x hushed).trans (still_terminate _ _ _)
  | undecodable data o r x es hushed => exact (still_beside c x hushed).trans (still_terminate _ _ _)
  | taken q x es initial responses hushed => exact still_of_same rfl rfl rfl rfl rfl hushed rfl
  | closed status trailers x es hushed => exact (still_beside c x hushed).trans (still_complete _ _ _)

section Steps

variable [DecidableEq W]

theorem still_step {a : Act Out W}
    (unstopped : a = .stopWriter → Going c → c.trace.any Effect.isStopping = false)
    (passive : a.isPassive = true) : Still c (c.step s a) := by
  have stepped := stepped s c a
  have inactive (active : a.isPassive = false) : False := by simp [passive] at active
  generalize c.step s a = c' at stepped ⊢
  cases stepped with
  | beside x es hushed => exact still_beside c x hushed
  | ended status => exact still_terminate c _ _
  | routed p => exact still_route c p
  | said r c' active => exact (inactive active).elim
  | used r active => exact (inactive active).elim
  | connected connects =>
    subst connects
    cases passive
  | engaged active => exact (inactive active).elim
  | stopped why =>
    obtain ⟨stops, stopping⟩ := why.resolve_left inactive
    refine still_of_gone ?_ (Writer.leads_cancel _ _) (fun empty => pending_cancel empty _) id fun going => ?_
    · simp [cancelWriter, sent_eq, emit, (hushed_woke _).sent]
    · have unstopped := unstopped stops ⟨going.1, going.2⟩
      simp [stopping] at unstopped
  | awaited w sound pending completion => exact still_of_writer sound pending completion
  | waited => exact still_of_same rfl rfl rfl rfl rfl hushed_nil (by simp)
  | read w =>
    unfold readResponse
    split
    · exact .refl c
    · exact still_of_same rfl rfl rfl rfl rfl hushed_nil (by simp)
  | took w =>
    unfold takeResponse
    split
    · exact still_of_same rfl rfl rfl rfl rfl hushed_nil (by simp)
    · exact .refl c
  | dropped =>
    have sent : c.drop.sent = c.sent := by
      unfold drop
      split <;> simp [sent_eq, emit, Effect.part?]
    have writer : c.drop.writer = c.writer := by
      unfold drop
      split <;> rfl
    exact still_of_gone sent (writer ▸ .refl _) (fun empty => writer ▸ empty) (fun holds => by simp [drop] at holds)
      fun going => by simp [drop, Going] at going

end Steps

/-! ## what was sent stays sent -/

theorem Sends.sent {stop : Stop} {r : Except Status σ} (h : Sends c stop r c') : c.sent <+: c'.sent := by
  cases h with
  | on y es => simp [sent_eq, Call.beside]
  | off status y es =>
    rw [sent_terminate]
    simp [sent_eq, Call.beside]

theorem sent_withWriter (s : Setup σ Out In) (c : Call σ Out In W)
    (r : Writer (Outbound Out) Failure W × List (WriterEvent (Outbound Out) Failure) × List W) :
    c.sent <+: (c.withWriter s r).sent := by
  by_cases finished : c.finished = true
  · simp [withWriter_of_finished finished, sent_eq, (hushed_woke _).sent]
  by_cases alive : c.alive = true
  · have sends := sends_events (s := s) (c := { c with writer := r.1 }) (by simpa using finished) alive r.2.1
    unfold withWriter
    simpa [sent_eq, emit, (hushed_woke _).sent] using sends.sent
  · simp [withWriter_of_dropped (c := c) (by simpa using alive), sent_eq, (hushed_woke _).sent]

theorem sent_step [DecidableEq W] (s : Setup σ Out In) (c : Call σ Out In W) (a : Act Out W) :
    c.sent <+: (c.step s a).sent := by
  have stepped := stepped s c a
  generalize c.step s a = c' at stepped ⊢
  cases stepped with
  | beside x es => simp [sent_eq, Call.beside]
  | ended status => simp
  | routed p => simp [(still_route (s := s) c p).sent]
  | said r c' active ends sends => exact sends.sent
  | used r => exact sent_withWriter s c r
  | connected | engaged | awaited | waited => exact List.prefix_rfl
  | stopped => simp [cancelWriter, sent_eq, emit, (hushed_woke _).sent]
  | read w =>
    unfold readResponse
    split <;> exact List.prefix_rfl
  | took w =>
    unfold takeResponse
    split <;> exact List.prefix_rfl
  | dropped =>
    unfold drop
    split <;> simp [sent_eq, emit, Effect.part?]

end CallLifecycle.Client.Call
