import CallLifecycle.Proofs.Client.Ending
import Mathlib.Data.List.Basic

/-!
# Sending in the name of a client call

* `Spoken`, `Sends` — all that sending does to a call: it goes on, or ends with the failure that stopped the sending;
* `sends_messages`, `sends_end`, `sends_events`, … — parts, messages and all that a request writer hands over;
* `sendMessages_of_finished`, … — nothing is sent for a call that has ended;
* `begin_eq_run` — a call that starts at once takes the steps of `beginning`.
-/

namespace CallLifecycle.Client.Call

variable {σ Out In W : Type} {s : Setup σ Out In} {c c' : Call σ Out In W}

def beside (c : Call σ Out In W) (x : σ) (es : List (Effect W)) : Call σ Out In W :=
  { c with surroundings := x, trace := c.trace ++ es }

@[simp] theorem beside_nil (c : Call σ Out In W) : c.beside c.surroundings [] = c := by
  simp [beside]

theorem beside_beside (c : Call σ Out In W) (x y : σ) (es fs : List (Effect W)) :
    (c.beside x es).beside y fs = c.beside y (es ++ fs) := by
  simp [beside]

/-- Effects that ask nothing of the stream but to send some parts, and that only if it is held. -/
def Spoken (c : Call σ Out In W) (es : List (Effect W)) : Prop :=
  ∃ ps, es.filterMap Effect.call? = ps.map StreamCall.send ∧ (c.attached = false → ps = [])

@[simp] theorem spoken_nil (c : Call σ Out In W) : Spoken c [] := ⟨[], rfl, fun _ => rfl⟩

theorem spoken_append {es fs : List (Effect W)} (h : Spoken c es) (k : Spoken c fs) : Spoken c (es ++ fs) := by
  obtain ⟨ps, sends, held⟩ := h
  obtain ⟨qs, sends', held'⟩ := k
  refine ⟨ps ++ qs, by simp [sends, sends'], fun detached => ?_⟩
  rw [held detached, held' detached, List.append_nil]

theorem calls_visited (vs : List Visit) :
    (vs.map (Effect.visited : Visit → Effect W)).filterMap Effect.call? = [] := by
  simp [List.filterMap_map, Effect.call?, Function.comp_def]

theorem calls_woke (ws : List W) : (ws.map Effect.woke).filterMap Effect.call? = [] := by
  simp [List.filterMap_map, Effect.call?, Function.comp_def]

theorem sendPart_cases (s : Setup σ Out In) (c : Call σ Out In W) (p : RequestPart) (o : SendOptions) :
    ∃ y es, Spoken c es ∧ ((s.sendPart c.surroundings p = .ok y ∧ c.sendPart s p o = (c.beside y es, none)) ∨
      ∃ r, s.sendPart c.surroundings p = .error r ∧ c.sendPart s p o = (c.beside y es, some r)) := by
  unfold Setup.sendPart sendPart
  rcases s.pipeline.request p c.surroundings with ⟨⟨q, rejection, visits⟩, y⟩
  cases rejection with
  | some r => exact ⟨y, visits.map .visited, ⟨[], calls_visited visits, fun _ => rfl⟩, .inr ⟨r, rfl, rfl⟩⟩
  | none =>
    refine ⟨y, visits.map .visited ++ if c.attached then [.sent q o] else [], ?_, .inl ⟨rfl, ?_⟩⟩ <;>
      by_cases attached : c.attached = true
    · exact ⟨[q], by simp [attached, Effect.call?], fun detached => by simp [attached] at detached⟩
    · exact ⟨[], by simp [attached, Effect.call?], fun _ => rfl⟩
    · simp [emit, beside, attached]
    · simp [emit, beside, attached]

theorem finished_terminate (c : Call σ Out In W) (status : Status) (stop : Stop) :
    (c.terminate status stop).finished = true := by
  by_cases going : c.finished = false
  · rw [terminate_eq going, finish_eq, cutOff_eq]
  · rw [terminate, if_pos (by simpa using going)]
    simpa using going

/-! ## what is not sent any more -/

theorem withWriter_of_ignored
    {r : Writer (Outbound Out) Failure W × List (WriterEvent (Outbound Out) Failure) × List W}
    (ignored : ∀ e, ({ c with writer := r.1 }).onWriterEvent s e = { c with writer := r.1 }) :
    c.withWriter s r = { c with writer := r.1, trace := c.trace ++ r.2.2.map .woke } := by
  rw [withWriter, List.foldl_fixed' ignored]
  rfl

theorem withWriter_of_dropped (dropped : c.alive = false)
    (r : Writer (Outbound Out) Failure W × List (WriterEvent (Outbound Out) Failure) × List W) :
    c.withWriter s r = { c with writer := r.1, trace := c.trace ++ r.2.2.map .woke } := by
  refine withWriter_of_ignored fun e => ?_
  rcases e with batch | _ | _ <;> simp [onWriterEvent, dropped]

section Finished

variable (finished : c.finished = true)

include finished

theorem terminate_of_finished (status : Status) (stop : Stop) : c.terminate status stop = c := by
  rw [terminate, if_pos finished]

theorem sendMessages_of_finished (stop : Stop) (batch : List (Outbound Out)) :
    c.sendMessages s stop batch = c := by
  cases batch with
  | nil => rfl
  | cons m rest => rw [sendMessages, if_pos finished]

theorem sendEnd_of_finished (stop : Stop) : c.sendEnd s stop = c := by
  rw [sendEnd, if_pos finished]

theorem onWriterEvent_of_finished (e : WriterEvent (Outbound Out) Failure) :
    c.onWriterEvent s e = c := by
  rcases e with batch | _ | _
  · simp [onWriterEvent, sendMessages_of_finished finished]
  · simp [onWriterEvent, sendEnd_of_finished finished]
  · rfl

theorem withWriter_of_finished
    (r : Writer (Outbound Out) Failure W × List (WriterEvent (Outbound Out) Failure) × List W) :
    c.withWriter s r = { c with writer := r.1, trace := c.trace ++ r.2.2.map .woke } :=
  withWriter_of_ignored fun e => onWriterEvent_of_finished (c := { c with writer := r.1 }) finished e

theorem sendMetadata_of_finished (m : Metadata) :
    ∃ x es, c.sendMetadata s m = c.beside x es := by
  obtain ⟨y, es, -, h⟩ := sendPart_cases s c (.metadata m) {}
  unfold sendMetadata
  rcases h with ⟨-, e⟩ | ⟨r, -, e⟩ <;> simp only [e]
  · exact ⟨y, es, rfl⟩
  · exact ⟨y, es, terminate_of_finished (c := c.beside y es) finished _ _⟩

end Finished

/-! ## sending for a call that goes on -/

/-- What sending does to a call: it goes on, or ends with the failure that stopped the sending. -/
inductive Sends (c : Call σ Out In W) (stop : Stop) : Except Status σ → Call σ Out In W → Prop
  | on (y : σ) (es : List (Effect W)) (spoken : Spoken c es) : Sends c stop (.ok y) (c.beside y es)
  | off (status : Status) (y : σ) (es : List (Effect W)) (spoken : Spoken c es) :
      Sends c stop (.error status) ((c.beside y es).terminate status stop)

theorem Sends.refl (c : Call σ Out In W) (stop : Stop) : Sends c stop (.ok c.surroundings) c := by
  have h : Sends c stop (.ok c.surroundings) (c.beside c.surroundings []) := .on _ _ (spoken_nil c)
  rwa [beside_nil] at h

theorem sends_beside {x : σ} {es : List (Effect W)} (spoken : Spoken c es) {stop : Stop} {r : Except Status σ}
    (h : Sends (c.beside x es) stop r c') : Sends c stop r c' := by
  cases h with
  | on y fs spoken' =>
    rw [beside_beside]
    exact .on y _ (spoken_append spoken spoken')
  | off status y fs spoken' =>
    rw [beside_beside]
    exact .off status y _ (spoken_append spoken spoken')

theorem sends_metadata (c : Call σ Out In W) (m : Metadata) :
    Sends c .inline (s.sendPart c.surroundings (.metadata m)) (c.sendMetadata s m) := by
  obtain ⟨y, es, spoken, h⟩ := sendPart_cases s c (.metadata m) {}
  unfold sendMetadata
  rcases h with ⟨h, e⟩ | ⟨r, h, e⟩ <;> simp only [h, e]
  · exact .on y es spoken
  · exact .off r y es spoken

theorem sends_end (going : c.finished = false) (stop : Stop) :
    Sends c stop (s.sendPart c.surroundings .close) (c.sendEnd s stop) := by
  obtain ⟨y, es, spoken, h⟩ := sendPart_cases s c .close {}
  rw [sendEnd, if_neg (by simp [going])]
  rcases h with ⟨h, e⟩ | ⟨r, h, e⟩ <;> simp only [h, e]
  · exact .on y es spoken
  · exact .off r y es spoken

theorem sends_messages (going : c.finished = false) (stop : Stop) (batch : List (Outbound Out)) :
    Sends c stop (s.sendMessages c.surroundings batch) (c.sendMessages s stop batch) := by
  induction batch generalizing c with
  | nil => exact .refl c _
  | cons m rest ih =>
    rw [sendMessages, if_neg (by simp [going]), Setup.sendMessages]
    have e (x : σ) : { c with surroundings := x } = c.beside x [] := by simp [beside]
    simp only [e]
    rcases s.codec.encode m.message c.surroundings with ⟨status | data, x⟩
    · exact .off status x [] (spoken_nil c)
    · obtain ⟨y, es, spoken, h⟩ := sendPart_cases s (c.beside x []) (.message data)
        { compress := shouldCompress s.config.compression m.compression s.options.compression }
      change s.sendPart x (.message data) = .ok y ∧ _ ∨ ∃ r, s.sendPart x (.message data) = .error r ∧ _ at h
      rw [beside_beside, List.nil_append] at h
      rcases h with ⟨h, e⟩ | ⟨r, h, e⟩ <;> simp only [h, e]
      · exact sends_beside (c := c) spoken (ih (c := c.beside y es) going)
      · exact .off r y es spoken

/-- A request writer that hands something over sends it, up to the end of the call. -/
theorem sends_events (going : c.finished = false) (alive : c.alive = true)
    (events : List (WriterEvent (Outbound Out) Failure)) :
    Sends c .deferred (s.sendEvents c.surroundings events)
      (events.foldl (fun c e => c.onWriterEvent s e) c) := by
  induction events generalizing c with
  | nil => exact .refl c _
  | cons e rest ih =>
    rw [List.foldl_cons]
    -- What becomes of the rest depends on whether the first event ended the call.
    have chain {r : Except Status σ} (h : Sends c .deferred r (c.onWriterEvent s e)) :
        Sends c .deferred (r >>= fun x => s.sendEvents x rest)
          (rest.foldl (fun c e => c.onWriterEvent s e) (c.onWriterEvent s e)) := by
      generalize c.onWriterEvent s e = c' at h ⊢
      cases h with
      | on y es spoken => exact sends_beside spoken (ih going alive)
      | off status y es spoken =>
        rw [List.foldl_fixed' (onWriterEvent_of_finished (finished_terminate _ _ _))]
        exact .off status y es spoken
    match e with
    | .yielded batch =>
      refine chain ?_
      rw [onWriterEvent, if_pos alive]
      exact sends_messages going .deferred batch
    | .terminated none =>
      refine chain ?_
      rw [onWriterEvent, if_pos alive]
      exact sends_end going .deferred
    | .terminated (some _) => exact ih going alive

/-! ## the start of a call -/

theorem alive_terminate (c : Call σ Out In W) (status : Status) (stop : Stop) :
    (c.terminate status stop).alive = c.alive := by
  by_cases going : c.finished = false
  · rw [terminate_eq going, finish_eq, cutOff_eq]
  · rw [terminate, if_pos (by simpa using going)]

theorem alive_complete (c : Call σ Out In W) (status : Status) (trailers : Metadata) :
    (c.complete status trailers).alive = c.alive := by
  by_cases going : c.finished = false
  · rw [complete_eq going, finish_eq, closed_eq]
  · rw [complete, if_pos (by simpa using going)]

theorem Sends.alive {stop : Stop} {r : Except Status σ} (h : Sends c stop r c') : c'.alive = c.alive := by
  cases h with
  | on y es => rfl
  | off status y es => exact alive_terminate _ status stop

theorem alive_sendMessages (c : Call σ Out In W) (stop : Stop) (batch : List (Outbound Out)) :
    (c.sendMessages s stop batch).alive = c.alive := by
  by_cases going : c.finished = false
  · exact (sends_messages going stop batch).alive
  · rw [sendMessages_of_finished (by simpa using going)]

theorem alive_withWriter (alive : c.alive = true)
    (r : Writer (Outbound Out) Failure W × List (WriterEvent (Outbound Out) Failure) × List W) :
    (c.withWriter s r).alive = true := by
  by_cases going : c.finished = false
  · exact (sends_events (c := { c with writer := r.1 }) going alive r.2.1).alive.trans alive
  · rw [withWriter_of_finished (by simpa using going)]
    exact alive

theorem alive_onMessage (c : Call σ Out In W) (data : Bytes) : (c.onMessage s data).alive = c.alive := by
  unfold onMessage
  split
  · exact alive_terminate c _ _
  · rcases s.codec.decode data c.surroundings with ⟨status | m, x⟩
    · exact alive_terminate _ _ _
    · cases hr : c.responses with
      | single p =>
        by_cases settled : p.isCompleted = true
        · simp only [Promise.complete_of_completed settled]
          exact alive_terminate _ _ _
        · simp only [Promise.complete_of_pending settled]
          rfl
      | stream ch => rfl

theorem alive_route (c : Call σ Out In W) (p : ResponsePart) : (c.route s p).alive = c.alive := by
  unfold route
  split
  · rfl
  · rcases s.pipeline.response p c.surroundings with ⟨⟨q, rejection, visits⟩, y⟩
    cases rejection with
    | some r => exact alive_terminate _ _ _
    | none =>
      cases q with
      | metadata m =>
        by_cases known : c.initial.isCompleted = true
        · simp only [settleInitial, emit, Promise.complete_of_completed known]
          exact alive_terminate _ _ _
        · simp only [settleInitial, emit, Promise.complete_of_pending known]
      | message data o => exact alive_onMessage _ _
      | close status trailers => exact alive_complete _ _ _

theorem alive_onRouted (alive : c.alive = true) (r : Routed) : (c.onRouted s r).alive = true := by
  cases r with
  | part p => exact (alive_route c p).trans alive
  | failure e =>
    simp only [onRouted, fail, if_pos alive]
    exact (alive_terminate c _ _).trans alive
  | writable b =>
    simp only [onRouted, setWritable]
    split
    · exact alive_withWriter alive _
    · exact alive

/-- While its stream is opened the transport may tell a call things. -/
theorem foldl_onRouted [DecidableEq W] (s : Setup σ Out In) (alive : c.alive = true) (rs : List Routed) :
    rs.foldl (fun c r => c.onRouted s r) c = run (step s) c (rs.map .routed) ∧
      (run (step s) c (rs.map .routed)).alive = true := by
  induction rs generalizing c with
  | nil => exact ⟨rfl, alive⟩
  | cons r rs ih => exact ih (alive_onRouted alive r)

theorem start_eq_run [DecidableEq W] (s : Setup σ Out In) (alive : c.alive = true) (meanwhile : List Routed)
    (failure : Option Failure) :
    c.start s meanwhile failure = run (step s) c (opening meanwhile failure) ∧
      (run (step s) c (opening meanwhile failure)).alive = true := by
  obtain ⟨told, alive⟩ := foldl_onRouted s (c := c.emit [.opened]) alive meanwhile
  unfold start opening
  rw [told, List.cons_append, run_cons, run_append]
  change _ = run (step s) (run (step s) (c.emit [.opened]) _) _ ∧
    (run (step s) (run (step s) (c.emit [.opened]) _) _).alive = true
  generalize run (step s) (c.emit [.opened]) (meanwhile.map .routed) = d at alive ⊢
  cases failure with
  | some e =>
    simp only [run_cons, run_nil, step, if_pos alive]
    exact ⟨trivial, (alive_terminate d _ _).trans alive⟩
  | none =>
    have armed : (step s (step s d .connected) .arm).alive = true := by
      simp only [step, if_pos alive]
      split
      · split <;> exact alive
      · exact alive
    simp only [run_cons, run_nil]
    rw [step.eq_def s _ .sendMetadata]
    simp only [if_pos armed]
    refine ⟨?_, (sends_metadata _ _).alive.trans armed⟩
    simp only [step, if_pos alive]
    rfl

/-- A call that starts at once takes the steps of its beginning. -/
theorem begin_eq_run [DecidableEq W] (s : Setup σ Out In) (alive : c.alive = true) (shape : Shape)
    (request : Out) (meanwhile : List Routed) (failure : Option Failure) :
    c.begin s shape request meanwhile failure = run (step s) c (beginning shape request meanwhile failure) := by
  obtain ⟨started, alive⟩ := start_eq_run s alive meanwhile failure
  unfold begin beginning
  rw [run_append, started]
  generalize run (step s) c (opening meanwhile failure) = d at alive ⊢
  cases shape.streamsRequests
  · have alive' := (alive_sendMessages (s := s) d .inline [{ message := request }]).trans alive
    simp only [Bool.false_eq_true, if_false, sendSingle, run_cons, run_nil, step, if_pos alive,
      if_pos alive']
  · simp only [if_true, run_cons, run_nil, step, if_pos alive]

end CallLifecycle.Client.Call
