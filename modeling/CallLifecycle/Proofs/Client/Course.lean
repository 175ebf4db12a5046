import CallLifecycle.Proofs.Client.Sending

/-!
# The course of a client call

* `Goes` — what a step makes of a call that has not ended: it goes on, or ends as foretold by `ending?`;
* `goes_message`, `goes_route`, `goes_withWriter` — response messages, response parts and what comes out of the
  request writer;
* `goes_step` — every step.
-/

namespace CallLifecycle.Client

/-- A step that neither sends nor ends anything. -/
def Act.isQuiet {Out W : Type} : Act Out W → Bool
  | .routed _ | .refused _ | .sendMetadata | .sendMessage _ | .sendEnd | .cancel | .expire | .write _ | .finish =>
    false
  | _ => true

namespace Call

variable {σ Out In W : Type} {s : Setup σ Out In} {c c' : Call σ Out In W}

/-- What a step makes of a call that has not ended. -/
def Goes (c c' : Call σ Out In W) : Option Ending → Prop
  | none => Live c'
  | some e => Ends c c' e

theorem live_beside (h : Live c) (x : σ) (es : List (Effect W)) : Live (c.beside x es) :=
  ⟨h.finished, h.status, h.trailing, h.initial, h.cancellation, h.responses, h.sound, h.idle⟩

theorem Live.of_writer (h : Live c) {w : Writer (Outbound Out) Failure W} (sound : w.Sound)
    (writable : w.writable = c.writer.writable) (trace : List (Effect W)) : Live { c with writer := w, trace } :=
  ⟨h.finished, h.status, h.trailing, h.initial, h.cancellation, h.responses, sound,
    fun alive holds => writable.trans (h.idle alive holds)⟩

theorem goes_of_beside (x : σ) (es : List (Effect W)) {o : Option Ending} (h : Goes (c.beside x es) c' o) :
    Goes c c' o := by
  cases o with
  | none => exact h
  | some e => exact ⟨h.past, h.wakes.of_trace (List.prefix_append _ _) rfl⟩

theorem over_emit {o : Outcome In} (h : Over c o) (es : List (Effect W)) : Over (c.emit es) o :=
  h.of_eq rfl rfl rfl rfl rfl rfl h.holdsWriter h.writer

/-! ## what the transport tells -/

theorem goes_terminate (h : Live c) (alive : c.alive = true) (status : Status) :
    Goes c (c.terminate status .inline) (some (.terminated status)) :=
  ends_terminate h (idle_stopped h alive) status

/-- Response metadata settles the initial metadata, and must not come twice. -/
theorem goes_metadata (h : Live c) (alive : c.alive = true) (m : Metadata) :
    Goes c
      (match c.settleInitial (.ok m) with
      | (c, true) => c
      | (c, false) => c.violation "response metadata received twice")
      (if c.initial.isCompleted then some (.ofViolation "response metadata received twice") else none) := by
  by_cases known : c.initial.isCompleted = true
  · have e : c.settleInitial (.ok m) = (c, false) := by
      simp [settleInitial, Promise.complete_of_completed known, emit]
    simp only [e, known, if_true]
    exact goes_terminate h alive _
  · simp only [settleInitial, Promise.complete_of_pending known, known]
    refine ⟨h.finished, h.status, h.trailing, fun taken => ?_, h.cancellation, h.responses, h.sound, h.idle⟩
    cases taken

theorem goes_message (h : Live c) (alive : c.alive = true) (data : Bytes) :
    Goes c (c.onMessage s data) (c.messageEnding? s c.surroundings data) := by
  unfold onMessage messageEnding?
  by_cases known : c.initial.isCompleted = true
  · rw [if_neg (by simp [known]), if_neg (by simp [known])]
    rcases s.codec.decode data c.surroundings with ⟨status | m, x⟩
    · have e : { c with surroundings := x } = c.beside x [] := by simp [beside]
      simp only [e]
      exact goes_of_beside x [] (goes_terminate (live_beside h x []) alive status)
    · cases hr : c.responses with
      | single p =>
        by_cases settled : p.isCompleted = true
        · have e : ({ c with surroundings := x, responses := .single p }).emit [] = c.beside x [] := by
            simp [emit, beside, hr]
          simp only [Promise.complete_of_completed settled, hasResponse, hr, settled, List.map_nil, e]
          exact goes_of_beside x [] (goes_terminate (live_beside h x []) alive _)
        · simp only [Promise.complete_of_pending settled, hasResponse, hr, settled]
          refine ⟨h.finished, h.status, h.trailing, h.initial, h.cancellation, fun ch hc => ?_, h.sound, h.idle⟩
          cases hc
      | stream ch =>
        have live := h.responses ch hr
        simp only [hasResponse, hr]
        refine ⟨h.finished, h.status, h.trailing, h.initial, h.cancellation, fun ch' hc => ?_, h.sound, h.idle⟩
        cases hc
        unfold Channel.push
        rw [if_neg (by simp [Channel.isTerminated, live, Terminal.isLive])]
        cases ch.waiter <;> exact live
  · rw [if_pos (by simp [known]), if_pos (by simp [known])]
    exact goes_terminate h alive _

theorem goes_route (h : Live c) (alive : c.alive = true) (p : ResponsePart) :
    Goes c (c.route s p) (c.partEnding? s p) := by
  unfold route partEnding?
  rw [if_neg (by simp [alive, h.finished])]
  rcases s.pipeline.response p c.surroundings with ⟨⟨q, rejection, visits⟩, y⟩
  have e : ({ c with surroundings := y }).emit (visits.map .visited) = c.beside y (visits.map .visited) := rfl
  simp only [e]
  have h' := live_beside h y (visits.map .visited)
  cases rejection with
  | some r => exact goes_of_beside y _ (goes_terminate h' alive r)
  | none =>
    refine goes_of_beside y (visits.map .visited) ?_
    cases q with
    | metadata m => exact goes_metadata h' alive m
    | message data o => exact goes_message h' alive data
    | close status trailers => exact ends_complete h' (idle_stopped h' alive) status trailers

/-! ## sending -/

theorem goes_of_sends {stop : Stop} {r : Except Status σ} (h : Live c) (sends : Sends c stop r c')
    (idle : ∀ status, r = .error status → Idle (c.stopped stop)) : Goes c c' (Ending.ofSending r) := by
  cases sends with
  | on y es => exact live_beside h y es
  | off status y es => exact goes_of_beside y es (ends_terminate (live_beside h y es) (idle status rfl) status)

/-- What an operation of the request writer does to its call. Where it hands something over, it leaves nothing
behind and wakes all who wait. -/
theorem goes_withWriter (h : Live c) (alive : c.alive = true)
    (r : Writer (Outbound Out) Failure W × List (WriterEvent (Outbound Out) Failure) × List W)
    (sound : r.1.Sound) (writable : c.holdsWriter = false → r.1.writable = true)
    (idle : r.2.1 ≠ [] → Idle r.1) (woken : r.2.1 ≠ [] → ∀ k ∈ c.writer.writeWaiters, k ∈ r.2.2) :
    Goes c (c.withWriter s r) (Ending.ofSending (s.sendEvents c.surroundings r.2.1)) := by
  have h' : Live { c with writer := r.1 } :=
    ⟨h.finished, h.status, h.trailing, h.initial, h.cancellation, h.responses, sound, fun _ => writable⟩
  have events (status : Status) (e : s.sendEvents c.surroundings r.2.1 = .error status) : r.2.1 ≠ [] := by
    rintro nil
    simp [nil, Setup.sendEvents] at e
  -- The writer is in use while it hands over, so that its call cannot stop it at once: it has to be idle by itself.
  have goes := goes_of_sends h' (sends_events h'.finished alive r.2.1) fun status e => by
    rw [stopped, if_neg (by simp)]
    exact idle (events status e)
  unfold withWriter
  generalize r.2.1.foldl (fun c e => c.onWriterEvent s e) { c with writer := r.1 } = c' at goes ⊢
  rcases hr : s.sendEvents c.surroundings r.2.1 with status | y <;> simp only [hr, Ending.ofSending] at goes ⊢
  · obtain ⟨past, es, trace, -⟩ := goes
    refine ⟨over_emit past _, es ++ r.2.2.map .woke, by simp [emit, trace], fun k hk => ?_⟩
    exact List.mem_append_right _ (List.mem_map_of_mem (woken (events status hr) k hk))
  · exact live_beside goes _ _

/-! ## every step -/

theorem idle_of_offer {w : Writer (Outbound Out) Failure W} (h : w.Sound) (m : Outbound Out)
    (handed : (w.offer m).2.2 ≠ []) : Idle (w.offer m).1 ∧ w.writeWaiters = [] := by
  rcases Writer.offer_cases w m with ⟨why, e⟩ | ⟨hc, hw, e⟩ | ⟨hc, hw, adm, -, e⟩ <;> rw [e] at handed ⊢
  · exact absurd rfl handed
  · exact ⟨⟨h, h.writable hw, .inl hw⟩, h.writers (h.writable hw)⟩
  · exact absurd rfl handed

theorem idle_of_finish {w : Writer (Outbound Out) Failure W} (h : w.Sound)
    (handed : (w.finish none).2.1 ≠ []) : Idle (w.finish none).1 ∧ w.writeWaiters = [] := by
  have sound := Writer.sound_finish h none
  rcases Writer.finish_cases h none with ⟨-, e⟩ | ⟨-, hp, e⟩ | ⟨-, -, e⟩ <;> rw [e] at handed sound ⊢
  · exact absurd rfl handed
  · exact ⟨⟨sound, hp, .inr rfl⟩, h.writers hp⟩
  · exact absurd rfl handed

theorem idle_of_setWritable {w : Writer (Outbound Out) Failure W} (h : w.Sound) (b : Bool)
    (handed : (w.setWritable b).2.1 ≠ []) :
    Idle (w.setWritable b).1 ∧ ∀ k ∈ w.writeWaiters, k ∈ (w.setWritable b).2.2 := by
  have sound := Writer.sound_setWritable h b
  rcases Writer.setWritable_cases h b with ⟨-, e⟩ | ⟨-, -, e⟩ | ⟨-, -, -, e⟩ | ⟨-, -, r, -, e⟩ <;>
    rw [e] at handed sound ⊢
  · exact absurd rfl handed
  · exact absurd rfl handed
  · exact ⟨⟨sound, rfl, .inl rfl⟩, fun k hk => List.mem_append_left _ hk⟩
  · exact ⟨⟨sound, rfl, .inl rfl⟩, fun k hk => List.mem_append_left _ hk⟩

theorem live_read [DecidableEq W] (h : Live c) (w : W) : Live (c.readResponse w).1 := by
  unfold readResponse
  cases hr : c.responses with
  | single p => exact h
  | stream ch =>
    have live := h.responses ch hr
    refine ⟨h.finished, h.status, h.trailing, h.initial, ?_, fun ch' hc => ?_, h.sound, h.idle⟩
    · simp [readMessage, Token.poll, h.cancellation]
    · cases hc
      cases hq : ch.queue <;> simp [Token.poll, h.cancellation, Channel.poll, hq, live]

theorem live_take [DecidableEq W] (h : Live c) (w : W) : Live (c.takeResponse w).1 := by
  unfold takeResponse
  cases hr : c.responses with
  | single p =>
    refine ⟨h.finished, h.status, h.trailing, h.initial, h.cancellation, fun ch hc => ?_, h.sound, h.idle⟩
    cases hc
  | stream ch => exact h

theorem ending?_of_isQuiet {a : Act Out W} (quiet : a.isQuiet = true) : c.ending? s a = none := by
  cases a with
  | routed | refused | sendMetadata | sendMessage | sendEnd | cancel | expire | write | finish => cases quiet
  | _ => simp [ending?, handsOver, Setup.sendEvents, Ending.ofSending]

theorem live_step_of_isQuiet [DecidableEq W] (h : Live c) {a : Act Out W} (quiet : a.isQuiet = true) :
    Live (c.step s a) := by
  cases a with
  | routed | refused | sendMetadata | sendMessage | sendEnd | cancel | expire | write | finish => cases quiet
  | opening => exact live_beside h c.surroundings _
  | connected =>
    simp only [step]
    split
    · exact ⟨h.finished, h.status, h.trailing, h.initial, h.cancellation, h.responses, h.sound, h.idle⟩
    · exact h
  | arm =>
    simp only [step]
    split
    · split
      · exact live_beside h c.surroundings _
      · exact h
    · exact h
  | attachWriter =>
    simp only [step, attachWriter]
    rw [if_neg (c := c.finished = true) (by simp [h.finished])]
    split
    · refine ⟨h.finished, h.status, h.trailing, h.initial, h.cancellation, h.responses, h.sound,
        fun _ holds => ?_⟩
      cases holds
    · exact h
  | awaitWrite w =>
    exact h.of_writer (Writer.sound_pollCapacity h.sound w) (c.writer.writable_pollCapacity w) _
  | awaitDrained w =>
    exact h.of_writer (Writer.sound_pollDrained h.sound w) (c.writer.writable_pollDrained w) _
  | stopWriter =>
    simp only [step]
    split
    · exact h.of_writer (Writer.sound_cancel h.sound _) (c.writer.writable_cancel _) _
    · exact h
  | read w => exact live_read h w
  | take w => exact live_take h w
  | awaitInitial w =>
    exact ⟨h.finished, h.status, h.trailing, (Promise.slot_poll c.initial w).trans_ne h.initial, h.cancellation,
      h.responses, h.sound, h.idle⟩
  | awaitTrailing w =>
    exact ⟨h.finished, h.status, (Promise.slot_poll c.trailing w).trans h.trailing, h.initial, h.cancellation,
      h.responses, h.sound, h.idle⟩
  | awaitStatus w =>
    exact ⟨h.finished, (Promise.slot_poll c.status w).trans h.status, h.trailing, h.initial, h.cancellation,
      h.responses, h.sound, h.idle⟩
  | awaitDone w =>
    exact ⟨h.finished, h.status, h.trailing, h.initial, h.cancellation, h.responses, h.sound, h.idle⟩
  | drop =>
    simp only [step, drop]
    split <;>
    · refine ⟨h.finished, h.status, h.trailing, h.initial, h.cancellation, h.responses, h.sound,
        fun alive => ?_⟩
      cases alive

theorem live_step_of_dropped [DecidableEq W] (h : Live c) (dropped : c.alive = false) (a : Act Out W) :
    Live (c.step s a) := by
  have same {c' : Call σ Out In W} (e : c' = c) : Live c' := e ▸ h
  by_cases quiet : a.isQuiet = true
  · exact live_step_of_isQuiet h quiet
  · cases a with
    | routed r =>
      cases r with
      | part p => exact same (by simp [step, onRouted, route, dropped])
      | failure e => exact same (by simp [step, onRouted, fail, dropped])
      | writable b => exact same (by simp [step, onRouted, setWritable, dropped])
    | refused e => exact same (by simp [step, dropped])
    | sendMetadata => exact same (by simp [step, dropped])
    | sendMessage m => exact same (by simp [step, dropped])
    | sendEnd => exact same (by simp [step, dropped])
    | cancel => exact same (by simp [step, dropped])
    | expire => exact same (by simp [step, expire, dropped])
    | write m =>
      simp only [step, write, withWriter_of_dropped dropped]
      exact h.of_writer (Writer.sound_offer h.sound m) (c.writer.writable_offer m) _
    | finish =>
      simp only [step, finishRequests, withWriter_of_dropped dropped]
      exact h.of_writer (Writer.sound_finish h.sound none) (c.writer.writable_finish none) _
    | _ => exact absurd rfl quiet

theorem goes_step [DecidableEq W] (h : Live c) (a : Act Out W) : Goes c (c.step s a) (c.ending? s a) := by
  by_cases quiet : a.isQuiet = true
  · rw [ending?_of_isQuiet quiet]
    exact live_step_of_isQuiet h quiet
  by_cases alive : c.alive = true
  · unfold ending?
    rw [if_neg (by simp [alive])]
    -- What is left are the steps that send or end something, of a call that somebody holds.
    cases a with
    | routed r =>
      cases r with
      | part p => exact goes_route h alive p
      | failure e =>
        simp only [step, onRouted, fail, if_pos alive]
        exact goes_terminate h alive _
      | writable b =>
        simp only [step, onRouted, setWritable, alive, handsOver]
        by_cases holds : c.holdsWriter = true
        · rw [if_pos holds, if_pos (by simp [holds])]
          have idle := idle_of_setWritable h.sound b
          exact goes_withWriter h alive _ (Writer.sound_setWritable h.sound b) (by simp [holds])
            (fun handed => (idle handed).1) (fun handed => (idle handed).2)
        · rw [if_neg holds, if_neg (by simp [holds])]
          exact h
    | refused e =>
      simp only [step, if_pos alive]
      exact goes_terminate h alive _
    | sendMetadata =>
      simp only [step, if_pos alive]
      exact goes_of_sends h (sends_metadata c _) fun _ _ => idle_stopped h alive
    | sendMessage m =>
      simp only [step, if_pos alive]
      exact goes_of_sends h (sends_messages h.finished _ _) fun _ _ => idle_stopped h alive
    | sendEnd =>
      simp only [step, if_pos alive]
      exact goes_of_sends h (sends_end h.finished _) fun _ _ => idle_stopped h alive
    | cancel =>
      simp only [step, if_pos alive]
      exact goes_terminate h alive _
    | expire =>
      simp only [step, expire, if_pos alive]
      exact goes_terminate h alive _
    | write m =>
      have idle := idle_of_offer h.sound m
      exact goes_withWriter h alive _ (Writer.sound_offer h.sound m)
        (fun holds => (c.writer.writable_offer m).trans (h.idle alive holds)) (fun handed => (idle handed).1)
        fun handed => by simp [(idle handed).2]
    | finish =>
      have idle := idle_of_finish h.sound
      exact goes_withWriter h alive _ (Writer.sound_finish h.sound none)
        (fun holds => (c.writer.writable_finish none).trans (h.idle alive holds)) (fun handed => (idle handed).1)
        fun handed => by simp [(idle handed).2]
    | _ => exact absurd rfl quiet
  · unfold ending?
    rw [if_pos (by simp [alive])]
    exact live_step_of_dropped h (by simpa using alive) a

end Call

end CallLifecycle.Client
