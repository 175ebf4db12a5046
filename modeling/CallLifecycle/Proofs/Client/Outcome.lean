import CallLifecycle.Proofs.Client.Course

/-!
# The outcome of a client call

* `over_step`, `over_after` — what a call yields that has ended is not changed by any step, but that messages and
  the single response are taken;
* `outcome_of_first_ending` — the first ending fixes what a call yields, and nothing is known before it.
-/

namespace CallLifecycle.Client.Call

variable {σ Out In W : Type} {s : Setup σ Out In} {c c' : Call σ Out In W}

/-! ## behind the first end -/

theorem idle_offer {w : Writer (Outbound Out) Failure W} (h : Idle w) (m : Outbound Out) :
    Idle (w.offer m).1 := by
  have sound := Writer.sound_offer h.sound m
  rcases Writer.offer_cases w m with ⟨why, e⟩ | ⟨hc, hw, e⟩ | ⟨hc, hw, adm, -, e⟩ <;> rw [e] at sound ⊢
  · exact h
  · exact h
  · rcases h.passing with passing | passing
    · simp [hw] at passing
    · simp [hc, Completion.isActive] at passing

theorem idle_finish {w : Writer (Outbound Out) Failure W} (h : Idle w) : Idle (w.finish none).1 := by
  have sound := Writer.sound_finish h.sound none
  rcases Writer.finish_cases h.sound none with ⟨-, e⟩ | ⟨-, -, e⟩ | ⟨-, hp, e⟩ <;> rw [e] at sound ⊢
  · exact h
  · exact ⟨sound, h.pending, .inr rfl⟩
  · exact absurd h.pending hp

theorem idle_pollCapacity [DecidableEq W] {w : Writer (Outbound Out) Failure W} (h : Idle w) (k : W) :
    Idle (w.pollCapacity k).1 := by
  rcases Writer.pollCapacity_cases w k with e | ⟨hp, -⟩
  · rw [e]
    exact h
  · exact absurd h.pending hp

theorem idle_pollDrained [DecidableEq W] {w : Writer (Outbound Out) Failure W} (h : Idle w) (k : W) :
    Idle (w.pollDrained k).1 := by
  rcases Writer.pollDrained_cases w k with e | ⟨hp, -⟩
  · rw [e]
    exact h
  · exact absurd h.pending hp

theorem reads_readMessage [DecidableEq W] {t : Token W} {ch : Channel In Status W} {o : Outcome In}
    (h : Reads t ch o) (w : W) :
    Reads (readMessage t ch w).1 (readMessage t ch w).2.1 { o with queue := o.queue.tail } := by
  cases h with
  | cut status raised terminal queue last =>
    simp only [readMessage, Token.poll, raised, if_true]
    exact .cut status raised terminal (by simp [queue]) last
  | whole raised terminal queue last =>
    cases hq : ch.queue with
    | nil =>
      cases ht : ch.terminal with
      | live => exact absurd ht terminal
      | _ =>
        simp only [readMessage, Token.poll, raised, Channel.poll, hq, ht]
        exact .whole rfl terminal (by simp [queue, hq]) last
    | cons m rest =>
      simp only [readMessage, Token.poll, raised, Channel.poll, hq]
      exact .whole rfl terminal (by simp [queue, hq]) last

theorem over_read [DecidableEq W] {o : Outcome In} (h : Over c o) (w : W) :
    Over (c.readResponse w).1 { o with queue := o.queue.tail } := by
  unfold readResponse
  cases hr : c.responses with
  | single p =>
    exact ⟨h.finished, h.initial, h.trailing, h.status, h.single, fun ch hc => by simp [hr] at hc,
      h.holdsWriter, h.writer⟩
  | stream ch =>
    refine ⟨h.finished, h.initial, h.trailing, h.status, fun p hp => by simp at hp, fun ch' hc => ?_,
      h.holdsWriter, h.writer⟩
    cases hc
    exact reads_readMessage (h.stream ch hr) w

theorem over_take [DecidableEq W] {o : Outcome In} (h : Over c o) (w : W) :
    Over (c.takeResponse w).1 { o with single := .error responseTaken } := by
  unfold takeResponse
  cases hr : c.responses with
  | single p =>
    refine ⟨h.finished, h.initial, h.trailing, h.status, fun q hq => ?_, fun ch hc => by simp at hc,
      h.holdsWriter, h.writer⟩
    cases hq
    refine .inr ⟨?_, rfl⟩
    rcases h.single p hr with slot | ⟨slot, -⟩ <;> simp [slot]
  | stream ch =>
    refine ⟨h.finished, h.initial, h.trailing, h.status, fun p hp => by simp [hr] at hp, fun ch' hc => ?_,
      h.holdsWriter, h.writer⟩
    have reads := h.stream ch' hc
    cases reads with
    | cut status raised terminal queue last => exact .cut status raised terminal queue last
    | whole raised terminal queue last => exact .whole raised terminal queue last

/-- Behind the end no step changes what a call yields, but that a response is taken and a stream read. -/
theorem over_step [DecidableEq W] {o : Outcome In} (h : Over c o) (a : Act Out W) :
    Over (c.step s a) (o.behind a) := by
  -- All that would end the call once more finds it finished, and an idle writer keeps nothing that it could hand over.
  have same {c' : Call σ Out In W} (e : c' = c) : Over c' o := e ▸ h
  cases a with
  | routed r =>
    cases r with
    | part p => exact same (by simp [step, onRouted, route, h.finished])
    | failure e => exact same (by simp [step, onRouted, fail, terminate_of_finished h.finished])
    | writable b => exact same (by simp [step, onRouted, setWritable, h.holdsWriter])
  | opening => exact h.of_eq rfl rfl rfl rfl rfl rfl h.holdsWriter h.writer
  | refused e => exact same (by simp [step, terminate_of_finished h.finished])
  | connected =>
    simp only [step]
    split
    · exact h.of_eq rfl rfl rfl rfl rfl rfl h.holdsWriter h.writer
    · exact h
  | arm =>
    simp only [step]
    split
    · split
      · exact h.of_eq rfl rfl rfl rfl rfl rfl h.holdsWriter h.writer
      · exact h
    · exact h
  | sendMetadata =>
    simp only [step]
    split
    · obtain ⟨x, es, e⟩ := sendMetadata_of_finished h.finished (s := s) (requestMetadata s.options (timeout s))
      rw [e]
      exact h.of_eq rfl rfl rfl rfl rfl rfl h.holdsWriter h.writer
    · exact h
  | sendMessage m => exact same (by simp [step, sendMessages_of_finished h.finished])
  | sendEnd => exact same (by simp [step, sendEnd_of_finished h.finished])
  | attachWriter =>
    simp only [step, attachWriter]
    split
    · rw [if_pos h.finished]
      exact h.of_eq rfl rfl rfl rfl rfl rfl h.holdsWriter (idle_cancel h.writer.sound _)
    · exact h
  | cancel => exact same (by simp [step, cancel, terminate_of_finished h.finished])
  | expire => exact same (by simp [step, expire, terminate_of_finished h.finished])
  | write m =>
    simp only [step, write, withWriter_of_finished h.finished]
    exact h.of_eq rfl rfl rfl rfl rfl rfl h.holdsWriter (idle_offer h.writer m)
  | awaitWrite w => exact h.of_eq rfl rfl rfl rfl rfl rfl h.holdsWriter (idle_pollCapacity h.writer w)
  | awaitDrained w => exact h.of_eq rfl rfl rfl rfl rfl rfl h.holdsWriter (idle_pollDrained h.writer w)
  | finish =>
    simp only [step, finishRequests, withWriter_of_finished h.finished]
    exact h.of_eq rfl rfl rfl rfl rfl rfl h.holdsWriter (idle_finish h.writer)
  | stopWriter =>
    simp only [step]
    split
    · exact h.of_eq rfl rfl rfl rfl rfl rfl h.holdsWriter (idle_cancel h.writer.sound _)
    · exact h
  | read w => exact over_read h w
  | take w => exact over_take h w
  | awaitInitial w => exact h.of_eq rfl (Promise.slot_poll _ w) rfl rfl rfl rfl h.holdsWriter h.writer
  | awaitTrailing w => exact h.of_eq rfl rfl (Promise.slot_poll _ w) rfl rfl rfl h.holdsWriter h.writer
  | awaitStatus w => exact h.of_eq rfl rfl rfl (Promise.slot_poll _ w) rfl rfl h.holdsWriter h.writer
  | awaitDone w => exact h.of_eq rfl rfl rfl rfl rfl rfl h.holdsWriter h.writer
  | drop =>
    simp only [step, drop]
    split <;> exact h.of_eq rfl rfl rfl rfl rfl rfl rfl h.writer

theorem over_after [DecidableEq W] {o : Outcome In} (h : Over c o) (acts : List (Act Out W)) :
    Over (run (step s) c acts) (o.behindAll acts) := by
  induction acts generalizing c o with
  | nil => exact h
  | cons a acts ih => exact ih (over_step h a)

/-! ## the first end -/

theorem live_new (s : Setup σ Out In) (shape : Shape) (runtime : Bool) (x : σ) :
    Live (new s shape runtime x : Call σ Out In W) := by
  refine ⟨rfl, rfl, rfl, by simp [new], rfl, fun ch hc => ?_, Writer.sound_new _, fun _ _ => rfl⟩
  cases hs : shape.streamsResponses <;> simp only [new, hs] at hc <;> cases hc
  rfl

theorem live_after [DecidableEq W] (h : Live c) {acts : List (Act Out W)} (undecided : Undecided s c acts) :
    Live (run (step s) c acts) := by
  induction acts generalizing c with
  | nil => exact h
  | cons a acts ih =>
    have goes := goes_step (s := s) h a
    rw [undecided.1] at goes
    exact ih goes undecided.2

/-- The first ending fixes the outcome of a call: before it the status is not known, at it all who wait for a
write are woken, and behind it everybody gets what the ending says, whatever else happens. -/
theorem outcome_of_first_ending [DecidableEq W] (s : Setup σ Out In) (shape : Shape) (runtime : Bool) (x : σ)
    (early : List (Act Out W)) (undecided : Undecided s (new s shape runtime x) early) :
    let c := run (step s) (new s shape runtime x) early
    (∀ w, (c.pollStatus w).2 = .pending) ∧
    ∀ a e, c.ending? s a = some e → Wakes c (c.step s a) ∧
      ∀ late, Yields (run (step s) (c.step s a) late) ((e.outcome c).behindAll late) := by
  intro c
  have live : Live c := live_after (live_new s shape runtime x) undecided
  refine ⟨fun w => ?_, fun a e ending => ?_⟩
  · simp [pollStatus, Promise.poll, live.status, Poll.map]
  · have goes := goes_step (s := s) live a
    rw [ending] at goes
    exact ⟨goes.wakes, fun late => (over_after goes.past late).yields⟩

/-- A client whose writes are suspended as soon as one is kept. -/
def narrow : Setup Unit Bytes Bytes where
  config := { writer := { high := 1, low := 0 } }
  options := {}
  codec := .bytes
  pipeline := []

/-- A call opens its stream, whose transport is not writable, and a write is suspended. -/
def suspendedWrite : List (Act Bytes Nat) :=
  opening [] none ++ [.attachWriter, .routed (.writable false), .write ⟨[1], .inherit⟩, .awaitWrite 0]

theorem outcome_of_suspendedWrite :
    let c := run (step narrow) (new narrow .bidi true ()) suspendedWrite
    let e := Ending.terminated (Status.of .cancelled "call was cancelled by the client")
    Undecided narrow (new narrow .bidi true ()) suspendedWrite ∧ (c.pollWrite 0).2 = .pending ∧
    c.ending? narrow .cancel = some e ∧ Wakes c (c.step narrow .cancel) ∧
    Yields (run (step narrow) (c.step narrow .cancel) [.finish, .routed (.part (.close { code := .ok } {}))])
      (e.outcome c) := by
  intro c e
  have undecided : Undecided narrow (new narrow .bidi true ()) suspendedWrite :=
    ⟨rfl, rfl, rfl, rfl, rfl, rfl, rfl, rfl, trivial⟩
  have ending : c.ending? narrow .cancel = some e := rfl
  obtain ⟨-, ends⟩ := outcome_of_first_ending narrow .bidi true () suspendedWrite undecided
  obtain ⟨wakes, yields⟩ := ends .cancel e ending
  exact ⟨undecided, rfl, ending, wakes, yields _⟩

end CallLifecycle.Client.Call
