import CallLifecycle.Proofs.Server.Rest
import CallLifecycle.Proofs.Server.Waking

/-!
# The end of the loop lets go of all that the handler holds

* `Tenure`, `tenure_after` — the handler is cancelled at the latest when the loop ends;
* `kept_docket`, `Numbered`, `numbered_after` — a setting is answered under a number of its own, once;
* `step_of_ended`, `crashes_of_turn` — what may still change behind the end of the loop, and how that comes about;
* `Gone`, `Freed` — a loop that is over: whatever the handler and its clones hold fails or is ready;
* `releases_of_ended` — **the end of the loop releases all that the handler holds**, whatever ended it.
-/

namespace CallLifecycle.Server

def Command.number? : Command → Option Nat
  | .set id _ => some id
  | .abort _ => none

namespace Call

variable {σ Out In W : Type} {s : Setup σ Out In} {c c' : Call σ Out In W}

/-! ## what the handler holds -/

/-- What the handler holds is cancelled at the latest when the loop ends, and nobody waits for an answer then. -/
structure Tenure (c : Call σ Out In W) : Prop where
  held : c.hasStarted = true → c.engaged = true ∨ c.cancellation.raised = true
  stopped : c.ended = true → c.hasStarted = true →
    c.progress.handler = .completed ∧ c.engaged = false ∧ c.replyWaiters = []

theorem tenure_new (s : Setup σ Out In) (x : σ) : Tenure (new s x : Call σ Out In W) :=
  ⟨by simp [new, hasStarted], by simp [new]⟩

theorem raised_raise (t : Token W) : t.raise.1.raised = true := by
  unfold Token.raise
  split
  · assumption
  · rfl

theorem Tenure.of_same (h : Tenure c) (ended : c'.ended = false) (hasStarted : c'.hasStarted = c.hasStarted)
    (engaged : c'.engaged = c.engaged) (cancellation : c'.cancellation = c.cancellation) : Tenure c' := by
  refine ⟨fun started => ?_, fun stopped => by simp [ended] at stopped⟩
  rw [engaged, cancellation]
  exact h.held (hasStarted ▸ started)

theorem Tenure.advance (h : Tenure c) (live : Live c) {now : Instant} (advance : Advance s now c c') : Tenure c' := by
  have going := live.ended
  cases advance with
  | spoke batch rest ps next speaks =>
    have hasStarted := speaks.hasStarted_eq
    rw [speaks.same] at hasStarted ⊢
    exact h.of_same going hasStarted rfl rfl
  | noted e rest next news same waits =>
    rw [same]
    exact h.of_same going rfl rfl rfl
  | concluded e rest outcome next news drained reported concludes =>
    have hasStarted := concludes.hasStarted
    rw [concludes.same] at hasStarted ⊢
    exact h.of_same going hasStarted rfl rfl
  | gaveUp e d fails tried givenUp =>
    have hasStarted := givenUp.hasStarted.trans tried.hasStarted
    rw [givenUp.same, tried.same] at hasStarted ⊢
    refine ⟨fun started => .inr ?_, fun stopped => by simp [going] at stopped⟩
    cases engaged : c.engaged with
    | true => exact raised_raise c.cancellation
    | false => simpa [engaged] using h.held (hasStarted ▸ started)
  | applied id setting rest idle orders same =>
    rw [same]
    refine h.of_same going ?_ rfl rfl
    simp [hasStarted, (silent_woke c.replyWaiters).any_eq]
  | started p m rest deadline vs takes idle same =>
    rw [same]
    exact ⟨fun _ => .inl rfl, fun stopped => by simp [going] at stopped⟩
  | cutOff p m rest takes cut crashes requests writer =>
    have unstarted : c'.hasStarted = false := by
      rw [crashes.hasStarted]
      simpa [crashes.idle] using live.started
    exact ⟨fun started => by simp [unstarted] at started, fun _ started => by simp [unstarted] at started⟩
  | delivered p data m rest x es takes receiving decoded silent same =>
    rw [same]
    refine h.of_same going ?_ rfl rfl
    simp [hasStarted, silent.any_eq]
  | closed p rest es takes receiving silent same =>
    rw [same]
    refine h.of_same going ?_ rfl rfl
    simp [hasStarted, silent.any_eq]
  | writable b rest idle orders inbox same =>
    rw [same]
    split
    · have frame := undisturbed_withWriter { c with inbox := rest, writable := b } (c.writer.setWritable b)
      have hasStarted := frame.hasStarted_eq
      rw [withWriter_eq] at hasStarted ⊢
      exact h.of_same going hasStarted rfl rfl
    · exact h.of_same going rfl rfl rfl
  | noticed idle orders inbox handles unnoticed whole same =>
    rw [same]
    exact h.of_same going rfl rfl rfl

theorem conclude_eq (before : c.ended = false) (completed : c.progress.isCompleted = true) :
    c.conclude =
      { c with engaged := false, cancellation := if c.engaged then c.cancellation.raise.1 else c.cancellation,
               ended := true, inbox := [], events := [], commands := [], completionWaiters := [],
               replyWaiters := [], trace := c.conclude.trace } := by
  have going : ¬ (c.ended || !c.progress.isCompleted) = true := by simp [before, completed]
  cases engaged : c.engaged with
  | true => simp only [conclude, if_neg going, engaged, if_true, raiseCancellation_eq, emit_eq]
  | false =>
    rcases c with ⟨⟩
    simp only at engaged
    subst engaged
    simp only [conclude, if_neg going, emit_eq]
    rfl

/-! ## behind the end of the loop -/

section Steps

variable [DecidableEq W]

/-- Behind the end of the loop a step changes no more than the streams of the handler and its cancellation. -/
theorem step_of_ended (ended : c.ended = true) (a : Act Out W) :
    c.step s a =
      { c with handles := (c.step s a).handles, requests := (c.step s a).requests, writer := (c.step s a).writer,
               cancellation := (c.step s a).cancellation, trace := (c.step s a).trace } := by
  rcases c with ⟨⟩
  obtain rfl : _ = true := ended
  cases a with
  | hangUp =>
    simp only [step, hangUp]
    split <;> rfl
  | deed d =>
    simp only [step]
    split
    · cases d with
      | write m => simp [perform, write, withWriter_eq]
      | finish => simp [perform, finishResponses, withWriter_eq]
      | awaitReply id w =>
        simp only [perform, pollReply]
        split <;> rfl
      | returned outcome => simp [perform, returned, report, finishResponses, closeRequests_eq, tell_eq, withWriter_eq]
      | lost => simp [perform, lost, report, finishResponses, closeRequests_eq, tell_eq, withWriter_eq]
      | _ => rfl
    · rfl
  | _ => rfl

/-! ## what the handler holds, in every run -/

omit [DecidableEq W] in
theorem Tenure.undisturbed (h : Tenure c) (frame : Undisturbed c c') (engaged : c'.engaged = c.engaged)
    (ended : c'.ended = c.ended) (raised : c.cancellation.raised = true → c'.cancellation.raised = true)
    (answers : c.ended = true → c'.replyWaiters = c.replyWaiters) : Tenure c' := by
  have hasStarted := frame.hasStarted_eq
  refine ⟨fun started => ?_, fun stopped started => ?_⟩
  · rw [engaged]
    exact (h.held (hasStarted ▸ started)).imp id raised
  · obtain ⟨handler, free, nobody⟩ := h.stopped (ended ▸ stopped) (hasStarted ▸ started)
    exact ⟨by rw [frame.progress, handler], engaged.trans free, (answers (ended ▸ stopped)).trans nobody⟩

omit [DecidableEq W] in
theorem Tenure.conclude (h : Tenure c) : Tenure c.conclude := by
  rcases concluded_conclude c with same | ⟨frame, completed, before, -, -⟩
  · rwa [same]
  · have hasStarted := frame.hasStarted_eq
    rw [conclude_eq before completed] at hasStarted ⊢
    refine ⟨fun started => .inr ?_, fun _ _ => ⟨by simpa [Progress.isCompleted] using completed, rfl, rfl⟩⟩
    cases engaged : c.engaged with
    | true => exact raised_raise c.cancellation
    | false => simpa [engaged] using h.held (hasStarted ▸ started)

theorem Tenure.step (h : Tenure c) {taken done : List (Outbound Out)} {said : List ResponsePart}
    (ledger : Ledger s c taken said done) (a : Act Out W) : Tenure (c.step s a) := by
  cases outside : a.isOutside with
  | true =>
    obtain ⟨inbox, handles, completionWaiters, es, silent, same⟩ := step_of_outside s c outside
    rw [same]
    exact h.undisturbed ⟨rfl, rfl, rfl, rfl, rfl, rfl, rfl, rfl, rfl, rfl, rfl, es, silent, rfl⟩ rfl rfl id fun _ => rfl
  | false =>
    cases a with
    | turn now =>
      cases turn : c.turn s now with
      | none => simpa [Call.step, turn] using h
      | some c' =>
        obtain ⟨live, -⟩ := ledger.live_of_turn turn
        simpa [Call.step, turn] using h.advance live (Call.advance live turn)
    | conclude => exact h.conclude
    | deed d =>
      simp only [Call.step]
      split
      · rename_i started
        have worked := worked_perform ledger.sound d
        have fetched := fetched_perform ledger.sound started d
        refine h.undisturbed worked.frame worked.engaged worked.ended (fun raised => ?_) fun ended => ?_
        · exact fetched.raised.elim (fun same => same.trans raised) And.right
        · -- Behind the end of the loop a deed leaves no waker for an answer.
          have same := step_of_ended (s := s) ended (.deed d)
          simp only [Call.step, if_pos started] at same
          rw [same]
      · exact h
    | _ => cases outside

theorem tenure_after (s : Setup σ Out In) (x : σ) (acts : List (Act Out W)) : Tenure (run (step s) (new s x) acts) := by
  refine run_induction (tenure_new s x) fun early a tenure => ?_
  obtain ⟨said, done, ledger⟩ := ledger_after s x early
  exact tenure.step ledger a

end Steps

/-! ## orders and answers -/

theorem kept_docket : Kept (fun c c' : Call σ Out In W => c'.docket = c.docket) where
  trans h k := k.trans h
  beside := Beside.docket
  disengage c := by
    rw [disengage_eq]
    rfl

theorem docket_startHandler (s : Setup σ Out In) (now : Instant) (c : Call σ Out In W) (m : Metadata)
    (going : (c.startHandler s now m).ended = false) : (c.startHandler s now m).docket = c.docket := by
  unfold startHandler at going ⊢
  split
  · rename_i overruns
    simp [overruns, crash, emit_eq] at going
  · rfl

theorem docket_onForwarded (s : Setup σ Out In) (now : Instant) (c : Call σ Out In W) (p : RequestPart)
    (going : (c.onForwarded s now p).ended = false) : (c.onForwarded s now p).docket = c.docket := by
  cases p with
  | metadata m => exact docket_startHandler s now c m going
  | message data =>
    rcases decoded : s.codec.decode data c.surroundings with ⟨status | m, x⟩ <;> simp only [onForwarded, decoded]
    · exact kept_docket.cancel s _ _
    · exact (beside_deliver _ _).docket
  | close =>
    simp only [onForwarded]
    split <;> rfl

theorem docket_onPart (s : Setup σ Out In) (now : Instant) (c : Call σ Out In W) (p : RequestPart)
    (going : (c.onPart s now p).ended = false) : (c.onPart s now p).docket = c.docket := by
  revert going
  unfold onPart
  simp only
  split
  · exact fun _ => kept_docket.cancel s _ _
  · split
    · exact docket_onForwarded s now _ _
    · exact fun _ => rfl
    · exact fun _ => kept_docket.cancel s _ _

theorem docket_onInbound (s : Setup σ Out In) (now : Instant) (c : Call σ Out In W) (i : Inbound)
    (going : (c.onInbound s now i).ended = false) : (c.onInbound s now i).docket = c.docket := by
  cases i with
  | part p => exact docket_onPart s now c p going
  | error e => exact kept_docket.cancel s c e
  | finish => exact kept_docket.cancel s c _
  | writable b =>
    simp only [onInbound]
    split
    · rw [withWriter_eq]
      rfl
    · rfl

/-- The numbers of the settings that were answered or wait for the loop, in the order in which they were issued. -/
def numbers (c : Call σ Out In W) : List Nat := c.replies.map Prod.fst ++ c.commands.filterMap Command.number?

theorem numbers_of_docket (same : c'.docket = c.docket) : c'.numbers = c.numbers ∧ c'.nextReply = c.nextReply := by
  simp only [docket, Prod.mk.injEq] at same
  simp [numbers, same]

theorem numbers_onCommand (s : Setup σ Out In) {o : Command} {rest : List Command} (orders : c.commands = o :: rest) :
    ({ c with commands := rest }.onCommand s o).numbers = c.numbers ∧
      ({ c with commands := rest }.onCommand s o).nextReply = c.nextReply := by
  cases o with
  | abort reason =>
    obtain ⟨numbers, nextReply⟩ :=
      numbers_of_docket (kept_docket.cancel s { c with commands := rest } (.violation reason))
    refine ⟨numbers.trans ?_, nextReply⟩
    rw [Call.numbers, Call.numbers, orders]
    rfl
  | set id setting =>
    obtain ⟨headers, trailers, compressionDefault, e⟩ := apply_eq { c with commands := rest } setting
    simp [numbers, onCommand, e, emit_eq, orders, Command.number?]

/-- A turn of a loop that goes on carries out an order, or leaves orders and answers alone. -/
theorem docket_turn {now : Instant} (turn : c.turn s now = some c') (going : c'.ended = false) :
    c'.docket = c.docket ∨ ∃ o rest, c.events = [] ∧ c.commands = o :: rest ∧
      c' = { c with commands := rest }.onCommand s o := by
  unfold Call.turn at turn
  split at turn
  · cases turn
  · split at turn
    · obtain rfl := Option.some.inj turn
      exact .inl (kept_docket.onEvent s _ _)
    · rename_i idle orders
      obtain rfl := Option.some.inj turn
      exact .inr ⟨_, _, idle, orders, rfl⟩
    · obtain rfl := Option.some.inj turn
      exact .inl (docket_onInbound s now _ _ going)
    · split at turn
      · obtain rfl := Option.some.inj turn
        exact .inl (kept_docket.onHangUp s c)
      · split at turn
        · split at turn
          · obtain rfl := Option.some.inj turn
            exact .inl (kept_docket.cancel s c _)
          · cases turn
        · cases turn

theorem numbers_turn {now : Instant} (turn : c.turn s now = some c') (going : c'.ended = false) :
    c'.numbers = c.numbers ∧ c'.nextReply = c.nextReply := by
  rcases docket_turn turn going with same | ⟨o, rest, -, orders, rfl⟩
  · exact numbers_of_docket same
  · exact numbers_onCommand s orders

/-- While the loop goes on every setting has a number of its own. -/
structure Numbered (c : Call σ Out In W) : Prop where
  nodup : c.ended = false → c.numbers.Nodup
  below : c.ended = false → ∀ n ∈ c.numbers, n < c.nextReply

theorem numbered_new (s : Setup σ Out In) (x : σ) : Numbered (new s x : Call σ Out In W) :=
  ⟨fun _ => List.nodup_nil, fun _ n mem => by simp [numbers, new] at mem⟩

theorem Numbered.of_same (h : Numbered c) (ended : c'.ended = false → c.ended = false)
    (same : c'.ended = false → c'.numbers = c.numbers ∧ c'.nextReply = c.nextReply) : Numbered c' := by
  refine ⟨fun going => ?_, fun going => ?_⟩
  · rw [(same going).1]
    exact h.nodup (ended going)
  · rw [(same going).1, (same going).2]
    exact h.below (ended going)

section Steps

variable [DecidableEq W]

theorem docket_perform (c : Call σ Out In W) {d : Deed Out W} (sets : ∀ setting, d ≠ .set setting)
    (aborts : ∀ reason, d ≠ .abort reason) : (c.perform d).ended = c.ended ∧ (c.perform d).docket = c.docket := by
  cases d with
  | set setting => exact absurd rfl (sets setting)
  | abort reason => exact absurd rfl (aborts reason)
  | write m => constructor <;> simp only [Call.perform, write, withWriter_eq, docket]
  | finish => constructor <;> simp only [Call.perform, finishResponses, withWriter_eq, docket]
  | awaitReply id w =>
    simp only [Call.perform, pollReply]
    split <;> try split
    all_goals exact ⟨rfl, rfl⟩
  | returned outcome =>
    constructor <;>
      simp only [Call.perform, returned, report, finishResponses, closeRequests_eq, tell_eq, withWriter_eq, docket]
  | lost =>
    constructor <;>
      simp only [Call.perform, lost, report, finishResponses, closeRequests_eq, tell_eq, withWriter_eq, docket]
  | _ => exact ⟨rfl, rfl⟩

theorem Numbered.perform (h : Numbered c) (d : Deed Out W) : Numbered (c.perform d) := by
  by_cases sets : ∃ setting, d = .set setting
  · obtain ⟨setting, rfl⟩ := sets
    simp only [Call.perform, issue]
    split
    · exact h
    · -- The new setting takes the next number, above all that were given.
      have more : numbers { c with commands := c.commands ++ [.set c.nextReply setting] } =
          c.numbers ++ [c.nextReply] := by
        simp [numbers, Command.number?]
      refine ⟨fun going => ?_, fun going n mem => ?_⟩
      · refine more ▸ List.nodup_append.mpr ⟨h.nodup going, List.nodup_cons.mpr ⟨List.not_mem_nil, .nil⟩, ?_⟩
        intro n mem m last
        rw [List.mem_singleton.mp last]
        exact Nat.ne_of_lt (h.below going n mem)
      · rcases List.mem_append.mp (more ▸ mem) with mem | mem
        · exact Nat.lt_succ_of_lt (h.below going n mem)
        · exact Nat.lt_succ_of_le (Nat.le_of_eq (List.mem_singleton.mp mem))
  · by_cases aborts : ∃ reason, d = .abort reason
    · obtain ⟨reason, rfl⟩ := aborts
      simp only [Call.perform, abort]
      split
      · exact h
      · refine h.of_same id fun _ => ⟨?_, rfl⟩
        simp [numbers, emit_eq, Command.number?]
    · obtain ⟨ended, docket⟩ := docket_perform c (fun setting e => sets ⟨setting, e⟩) fun reason e => aborts ⟨reason, e⟩
      exact h.of_same (fun going => ended ▸ going) fun _ => numbers_of_docket docket

theorem Numbered.step (h : Numbered c) (a : Act Out W) : Numbered (c.step s a) := by
  cases outside : a.isOutside with
  | true =>
    obtain ⟨inbox, handles, completionWaiters, es, -, same⟩ := step_of_outside s c outside
    rw [same]
    exact h.of_same id fun _ => ⟨rfl, rfl⟩
  | false =>
    cases a with
    | turn now =>
      cases turn : c.turn s now with
      | none => simpa [Call.step, turn] using h
      | some c' =>
        simp only [Call.step, turn, Option.getD_some]
        refine h.of_same (fun going => ?_) (numbers_turn turn)
        unfold Call.turn at turn
        split at turn <;> simp_all
    | conclude =>
      rcases concluded_conclude c with same | ⟨-, -, -, ended, -⟩
      · simpa only [Call.step, same] using h
      · exact ⟨fun going => by simp [Call.step, ended] at going, fun going => by simp [Call.step, ended] at going⟩
    | deed d =>
      simp only [Call.step]
      split
      · exact h.perform d
      · exact h
    | _ => cases outside

theorem numbered_after (s : Setup σ Out In) (x : σ) (acts : List (Act Out W)) :
    Numbered (run (step s) (new s x) acts) :=
  run_induction (numbered_new s x) fun _ a numbered => numbered.step a

/-! ## how the loop ends -/

omit [DecidableEq W] in
theorem crashes_of_turn (live : Live c) {now : Instant} (turn : c.turn s now = some c') (stopped : c'.ended = true) :
    Crashes c c' := by
  have going (same : c'.ended = c.ended) : Crashes c c' := by simp [same, live.ended] at stopped
  cases Call.turned live turn with
  | spoke batch rest ps next speaks => exact going (by rw [speaks.same])
  | noted e rest next news same => exact going (by rw [same])
  | ended e rest next news drained closes => exact going closes.ended
  | handled idle h => exact going h.ended
  | started h => exact going h.ended
  | closed ps n closes => exact going closes.ended
  | crashed cut h => exact h

theorem after_of_ended (ended : c.ended = true) (late : List (Act Out W)) :
    (run (step s) c late).ended = true ∧ (run (step s) c late).progress = c.progress ∧
      (run (step s) c late).replies = c.replies := by
  refine run_induction
    (P := fun y : Call σ Out In W => y.ended = true ∧ y.progress = c.progress ∧ y.replies = c.replies)
    ⟨ended, rfl, rfl⟩ fun early a still => ?_
  rw [step_of_ended still.1]
  exact still

/-- The step that ends a loop answers nothing, unless it cuts the loop off. -/
theorem replies_of_end (sound : c.writer.Sound) {a : Act Out W} (going : c.ended = false)
    (stopped : (c.step s a).ended = true) (uncut : ∀ now, a ≠ .turn now) : (c.step s a).replies = c.replies := by
  cases a with
  | conclude =>
    rcases concluded_conclude c with same | ⟨-, completed, before, -, -⟩
    · rw [Call.step, same]
    · rw [Call.step, conclude_eq before completed]
  | turn now => exact absurd rfl (uncut now)
  | deed d =>
    simp only [Call.step] at stopped ⊢
    split at stopped
    · simp [(worked_perform sound d).ended, going] at stopped
    · simp [going] at stopped
  | submit i =>
    simp only [Call.step, submit]
    split <;> rfl
  | hangUp =>
    simp only [Call.step, hangUp]
    split <;> try split
    all_goals rfl
  | awaitEnd w =>
    simp only [Call.step, pollCompleted]
    split <;> rfl

/-! ## all that the handler holds is released -/

omit [DecidableEq W] in
/-- A loop that is over, behind a handler that was started. -/
structure Gone (c : Call σ Out In W) : Prop where
  ended : c.ended = true
  raised : c.cancellation.raised = true
  pending : c.writer.pending = []
  terminated : c.writer.completion.isTerminated = true
  nobody : c.replyWaiters = []

theorem gone_after {x : σ} {acts : List (Act Out W)} (ended : (run (step s) (new s x) acts).ended = true)
    (started : (run (step s) (new s x) acts).hasStarted = true) : Gone (run (step s) (new s x) acts) := by
  have tenure := tenure_after s x acts
  obtain ⟨handler, free, nobody⟩ := tenure.stopped ended started
  obtain ⟨pending, terminated⟩ := (course_after s x acts).past handler
  exact ⟨ended, (tenure.held started).resolve_left (by simp [free]), pending, terminated started, nobody⟩

omit [DecidableEq W] in
theorem Gone.finished (h : Gone c) : c.writer.completion.isActive = false := by
  have terminated := h.terminated
  cases hc : c.writer.completion <;> simp_all [Completion.isActive, Completion.isTerminated]

/-- Whatever the handler and its clones hold of a call fails, or is ready. -/
structure Freed (c : Call σ Out In W) : Prop where
  cancelled : ∀ w, (c.pollCancelled w).2 = true
  /-- No message is taken any more. -/
  write : ∀ m, (c.write m).2 = .refused .alreadyFinished
  /-- A suspended write is over. -/
  room : ∀ w, (c.pollWrite w).2.isReady = true
  drained : ∀ w, (c.pollDrained w).2 = .ready ()
  read : ∀ w, ∃ status, (c.readRequest w).2 = .ready (.error status)
  set : ∀ setting, (c.issue setting).2 = .error alreadyCompleted
  /-- An order to end the call is not taken, so that nobody waits for it. -/
  abort : ∀ reason, (c.abort reason).2 = false
  answer : ∀ id w, (c.pollReply id w).2.isReady = true

theorem Gone.freed (h : Gone c) : Freed c := by
  refine ⟨fun w => ?_, fun m => ?_, fun w => ?_, fun w => ?_, fun w => ?_, fun setting => ?_, fun reason => ?_,
    fun id w => ?_⟩
  · simp [pollCancelled, Token.poll, h.raised]
  · simp [write, Writer.offer, h.finished]
  · simp only [pollWrite, Writer.pollCapacity, h.pending]
    split <;> simp [Poll.isReady]
  · simp [pollDrained, Writer.pollDrained, h.pending]
  · exact ⟨c.requests.failure.getD callWasCancelled, by simp [readRequest, readMessage, Token.poll, h.raised]⟩
  · simp [issue, h.ended]
  · simp [Call.abort, h.ended]
  · simp only [pollReply, h.ended]
    split <;> simp [Poll.isReady]

omit [DecidableEq W] in
theorem Gone.not_attends (h : Gone c) (k : W) (wait : Wait) : ¬ c.Attends k wait := by
  cases wait with
  | writer errand => cases errand <;> simp [Attends, Writer.Attends, h.pending]
  | cancellation => simp [Attends, h.raised]
  | reply => simp [Attends, h.nobody]

theorem Gone.wakes (h : Gone c) (a : Act Out W) : ∃ ws : List W, (c.step s a).trace = c.trace ++ ws.map .woke := by
  have nothing {c' : Call σ Out In W} (same : c'.trace = c.trace) : ∃ ws : List W, c'.trace = c.trace ++ ws.map .woke :=
    ⟨[], by simpa using same⟩
  cases a with
  | submit i => exact nothing (by simp [Call.step, submit, h.ended])
  | awaitEnd w => exact nothing (by simp [Call.step, pollCompleted, h.ended])
  | turn now => exact nothing (by simp [Call.step, Call.turn, h.ended])
  | conclude => exact nothing (by simp [Call.step, conclude, h.ended])
  | hangUp =>
    refine nothing ?_
    simp only [Call.step, hangUp, h.ended]
    split <;> rfl
  | deed d =>
    simp only [Call.step]
    split
    · cases d with
      | write m => exact nothing (by simp [Call.perform, write, Writer.offer, h.finished, withWriter_eq])
      | finish => exact nothing (by simp [Call.perform, finishResponses, Writer.finish, h.finished, withWriter_eq])
      | set setting => exact nothing (by simp [Call.perform, issue, h.ended])
      | abort reason => exact nothing (by simp [Call.perform, Call.abort, h.ended])
      | awaitReply id w =>
        refine nothing ?_
        simp only [Call.perform, pollReply, h.ended]
        split <;> rfl
      | returned outcome =>
        refine ⟨(c.requests.terminate .finished).2.2, ?_⟩
        simp [Call.perform, returned, report, finishResponses, closeRequests_eq, tell_eq, withWriter_eq, Writer.finish,
          h.finished, h.ended]
      | lost =>
        refine ⟨(c.requests.terminate .finished).2.2, ?_⟩
        simp [Call.perform, lost, report, finishResponses, closeRequests_eq, tell_eq, withWriter_eq, Writer.finish,
          h.finished, h.ended]
      | _ => exact nothing rfl
    · exact nothing rfl

/-- What holds behind the end of a loop, which the steps `acts` brought about, after `late` more. -/
structure Releases (s : Setup σ Out In) (x : σ) (acts late : List (Act Out W)) : Prop where
  freed : Freed (run (step s) (new s x) (acts ++ late))
  /-- A setting that was still queued when the loop ended comes too late. -/
  queued : ∀ (early : List (Act Out W)) (a : Act Out W) (rest : List (Act Out W)) (id : Nat) (setting : Setting),
    acts = early ++ a :: rest → (run (step s) (new s x) early).ended = false →
    (run (step s) (new s x) (early ++ [a])).ended = true → .set id setting ∈ (run (step s) (new s x) early).commands →
    ∀ w, ((run (step s) (new s x) (acts ++ late)).pollReply id w).2 = .ready (.error alreadyCompleted)
  /-- Whoever was told to wait, was woken by the end of the loop at the latest. -/
  woken : ∀ (early : List (Act Out W)) (d : Deed Out W) (rest : List (Act Out W)) (w : W),
    acts = early ++ .deed d :: rest → (run (step s) (new s x) early).hasStarted = true →
    (run (step s) (new s x) early).suspended? d = some w →
    ∃ es, (run (step s) (new s x) acts).trace = (run (step s) (new s x) (early ++ [.deed d])).trace ++ es ∧ .woke w ∈ es
  /-- Nothing happens any more but that someone is woken: nothing is sent or seen. -/
  silent : ∃ ws : List W,
    (run (step s) (new s x) (acts ++ late)).trace = (run (step s) (new s x) acts).trace ++ ws.map .woke

/-- A loop that is over stays so, and all that still happens is that someone is woken. -/
theorem gone_append {x : σ} {acts : List (Act Out W)} (ended : (run (step s) (new s x) acts).ended = true)
    (started : (run (step s) (new s x) acts).hasStarted = true) (late : List (Act Out W)) :
    Gone (run (step s) (new s x) (acts ++ late)) ∧
      ∃ ws : List W, (run (step s) (new s x) (acts ++ late)).trace =
        (run (step s) (new s x) acts).trace ++ ws.map .woke := by
  induction late using List.reverseRecOn with
  | nil => exact ⟨by simpa using gone_after ended started, [], by simp⟩
  | append_singleton late a ih =>
    obtain ⟨gone, ws, trace⟩ := ih
    obtain ⟨vs, wakes⟩ := gone.wakes (s := s) a
    have whole : (run (step s) (new s x) (acts ++ (late ++ [a]))).trace =
        (run (step s) (new s x) acts).trace ++ (ws ++ vs).map .woke := by
      rw [← List.append_assoc, run_append, run_cons, run_nil, wakes, trace, List.map_append, List.append_assoc]
    have stopped : (run (step s) (new s x) (acts ++ (late ++ [a]))).ended = true := by
      rw [run_append]
      exact (after_of_ended ended _).1
    have begun : (run (step s) (new s x) (acts ++ (late ++ [a]))).hasStarted = true := by
      rw [hasStarted, whole, List.any_append, ← hasStarted, started, Bool.true_or]
    exact ⟨gone_after stopped begun, ws ++ vs, whole⟩

/-- A loop that started a handler is not cut off. -/
theorem not_crashes_of_started {x : σ} {early : List (Act Out W)} {rest : List (Act Out W)} {a : Act Out W}
    (stopped : (run (step s) (new s x) (early ++ [a])).ended = true)
    (started : (run (step s) (new s x) (early ++ a :: rest)).hasStarted = true) :
    ¬ Crashes (run (step s) (new s x) early) (run (step s) (new s x) (early ++ [a])) := by
  intro crashes
  have whole :
      run (step s) (new s x) (early ++ a :: rest) = run (step s) (run (step s) (new s x) (early ++ [a])) rest := by
    rw [← run_append, List.append_assoc, List.singleton_append]
  obtain ⟨ended, progress, -⟩ := after_of_ended (s := s) stopped rest
  rw [← whole] at ended progress
  obtain ⟨handler, -⟩ := (tenure_after s x _).stopped ended started
  rw [progress, crashes.handler] at handler
  cases handler

/-- A setting that was still queued when the loop ended is never answered. -/
theorem unanswered_of_queued {x : σ} {early rest : List (Act Out W)} {a : Act Out W} {id : Nat} {setting : Setting}
    (going : (run (step s) (new s x) early).ended = false)
    (stopped : (run (step s) (new s x) (early ++ [a])).ended = true)
    (started : (run (step s) (new s x) (early ++ a :: rest)).hasStarted = true)
    (queued : .set id setting ∈ (run (step s) (new s x) early).commands) :
    id ∉ (run (step s) (new s x) (early ++ a :: rest)).replies.map Prod.fst := by
  obtain ⟨said, done, ledger⟩ := ledger_after s x early
  have whole :
      run (step s) (new s x) (early ++ a :: rest) = run (step s) (run (step s) (new s x) (early ++ [a])) rest := by
    rw [← run_append, List.append_assoc, List.singleton_append]
  have last : run (step s) (new s x) (early ++ [a]) = (run (step s) (new s x) early).step s a := by
    rw [run_append, run_cons, run_nil]
  have uncut := not_crashes_of_started stopped started
  rw [whole, (after_of_ended stopped rest).2.2]
  rw [last] at stopped uncut ⊢
  have same : ((run (step s) (new s x) early).step s a).replies = (run (step s) (new s x) early).replies := by
    by_cases turns : ∃ now, a = .turn now
    · obtain ⟨now, rfl⟩ := turns
      cases turn : (run (step s) (new s x) early).turn s now with
      | none => simp [Call.step, turn, going] at stopped
      | some c' =>
        obtain ⟨live, -⟩ := ledger.live_of_turn turn
        simp only [Call.step, turn, Option.getD_some] at stopped uncut
        exact absurd (crashes_of_turn live turn stopped) uncut
    · exact replies_of_end ledger.sound going stopped fun now e => turns ⟨now, e⟩
  rw [same]
  have distinct := (List.nodup_append.mp ((numbered_after s x early).nodup going)).2.2
  exact fun mem => distinct id mem id (List.mem_filterMap.mpr ⟨_, queued, rfl⟩) rfl

/-- **The end of the loop releases all that the handler holds.** Whatever ended the loop of a call whose handler was
started: the context tells so, every write and every setting fails, also one that was still queued, every read and every
wait is ready and whoever waited was woken, and none of it reaches the transport. -/
theorem releases_of_ended (s : Setup σ Out In) (x : σ) (acts late : List (Act Out W))
    (ended : (run (step s) (new s x) acts).ended = true) (started : (run (step s) (new s x) acts).hasStarted = true) :
    Releases s x acts late := by
  obtain ⟨gone, silent⟩ := gone_append ended started late
  refine ⟨gone.freed, ?_, ?_, silent⟩
  · rintro early a rest id setting rfl going stopped queued w
    have unanswered := unanswered_of_queued going stopped started queued
    have replies := (after_of_ended (s := s) ended late).2.2
    rw [← run_append] at replies
    rw [← replies] at unanswered
    have none : (run (step s) (new s x) (early ++ a :: rest ++ late)).replies.find? (fun r => r.1 = id) = none := by
      rw [List.find?_eq_none]
      intro r mem is
      exact unanswered (List.mem_map.mpr ⟨r, mem, by simpa using is⟩)
    simp only [pollReply, none, gone.ended, if_true]
  · rintro early d rest w rfl begun waits
    obtain ⟨said, done, ledger⟩ := ledger_after s x early
    obtain ⟨wait, attends⟩ := attends_of_suspended ledger.sound waits
    have told : run (step s) (new s x) (early ++ [.deed d]) = (run (step s) (new s x) early).perform d := by
      rw [run_append, run_cons, run_nil, Call.step, if_pos begun]
    have split : early ++ .deed d :: rest = early ++ [.deed d] ++ rest := by simp
    obtain ⟨es, trace, tends⟩ := tends_after s x (early ++ [.deed d]) rest
    rw [← split] at trace tends
    refine ⟨es, trace, ?_⟩
    rw [← told] at attends
    exact (tends w wait attends).resolve_right ((gone_after ended started).not_attends w wait)

end Steps

/-- The transport finishes a call while its handler waits for the cancellation and a clone reads; another clone orders a
setting before the loop is over. -/
def finishedAmid : List (Act Bytes Nat) :=
  [.submit (.part (.metadata {})), .turn 0, .deed (.awaitCancelled 7), .deed (.read 8), .submit .finish, .turn 0,
   .deed (.set (.compression false)), .deed (.awaitReply 0 9), .conclude]

/-- The handler of a call that its transport finishes holds nothing any more, and whoever waited was woken. -/
theorem releases_of_finishedAmid :
    (run (step plain) (new plain ()) finishedAmid).ended = true ∧
    (run (step plain) (new plain ()) finishedAmid).hasStarted = true ∧
    Freed (run (step plain) (new plain ()) (finishedAmid ++ [.deed (.write ⟨[1], .inherit⟩)])) ∧
    ((run (step plain) (new plain ()) (finishedAmid ++ [.deed (.write ⟨[1], .inherit⟩)])).pollReply 0 9).2 =
      .ready (.error alreadyCompleted) ∧
    .woke 7 ∈ (run (step plain) (new plain ()) finishedAmid).trace := by
  have releases := releases_of_ended plain () finishedAmid [.deed (.write ⟨[1], .inherit⟩)] rfl rfl
  obtain ⟨es, trace, woken⟩ :=
    releases.woken [.submit (.part (.metadata {})), .turn 0] (.awaitCancelled 7) _ 7 rfl rfl rfl
  refine ⟨rfl, rfl, releases.freed, ?_, trace ▸ List.mem_append_right _ woken⟩
  exact releases.queued (finishedAmid.take 8) .conclude [] 0 (.compression false) rfl rfl rfl
    (List.mem_singleton_self _) 9

end Call

end CallLifecycle.Server
