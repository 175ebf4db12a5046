import CallLifecycle.Proofs.Client.Reading
import CallLifecycle.Proofs.Client.Release
import CallLifecycle.Proofs.Writer.Traffic

/-!
# Calls that are dropped before they end

Nothing is settled when the last handle of a call is dropped. What its program may keep of a call that has not ended,
the response stream and the request writer, is left as it is.

* `Lasts` — a request writer that hands nothing over any more, unless its transport is writable;
* `Adrift`, `adrift_step`, `adrift_after` — a call that was dropped before it ended, which nothing ends any more;
* `Abandoned` — what becomes of its readers and of its writes;
* `strands_iff_unfinished` — **a reader is stranded just if its call had not ended when its last handle was dropped**,
  and with it all writes that are suspended then or later.
-/

namespace CallLifecycle.Client

/-- Whether an effect neither wakes anybody nor asks anything of the stream or of a task. -/
def Effect.isInert {W : Type} : Effect W → Bool
  | .opened | .armed _ => true
  | _ => false

namespace Call

variable {σ Out In W : Type} {s : Setup σ Out In} {c c' c'' : Call σ Out In W}

/-! ## writers that nobody empties -/

/-- A request writer that may take something over but hands nothing over that it keeps. -/
structure Lasts (w w' : Writer (Outbound Out) Failure W) : Prop where
  sound : w'.Sound
  config : w'.config = w.config
  writable : w'.writable = w.writable
  kept : w.pending <+: w'.pending
  uncancelled : w'.completion = .cancelled → w.completion = .cancelled

theorem lasts_refl {w : Writer (Outbound Out) Failure W} (sound : w.Sound) : Lasts w w :=
  ⟨sound, rfl, rfl, List.prefix_rfl, id⟩

theorem Lasts.trans {w w' w'' : Writer (Outbound Out) Failure W} (h : Lasts w w') (k : Lasts w' w'') : Lasts w w'' :=
  ⟨k.sound, k.config.trans h.config, k.writable.trans h.writable, h.kept.trans k.kept, h.uncancelled ∘ k.uncancelled⟩

theorem lasts_offer {w : Writer (Outbound Out) Failure W} (sound : w.Sound) (m : Outbound Out) :
    Lasts w (w.offer m).1 := by
  have sound' := Writer.sound_offer sound m
  rcases Writer.offer_cases w m with ⟨why, e⟩ | ⟨-, -, e⟩ | ⟨-, -, adm, -, e⟩ <;> rw [e] at sound' ⊢
  · exact lasts_refl sound
  · exact lasts_refl sound
  · exact ⟨sound', rfl, rfl, List.prefix_append _ _, id⟩

theorem lasts_finish {w : Writer (Outbound Out) Failure W} (sound : w.Sound) (r : Option Failure) :
    Lasts w (w.finish r).1 ∧ (w.finish r).2.2 = [] := by
  have sound' := Writer.sound_finish sound r
  rcases Writer.finish_cases sound r with ⟨-, e⟩ | ⟨-, -, e⟩ | ⟨-, -, e⟩ <;> rw [e] at sound' ⊢
  · exact ⟨lasts_refl sound, rfl⟩
  · exact ⟨⟨sound', rfl, rfl, List.prefix_rfl, by simp⟩, rfl⟩
  · exact ⟨⟨sound', rfl, rfl, List.prefix_rfl, by simp⟩, rfl⟩

section Looks

variable [DecidableEq W]

theorem lasts_pollCapacity {w : Writer (Outbound Out) Failure W} (sound : w.Sound) (k : W) :
    Lasts w (w.pollCapacity k).1 := by
  have sound' := Writer.sound_pollCapacity sound k
  rcases Writer.pollCapacity_cases w k with e | ⟨-, e⟩ <;> rw [e] at sound' ⊢
  · exact lasts_refl sound
  · exact ⟨sound', rfl, rfl, List.prefix_rfl, id⟩

theorem lasts_pollDrained {w : Writer (Outbound Out) Failure W} (sound : w.Sound) (k : W) :
    Lasts w (w.pollDrained k).1 := by
  have sound' := Writer.sound_pollDrained sound k
  rcases Writer.pollDrained_cases w k with e | ⟨-, e⟩ <;> rw [e] at sound' ⊢
  · exact lasts_refl sound
  · exact ⟨sound', rfl, rfl, List.prefix_rfl, id⟩

/-- A write that is suspended at a writer that hands nothing over stays so. -/
theorem Lasts.pending {w w' : Writer (Outbound Out) Failure W} (h : Lasts w w') {k : W}
    (suspended : (w.pollCapacity k).2 = .pending) (k' : W) : (w'.pollCapacity k').2 = .pending := by
  obtain ⟨going, more⟩ : w.completion ≠ .cancelled ∧ w.config.low < w.pending.length := by
    rcases Writer.pollCapacity_verdict w k with ⟨-, e⟩ | ⟨-, -, e⟩ | ⟨going, more, -⟩
    · simp [e] at suspended
    · simp [e] at suspended
    · exact ⟨going, more⟩
  have still : w'.config.low < w'.pending.length := by
    rw [h.config]
    exact Nat.lt_of_lt_of_le more h.kept.length_le
  rcases Writer.pollCapacity_verdict w' k' with ⟨cancelled, -⟩ | ⟨-, low, -⟩ | ⟨-, -, e⟩
  · exact absurd (h.uncancelled cancelled) going
  · omega
  · rw [e]

theorem pollCapacity_of_writable {w : Writer (Outbound Out) Failure W} (sound : w.Sound) (writable : w.writable = true)
    (k : W) : (w.pollCapacity k).2 ≠ .pending := by
  have nothing := sound.writable writable
  rcases Writer.pollCapacity_verdict w k with ⟨-, e⟩ | ⟨-, -, e⟩ | ⟨-, more, -⟩
  · simp [e]
  · simp [e]
  · simp [nothing] at more

end Looks

/-! ## calls that drift -/

/-- A call that was dropped before it ended, of whose response stream, if it has one, these messages are left. -/
structure Adrift (c : Call σ Out In W) (left : List In) : Prop where
  alive : c.alive = false
  attached : c.attached = false
  unstopped : c.trace.any Effect.isStopping = false
  uncut : c.cancellation.raised = false
  stream : ∀ ch, c.responses = .stream ch → ch.queue = left ∧ ch.terminal = .live

/-- What a step does to a call that drifts: nobody is woken, and nothing leaves its request writer. -/
structure Drifts (c c' : Call σ Out In W) : Prop where
  writer : Lasts c.writer c'.writer
  trace : ∃ es, c'.trace = c.trace ++ es ∧ ∀ e ∈ es, e.isInert = true

theorem Drifts.trans (h : Drifts c c') (k : Drifts c' c'') : Drifts c c'' := by
  obtain ⟨es, trace, inert⟩ := h.trace
  obtain ⟨fs, trace', inert'⟩ := k.trace
  refine ⟨h.writer.trans k.writer, es ++ fs, by rw [trace', trace, List.append_assoc], fun e mem => ?_⟩
  exact (List.mem_append.mp mem).elim (inert e) (inert' e)

theorem unstopped_of_inert {es : List (Effect W)} (inert : ∀ e ∈ es, e.isInert = true) :
    es.any Effect.isStopping = false := by
  refine List.any_eq_false.mpr fun e mem => ?_
  have := inert e mem
  cases e <;> simp_all [Effect.isInert, Effect.isStopping]

theorem Adrift.of_same {left : List In} (h : Adrift c left) (alive : c'.alive = c.alive)
    (attached : c'.attached = false) (cancellation : c'.cancellation = c.cancellation)
    (responses : ∀ ch, c'.responses = .stream ch → c.responses = .stream ch) (writer : Lasts c.writer c'.writer)
    {es : List (Effect W)} (trace : c'.trace = c.trace ++ es) (inert : ∀ e ∈ es, e.isInert = true) :
    Adrift c' left ∧ Drifts c c' := by
  refine ⟨⟨alive.trans h.alive, attached, ?_, cancellation ▸ h.uncut, fun ch is => h.stream ch (responses ch is)⟩,
    writer, es, trace, inert⟩
  rw [trace, List.any_append, h.unstopped, unstopped_of_inert inert, Bool.or_false]

def unread (c : Call σ Out In W) : List In :=
  match c.responses with
  | .stream ch => ch.queue
  | .single _ => []

/-- What a reader gets of a stream that nobody closes, of which these messages are left. -/
def firstOf : List In → Poll (Except Status (Option In))
  | m :: _ => .ready (.ok (some m))
  | [] => .pending

section Steps

variable [DecidableEq W]

theorem readResponse_of_adrift {left : List In} (h : Adrift c left) (stream : c.isStream = true) (w : W) :
    (c.readResponse w).2 = firstOf left := by
  obtain ⟨ch, responses⟩ := exists_stream stream
  obtain ⟨rfl, live⟩ := h.stream ch responses
  cases queue : ch.queue <;>
    simp [readResponse, responses, readMessage, Token.poll, h.uncut, Channel.poll, queue, live, firstOf]

theorem adrift_read {left : List In} (h : Adrift c left) (sound : c.writer.Sound) (stream : c.isStream = true) (w : W) :
    Adrift (c.readResponse w).1 left.tail ∧ Drifts c (c.readResponse w).1 := by
  obtain ⟨ch, responses⟩ := exists_stream stream
  obtain ⟨rfl, live⟩ := h.stream ch responses
  have uncut := h.uncut
  have reading := reading c.cancellation ch w
  have drifts : Drifts c (c.readResponse w).1 := by
    refine ⟨?_, [], ?_, by simp⟩ <;> simp [readResponse, responses, lasts_refl sound]
  have left : (readMessage c.cancellation ch w).1.raised = false ∧
      (readMessage c.cancellation ch w).2.1.queue = ch.queue.tail ∧
      (readMessage c.cancellation ch w).2.1.terminal = .live := by
    generalize readMessage c.cancellation ch w = r at reading ⊢
    obtain ⟨t, ch', r⟩ := r
    cases reading <;> simp_all
  refine ⟨⟨?_, ?_, ?_, ?_, ?_⟩, drifts⟩ <;> simp only [readResponse, responses]
  · exact h.alive
  · exact h.attached
  · exact h.unstopped
  · exact left.1
  · rintro ch' ⟨⟩
    exact left.2

/-- What is left of the messages that are left, behind a step. -/
theorem adrift_step {left : List In} (h : Adrift c left) (sound : c.writer.Sound) (s : Setup σ Out In) (a : Act Out W) :
    (∃ left', c.gets a ++ left' = left ∧ Adrift (c.step s a) left') ∧ Drifts c (c.step s a) := by
  have of {c' : Call σ Out In W} (nothing : c.gets a = []) (k : Adrift c' left ∧ Drifts c c') :
      (∃ left', c.gets a ++ left' = left ∧ Adrift c' left') ∧ Drifts c c' :=
    ⟨⟨left, by rw [nothing, List.nil_append], k.1⟩, k.2⟩
  have same : Adrift c left ∧ Drifts c c :=
    h.of_same rfl h.attached rfl (fun _ => id) (lasts_refl sound) (List.append_nil _).symm (by simp)
  -- What is done in the name of a call needs somebody who holds it: only those who kept a stream or the writer still
  -- move.
  have asleep : ¬ c.alive = true := by simp [h.alive]
  cases a with
  | routed r =>
    have ignored : c.onRouted s r = c := by cases r <;> simp [onRouted, route, fail, setWritable, h.alive]
    refine of rfl ?_
    rw [step, ignored]
    exact same
  | opening =>
    exact of rfl (h.of_same rfl h.attached rfl (fun _ => id) (lasts_refl sound) rfl (by simp [Effect.isInert]))
  | arm =>
    refine of rfl ?_
    simp only [step]
    split
    · split
      · exact h.of_same rfl h.attached rfl (fun _ => id) (lasts_refl sound) rfl (by simp [Effect.isInert])
      · exact same
    · exact same
  | expire =>
    refine of rfl ?_
    rw [step, expire, if_neg asleep]
    exact same
  | write m =>
    refine of rfl ?_
    simp only [step, write, withWriter_of_dropped h.alive]
    exact h.of_same rfl h.attached rfl (fun _ => id) (lasts_offer sound m) rfl (by simp)
  | finish =>
    obtain ⟨lasts, nobody⟩ := lasts_finish sound none
    refine of rfl ?_
    rw [step, finishRequests, withWriter_of_dropped h.alive]
    exact h.of_same rfl h.attached rfl (fun _ => id) lasts rfl (by simp [nobody])
  | awaitWrite w =>
    exact of rfl
      (h.of_same rfl h.attached rfl (fun _ => id) (lasts_pollCapacity sound w) (List.append_nil _).symm (by simp))
  | awaitDrained w =>
    exact of rfl
      (h.of_same rfl h.attached rfl (fun _ => id) (lasts_pollDrained sound w) (List.append_nil _).symm (by simp))
  | stopWriter =>
    refine of rfl ?_
    rw [step, if_neg (by simp [h.unstopped])]
    exact same
  | read w =>
    cases stream : c.isStream with
    | true =>
      obtain ⟨adrift, drifts⟩ := adrift_read h sound stream w
      refine ⟨⟨left.tail, ?_, adrift⟩, drifts⟩
      simp only [gets, readResponse_of_adrift h stream w]
      cases left <;> rfl
    | false =>
      obtain ⟨p, responses⟩ := exists_single stream
      have nothing : c.readResponse w = (c, .pending) := by simp only [readResponse, responses]
      refine of (by simp only [gets, nothing]) ?_
      rw [step, nothing]
      exact same
  | take w =>
    refine of rfl ?_
    simp only [step, takeResponse]
    split
    · exact h.of_same rfl h.attached rfl (fun _ is => by cases is) (lasts_refl sound) (List.append_nil _).symm
        (by simp)
    · exact same
  | drop =>
    refine of rfl ?_
    simp only [step, drop, h.attached]
    exact h.of_same h.alive.symm rfl rfl (fun _ => id) (lasts_refl sound) (List.append_nil _).symm (by simp)
  | awaitInitial | awaitTrailing | awaitStatus | awaitDone =>
    exact of rfl (h.of_same rfl h.attached rfl (fun _ => id) (lasts_refl sound) (List.append_nil _).symm (by simp))
  | _ =>
    refine of rfl ?_
    rw [step, if_neg asleep]
    exact same

theorem adrift_after {left : List In} (h : Adrift c left) (sound : c.writer.Sound) (s : Setup σ Out In)
    (late : List (Act Out W)) :
    (∃ left', c.read s late ++ left' = left ∧ Adrift (run (step s) c late) left') ∧ Drifts c (run (step s) c late) := by
  induction late generalizing c left with
  | nil => exact ⟨⟨left, rfl, h⟩, lasts_refl sound, [], (List.append_nil _).symm, by simp⟩
  | cons a late ih =>
    obtain ⟨⟨left', got, adrift⟩, drifts⟩ := adrift_step h sound s a
    obtain ⟨⟨left'', got', adrift'⟩, drifts'⟩ := ih adrift drifts.writer.sound
    refine ⟨⟨left'', ?_, adrift'⟩, drifts.trans drifts'⟩
    unfold read at got' ⊢
    rw [gather, List.append_assoc, got', got]

theorem adrift_of_reads {left : List In} (h : Adrift c left) (sound : c.writer.Sound) (stream : c.isStream = true)
    (s : Setup σ Out In) (w : W) : Adrift (run (step s) c (List.replicate left.length (.read w))) [] := by
  induction left generalizing c with
  | nil => exact h
  | cons m rest ih =>
    obtain ⟨adrift, drifts⟩ := adrift_read h sound stream w
    rw [List.length_cons, List.replicate_succ, run_cons]
    exact ih adrift drifts.writer.sound ((isStream_step s c (.read w)).trans stream)

theorem isStream_run (s : Setup σ Out In) (c : Call σ Out In W) (acts : List (Act Out W)) :
    (run (step s) c acts).isStream = c.isStream := by
  induction acts generalizing c with
  | nil => rfl
  | cons a acts ih => exact (ih _).trans (isStream_step s c a)

/-- Behind the last message a reader of a call that drifts waits, whatever else happens. -/
theorem pending_of_adrift (h : Adrift c []) (sound : c.writer.Sound) (stream : c.isStream = true) (s : Setup σ Out In)
    (more : List (Act Out W)) (w : W) : ((run (step s) c more).readResponse w).2 = .pending := by
  obtain ⟨⟨left, got, adrift⟩, -⟩ := adrift_after h sound s more
  obtain ⟨-, rfl⟩ := List.append_eq_nil_iff.mp got
  exact readResponse_of_adrift adrift ((isStream_run s c more).trans stream) w

/-! ## calls that are dropped -/

omit [DecidableEq W] in
theorem adrift_drop (live : Live c) (unstopped : c.trace.any Effect.isStopping = false) :
    Adrift c.drop c.unread := by
  refine ⟨rfl, rfl, ?_, ?_, fun ch => ?_⟩ <;> unfold drop
  · split <;> simp [emit, unstopped, Effect.isStopping]
  · split <;> exact live.cancellation
  · have stream (is : c.responses = .stream ch) : ch.queue = c.unread ∧ ch.terminal = .live :=
      ⟨by simp [unread, is], live.responses ch is⟩
    split <;> exact stream

omit [DecidableEq W] in
theorem writer_drop (c : Call σ Out In W) : c.drop.writer = c.writer := by
  unfold drop
  split <;> rfl

/-- What becomes of those who keep the response stream or the request writer of a call `c` that is dropped now, behind
some steps of whatever kind. -/
structure Abandoned (s : Setup σ Out In) (c : Call σ Out In W) (late : List (Act Out W)) : Prop where
  /-- The readers get the messages that are there, and behind them they wait. -/
  reads : c.isStream = true → ∃ left, c.drop.read s late ++ left = c.unread ∧
    ∀ w, ((run (step s) c (.drop :: late)).readResponse w).2 = firstOf left
  /-- A write that is suspended stays so, whether it was before or is now. -/
  suspended : ∀ w w', (c.pollWrite w).2 = .pending → ((run (step s) c (.drop :: late)).pollWrite w').2 = .pending
  later : ∀ more w w', ((run (step s) c (.drop :: late)).pollWrite w).2 = .pending →
    ((run (step s) c (.drop :: (late ++ more))).pollWrite w').2 = .pending
  /-- None is, if the transport is writable. -/
  writable : c.writer.writable = true → ∀ w, ((run (step s) c (.drop :: late)).pollWrite w).2 ≠ .pending
  /-- Nobody is woken, and nothing is asked of the stream. -/
  silent : ∃ es, (run (step s) c (.drop :: late)).trace = c.drop.trace ++ es ∧ ∀ e ∈ es, e.isInert = true

theorem abandoned_of_live (live : Live c) (unstopped : c.trace.any Effect.isStopping = false)
    (late : List (Act Out W)) : Abandoned s c late := by
  have adrift := adrift_drop live unstopped
  have sound : c.drop.writer.Sound := writer_drop c ▸ live.sound
  obtain ⟨⟨left, got, adrift'⟩, drifts⟩ := adrift_after adrift sound s late
  have whole : run (step s) c (.drop :: late) = run (step s) c.drop late := rfl
  refine ⟨fun stream => ⟨left, got, fun w => ?_⟩, fun w w' waits => ?_, fun more w w' waits => ?_, fun writable w => ?_,
    whole ▸ drifts.trace⟩
  · have stream' : (run (step s) c.drop late).isStream = true :=
      ((isStream_run s c.drop late).trans (isStream_step s c .drop)).trans stream
    exact whole ▸ readResponse_of_adrift adrift' stream' w
  · have before : (c.drop.writer.pollCapacity w).2 = .pending := by rw [writer_drop]; exact waits
    exact drifts.writer.pending before w'
  · have longer : run (step s) c (.drop :: (late ++ more)) = run (step s) (run (step s) c.drop late) more := by
      rw [← run_append]
      rfl
    obtain ⟨-, drifts'⟩ := adrift_after adrift' drifts.writer.sound s more
    rw [longer]
    exact drifts'.writer.pending waits w'
  · refine pollCapacity_of_writable drifts.writer.sound ?_ w
    rw [drifts.writer.writable, writer_drop]
    exact writable

/-- A call that has ended lets no reader wait, dropped or not. -/
theorem ready_of_finished {shape : Shape} {runtime : Bool} {x : σ} {acts : List (Act Out W)}
    (streams : shape.streamsResponses = true) (finished : (run (step s) (new s shape runtime x) acts).finished = true)
    (late : List (Act Out W)) (w : W) :
    ((run (step s) (new s shape runtime x) (acts ++ late)).readResponse w).2 ≠ .pending := by
  have live := live_new (W := W) s shape runtime x
  obtain ⟨early, a, more, e, rfl, undecided, ends⟩ := exists_ending_of_finished live finished
  have goes := goes_step (s := s) (live_after live undecided) a
  rw [ends] at goes
  have spent := over_after (s := s) goes.past (more ++ late)
  have whole : run (step s) (new s shape runtime x) (early ++ a :: more ++ late) =
      run (step s) ((run (step s) (new s shape runtime x) early).step s a) (more ++ late) := by simp
  have stream := isStream_after s shape runtime x (early ++ a :: more ++ late)
  obtain ⟨ch, responses⟩ := exists_stream (stream.trans streams)
  rw [whole] at responses ⊢
  rw [spent.yields.stream ch responses w]
  nofun

/-- A reader is stranded: from some moment on it would be told to wait, whatever else happens. -/
def Strands (s : Setup σ Out In) (c : Call σ Out In W) (w : W) : Prop :=
  ∃ late, ∀ more, ((run (step s) c (late ++ more)).readResponse w).2 = .pending

/-- A reader of a call that is dropped before it ended is stranded. -/
theorem strands_of_live (live : Live c) (unstopped : c.trace.any Effect.isStopping = false)
    (stream : c.isStream = true) (w : W) : Strands s c.drop w := by
  have adrift := adrift_drop live unstopped
  have sound : c.drop.writer.Sound := writer_drop c ▸ live.sound
  have stream' : c.drop.isStream = true := (isStream_step s c .drop).trans stream
  obtain ⟨-, drifts⟩ := adrift_after adrift sound s (List.replicate c.unread.length (.read w))
  refine ⟨List.replicate c.unread.length (.read w), fun more => ?_⟩
  rw [run_append]
  exact pending_of_adrift (adrift_of_reads adrift sound stream' s w) drifts.writer.sound
    ((isStream_run s c.drop _).trans stream') s more w

/-- **A reader is stranded just if its call had not ended when its last handle was dropped**, in every run in order.
Then it gets the messages that were there and waits behind them, for ever; a write that is suspended then, or is
suspended later because the transport was not writable, stays so for ever. -/
theorem strands_iff_unfinished (s : Setup σ Out In) (shape : Shape) (runtime : Bool) (x : σ) {request : Out}
    {acts : List (Act Out W)} (orderly : Orderly shape request acts .started)
    (held : (run (step s) (new s shape runtime x) acts).alive = true) :
    (shape.streamsResponses = true → ∀ w, Strands s (run (step s) (new s shape runtime x) (acts ++ [.drop])) w ↔
      (run (step s) (new s shape runtime x) acts).finished = false) ∧
    ((run (step s) (new s shape runtime x) acts).finished = false →
      ∀ late, Abandoned s (run (step s) (new s shape runtime x) acts) late) := by
  have before (unfinished : (run (step s) (new s shape runtime x) acts).finished = false) :
      Live (run (step s) (new s shape runtime x) acts) ∧
        (run (step s) (new s shape runtime x) acts).trace.any Effect.isStopping = false := by
    obtain ⟨said, done, phase, ledger⟩ := ledger_of_orderly s runtime x orderly
    have undecided := undecided_of_going s shape runtime x ⟨held, unfinished⟩
    exact ⟨live_after (live_new s shape runtime x) undecided, (ledger.going ⟨held, unfinished⟩).unstopped⟩
  have dropped :
      run (step s) (new s shape runtime x) (acts ++ [.drop]) = (run (step s) (new s shape runtime x) acts).drop := by
    rw [run_append]
    rfl
  refine ⟨fun streams w => ⟨fun ⟨late, waits⟩ => ?_, fun unfinished => ?_⟩, fun unfinished late => ?_⟩
  · by_contra finished
    have ready := ready_of_finished streams (by simpa using finished) (.drop :: late) w
    have waits := waits []
    rw [List.append_nil, ← run_append, List.append_assoc, List.singleton_append] at waits
    exact ready waits
  · obtain ⟨live, unstopped⟩ := before unfinished
    rw [dropped]
    exact strands_of_live live unstopped ((isStream_after s shape runtime x acts).trans streams) w
  · obtain ⟨live, unstopped⟩ := before unfinished
    exact abandoned_of_live live unstopped late

/-- A message comes and the transport stops being writable, and a write is suspended before the call is dropped. -/
def walkedOut : List (Act Bytes Nat) :=
  beginning .bidi [] [] none ++
    [.routed (.part (.metadata {})), .routed (.part (.message [5] {})), .routed (.writable false),
     .write ⟨[1], .inherit⟩]

/-- Even the end of the server does not reach a reader whose call was dropped, nor does a transport that becomes
writable again resume the write. -/
theorem strands_of_walkedOut :
    let start : Call Unit Bytes Bytes Nat := new narrow .bidi true ()
    Orderly .bidi [] walkedOut .started ∧ (run (step narrow) start walkedOut).finished = false ∧
    Strands narrow (run (step narrow) start (walkedOut ++ [.drop])) 0 ∧
    ((run (step narrow) start walkedOut).pollWrite 1).2 = .pending ∧
    ((run (step narrow) (run (step narrow) start walkedOut) [.drop, .routed (.writable true),
      .routed (.part (.close (Status.of .ok "") {}))]).pollWrite 1).2 = .pending := by
  intro start
  have began : Orderly .bidi [] (beginning .bidi [] [] none : List (Act Bytes Nat)) .started :=
    orderly_beginning .bidi [] [] none
  have orderly : Orderly .bidi [] walkedOut .started :=
    (((began.snoc (.outside (a := .routed (.part (.metadata {}))) rfl)).snoc
      (.outside (a := .routed (.part (.message [5] {}))) rfl)).snoc
      (.outside (a := .routed (.writable false)) rfl)).snoc (.use (a := .write ⟨[1], .inherit⟩) rfl)
  have held : (run (step narrow) start walkedOut).alive = true := by decide +kernel
  have unfinished : (run (step narrow) start walkedOut).finished = false := by decide +kernel
  have waits : ((run (step narrow) start walkedOut).pollWrite 1).2 = .pending := by decide +kernel
  obtain ⟨strands, abandoned⟩ := strands_iff_unfinished narrow .bidi true () orderly held
  have suspended := (abandoned unfinished
    [.routed (.writable true), .routed (.part (.close (Status.of .ok "") {}))]).suspended
  exact ⟨orderly, unfinished, (strands rfl 0).mpr unfinished, waits, suspended 1 1 waits⟩

end Steps

end Call

end CallLifecycle.Client
