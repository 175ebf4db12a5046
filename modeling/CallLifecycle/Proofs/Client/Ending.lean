import CallLifecycle.Proofs.Client.Run

/-!
# The ends of a client call

* `terminate_eq_settledBy`, `complete_eq_settledBy` — a local end and the end of the server settle the same things;
* `Live`, `Over` — a call that has not ended, and one that has ended with an outcome;
* `Over.yields` — who looks at a call that has ended gets its outcome;
* `ends_terminate`, `ends_complete` — either end fixes the outcome, and wakes all suspended writes.
-/

namespace CallLifecycle

namespace Promise

variable {α W : Type} {p : Promise α W}

theorem complete_of_completed (h : p.isCompleted = true) (a : α) : p.complete a = (p, false, []) := by
  unfold complete
  cases hs : p.slot <;> simp_all [isCompleted]

theorem complete_of_pending (h : ¬p.isCompleted = true) (a : α) :
    p.complete a = ({ slot := .ready a }, true, p.waiters) := by
  unfold complete
  cases hs : p.slot <;> simp_all [isCompleted]

theorem slot_complete (h : p.slot ≠ .taken) (a : α) :
    (p.complete a).1.slot = .ready (match p.slot with
      | .ready b => b
      | _ => a) := by
  unfold complete
  cases hs : p.slot <;> simp_all

theorem slot_complete_of_pending (h : p.slot = .pending) (a : α) : (p.complete a).1.slot = .ready a := by
  simp [complete, h]

theorem slot_poll [DecidableEq W] (p : Promise α W) (w : W) : (p.poll w).1.slot = p.slot := by
  unfold poll
  split <;> simp_all

end Promise

namespace Client.Call

variable {σ Out In W : Type} {s : Setup σ Out In} {c c' : Call σ Out In W}

/-! ## the two ends of a call -/

/-- Responses that are settled: a single one by a failure, a stream by its end. -/
def settled (r : Responses In W) (single : Status) (stream : Terminal Status) : Responses In W :=
  match r with
  | .single p => .single (p.complete (.error single)).1
  | .stream ch => .stream (ch.terminate stream).1

def stopped (c : Call σ Out In W) (stop : Stop) : Writer (Outbound Out) Failure W :=
  if c.holdsWriter = true ∧ stop = .inline then (c.writer.cancel callCompleted).1 else c.writer

theorem stopWriter_eq (c : Call σ Out In W) (stop : Stop) :
    c.stopWriter stop =
      { c with holdsWriter := false, writer := c.stopped stop, trace := (c.stopWriter stop).trace } := by
  rcases c with ⟨_, _, _, _, _, _, _, holds, _, _, _, _, runtime, _⟩
  cases holds <;> cases stop <;> cases runtime <;> rfl

/-- What both ends of a call have in common. -/
def finish (c : Call σ Out In W) (status : Status) (stop : Stop) : Call σ Out In W :=
  ((c.stopWriter stop).raiseDone).settleStatus status

theorem finish_eq (c : Call σ Out In W) (status : Status) (stop : Stop) :
    c.finish status stop =
      { c with holdsWriter := false, writer := c.stopped stop, done := c.done.raise.1,
               status := (c.status.complete status).1, trace := (c.finish status stop).trace } := by
  have h := stopWriter_eq c stop
  unfold finish raiseDone settleStatus
  rw [h]
  rfl

def detach (c : Call σ Out In W) (es : List (Effect W)) : Call σ Out In W :=
  if c.attached then { c with attached := false }.emit es else c

/-- A call that is over for its transport, and whose promises are settled by a failure. -/
def cutOff (c : Call σ Out In W) (status : Status) : Call σ Out In W :=
  let c := { c with finished := true }.detach [.cancelled, .released]
  let c := (c.settleInitial (.error status)).1.settleTrailing (.error status)
  (c.settleResponses status (.failed status)).raiseCancellation

/-- A call that is over for its transport, and whose promises are settled by the end of the server. -/
def closed (c : Call σ Out In W) (status : Status) (trailers : Metadata) : Call σ Out In W :=
  let c := { c with finished := true }.detach [.released]
  let c := (c.settleInitial (if status.isOk then .ok {} else .error status)).1.settleTrailing (.ok trailers)
  if status.isOk then c.settleResponses missingResponse .finished
  else c.settleResponses status (.failed status)

theorem terminate_eq (going : c.finished = false) (status : Status) (stop : Stop) :
    c.terminate status stop = (c.cutOff status).finish status stop := by
  rw [terminate, if_neg (by simp [going])]
  rfl

theorem complete_eq (going : c.finished = false) (status : Status) (trailers : Metadata) :
    c.complete status trailers = (c.closed status trailers).finish status .inline := by
  rw [complete, if_neg (by simp [going])]
  rfl

/-- A call behind its end, but for its trace. -/
def settledBy (c : Call σ Out In W) (e : Ending) (stop : Stop) (trace : List (Effect W)) : Call σ Out In W :=
  { c with finished := true, attached := false, holdsWriter := false, writer := c.stopped stop,
           initial := (c.initial.complete e.initial).1, trailing := (c.trailing.complete e.trailing).1,
           responses := settled c.responses e.missing e.terminal, status := (c.status.complete e.status).1,
           cancellation := if e.isLocal then c.cancellation.raise.1 else c.cancellation,
           done := c.done.raise.1, trace }

theorem cutOff_eq (c : Call σ Out In W) (status : Status) :
    c.cutOff status =
      { c with finished := true, attached := false, initial := (c.initial.complete (.error status)).1,
               trailing := (c.trailing.complete (.error status)).1,
               responses := settled c.responses status (.failed status),
               cancellation := c.cancellation.raise.1, trace := (c.cutOff status).trace } := by
  rcases c with ⟨_, attached, _, _, _, responses, _, _, _, _, _, _, _, _⟩
  cases attached <;> cases responses <;> rfl

theorem closed_eq (c : Call σ Out In W) (status : Status) (trailers : Metadata) :
    c.closed status trailers =
      { c with finished := true, attached := false,
               initial := (c.initial.complete (if status.isOk then .ok {} else .error status)).1,
               trailing := (c.trailing.complete (.ok trailers)).1,
               responses := settled c.responses (if status.isOk then missingResponse else status)
                 (if status.isOk then .finished else .failed status),
               trace := (c.closed status trailers).trace } := by
  rcases c with ⟨_, attached, _, _, _, responses, _, _, _, _, _, _, _, _⟩
  unfold closed
  cases ok : status.isOk <;> cases attached <;> cases responses <;> rfl

/-- Both ends of a call settle the same things. -/
theorem terminate_eq_settledBy (going : c.finished = false) (status : Status) (stop : Stop) :
    c.terminate status stop = c.settledBy (.terminated status) stop (c.terminate status stop).trace := by
  rw [terminate_eq going, finish_eq, stopped, cutOff_eq]
  rfl

theorem complete_eq_settledBy (going : c.finished = false) (status : Status) (trailers : Metadata) :
    c.complete status trailers =
      c.settledBy (.closed status trailers) .inline (c.complete status trailers).trace := by
  rw [complete_eq going, finish_eq, stopped, closed_eq]
  rfl

/-! ## calls that go on, and calls that have ended -/

/-- A call that has not ended. -/
structure Live (c : Call σ Out In W) : Prop where
  finished : c.finished = false
  status : c.status.slot = .pending
  trailing : c.trailing.slot = .pending
  initial : c.initial.slot ≠ .taken
  cancellation : c.cancellation.raised = false
  responses : ∀ ch, c.responses = .stream ch → ch.terminal = .live
  sound : c.writer.Sound
  /-- Before the call holds its request writer, nobody can have told that the stream is not writable. -/
  idle : c.alive = true → c.holdsWriter = false → c.writer.writable = true

/-- A request writer that keeps nothing, and will not keep anything any more. -/
structure Idle (w : Writer (Outbound Out) Failure W) : Prop where
  sound : w.Sound
  pending : w.pending = []
  passing : w.writable = true ∨ w.completion.isActive = false

/-- What a stream yields to its readers: cut off by a local end, or up to the end of the server. -/
inductive Reads (t : Token W) (ch : Channel In Status W) (o : Outcome In) : Prop
  | cut (status : Status) (raised : t.raised = true) (terminal : ch.terminal = .failed status)
      (queue : o.queue = []) (last : o.last = .error status)
  | whole (raised : t.raised = false) (terminal : ch.terminal ≠ .live) (queue : o.queue = ch.queue)
      (last : o.last = lastRead ch.terminal)

/-- A call that has ended with an outcome. -/
structure Over (c : Call σ Out In W) (o : Outcome In) : Prop where
  finished : c.finished = true
  initial : c.initial.slot = .ready o.initial
  trailing : c.trailing.slot = .ready o.trailing
  status : c.status.slot = .ready o.status
  single : ∀ p, c.responses = .single p →
    p.slot = .ready o.single ∨ p.slot = .taken ∧ o.single = .error responseTaken
  stream : ∀ ch, c.responses = .stream ch → Reads c.cancellation ch o
  holdsWriter : c.holdsWriter = false
  writer : Idle c.writer

theorem Over.yields [DecidableEq W] {o : Outcome In} (h : Over c o) : Yields c o := by
  refine ⟨fun w => ?_, fun w => ?_, fun w => ?_, fun p hp w => ?_, fun ch hc w => ?_, fun w => ?_⟩
  · simp [pollInitial, Promise.poll, h.initial, Poll.map]
  · simp [pollTrailing, Promise.poll, h.trailing, Poll.map]
  · simp [pollStatus, Promise.poll, h.status, Poll.map]
  · rcases h.single p hp with slot | ⟨slot, taken⟩
    · simp [takeResponse, hp, Promise.take, slot, Poll.map]
    · simp [takeResponse, hp, Promise.take, slot, Poll.map, taken]
  · cases h.stream ch hc with
    | cut status raised terminal queue last =>
      simp [readResponse, hc, readMessage, Token.poll, raised, queue, last, Channel.failure, terminal]
    | whole raised terminal queue last =>
      cases hq : ch.queue with
      | nil =>
        cases ht : ch.terminal <;>
          simp_all [readResponse, readMessage, Token.poll, Channel.poll, lastRead]
      | cons m rest => simp [readResponse, hc, readMessage, Token.poll, raised, queue, hq, Channel.poll]
  · unfold pollWrite Writer.pollCapacity
    simp only [h.writer.pending, List.length_nil, Nat.zero_le, if_true]
    split <;> simp

/-- What a call yields depends on nothing but its promises, its streams and its request writer. -/
theorem Over.of_eq {o : Outcome In} (h : Over c o) (finished : c'.finished = c.finished)
    (initial : c'.initial.slot = c.initial.slot) (trailing : c'.trailing.slot = c.trailing.slot)
    (status : c'.status.slot = c.status.slot) (responses : c'.responses = c.responses)
    (cancellation : c'.cancellation = c.cancellation) (holdsWriter : c'.holdsWriter = false)
    (writer : Idle c'.writer) : Over c' o :=
  ⟨finished.trans h.finished, initial.trans h.initial, trailing.trans h.trailing, status.trans h.status,
    fun p hp => h.single p (responses ▸ hp), fun ch hc => cancellation ▸ h.stream ch (responses ▸ hc),
    holdsWriter, writer⟩

/-! ## the first end -/

theorem idle_cancel {w : Writer (Outbound Out) Failure W} (sound : w.Sound) (e : Failure) :
    Idle (w.cancel e).1 := by
  have sound' := Writer.sound_cancel sound e
  rcases Writer.cancel_cases w e with ⟨past, eq⟩ | ⟨-, eq⟩ <;> rw [eq] at sound' ⊢
  · refine ⟨sound', sound.terminated past, .inr ?_⟩
    cases hc : w.completion <;> simp_all [Completion.isTerminated, Completion.isActive]
  · exact ⟨sound', rfl, .inr rfl⟩

theorem idle_stopped (h : Live c) (alive : c.alive = true) : Idle (c.stopped .inline) := by
  unfold stopped
  by_cases holds : c.holdsWriter = true
  · rw [if_pos ⟨holds, rfl⟩]
    exact idle_cancel h.sound callCompleted
  · rw [if_neg (by simp [holds])]
    have writable := h.idle alive (by simpa using holds)
    exact ⟨h.sound, h.sound.writable writable, .inl writable⟩

theorem single_settled {p : Promise (Except Status In) W} {o : Except Status In} {status : Status}
    (h : o = match p.slot with
      | .ready r => r
      | .taken => .error responseTaken
      | .pending => .error status) :
    (p.complete (.error status)).1.slot = .ready o ∨
      (p.complete (.error status)).1.slot = .taken ∧ o = .error responseTaken := by
  unfold Promise.complete
  cases hs : p.slot <;> simp_all

/-- A stream that is closed at the end of its call is read as the ending says. -/
theorem reads_terminate (h : Live c) {ch : Channel In Status W} (live : ch.terminal = .live)
    (hr : c.responses = .stream ch) (e : Ending) :
    Reads (if e.isLocal then c.cancellation.raise.1 else c.cancellation) (ch.terminate e.terminal).1
      (e.outcome c) := by
  have closed : (ch.terminate e.terminal).1 = { ch with terminal := e.terminal, waiter := none } := by
    simp [Channel.terminate, Channel.isTerminated, live, Terminal.isLive]
  rw [closed]
  cases e with
  | terminated status =>
    refine .cut status ?_ rfl ?_ rfl
    · simp [Ending.isLocal, Token.raise, h.cancellation]
    · simp [Ending.outcome, hr, Ending.isLocal]
  | closed status trailers =>
    refine .whole h.cancellation ?_ ?_ rfl
    · simp only [Ending.terminal]
      split <;> simp
    · simp [Ending.outcome, hr, Ending.isLocal]

/-- On the way to a later state all writes that are suspended are woken. -/
def Wakes (c c' : Call σ Out In W) : Prop :=
  ∃ es, c'.trace = c.trace ++ es ∧ ∀ k ∈ c.writer.writeWaiters, .woke k ∈ es

theorem Wakes.of_trace {d : Call σ Out In W} (h : Wakes d c') (trace : c.trace <+: d.trace)
    (writer : d.writer = c.writer) : Wakes c c' := by
  obtain ⟨es, before⟩ := trace
  obtain ⟨fs, behind, woken⟩ := h
  refine ⟨es ++ fs, by simp [behind, ← before], fun k hk => ?_⟩
  exact List.mem_append_right _ (woken k (writer ▸ hk))

theorem trace_detach (c : Call σ Out In W) (es : List (Effect W)) : c.trace <+: (c.detach es).trace := by
  unfold detach
  split
  · exact List.prefix_append _ _
  · exact List.prefix_rfl

theorem trace_settleInitial (c : Call σ Out In W) (r : Except Status Metadata) :
    c.trace <+: (c.settleInitial r).1.trace :=
  List.prefix_append _ _

theorem trace_settleTrailing (c : Call σ Out In W) (r : Except Status Metadata) :
    c.trace <+: (c.settleTrailing r).trace :=
  List.prefix_append _ _

theorem trace_settleResponses (c : Call σ Out In W) (single : Status) (stream : Terminal Status) :
    c.trace <+: (c.settleResponses single stream).trace := by
  unfold settleResponses
  split <;> exact List.prefix_append _ _

theorem trace_raiseCancellation (c : Call σ Out In W) : c.trace <+: c.raiseCancellation.trace :=
  List.prefix_append _ _

theorem trace_cutOff (c : Call σ Out In W) (status : Status) : c.trace <+: (c.cutOff status).trace := by
  unfold cutOff
  exact (trace_detach { c with finished := true } _).trans ((trace_settleInitial _ _).trans
    ((trace_settleTrailing _ _).trans ((trace_settleResponses _ _ _).trans (trace_raiseCancellation _))))

theorem trace_closed (c : Call σ Out In W) (status : Status) (trailers : Metadata) :
    c.trace <+: (c.closed status trailers).trace := by
  simp only [closed]
  split <;> exact (trace_detach { c with finished := true } _).trans ((trace_settleInitial _ _).trans
    ((trace_settleTrailing _ _).trans (trace_settleResponses _ _ _)))

/-- A request writer that is idle behind the end of its call was woken up for it. -/
theorem wakes_stopWriter (sound : c.writer.Sound) {stop : Stop} (idle : Idle (c.stopped stop)) :
    Wakes c (c.stopWriter stop) := by
  unfold stopped at idle
  unfold stopWriter
  by_cases holds : c.holdsWriter = true
  · rw [if_pos holds]
    cases stop with
    | inline =>
      simp only [cancelWriter]
      rcases Writer.cancel_cases c.writer callCompleted with ⟨past, e⟩ | ⟨-, e⟩ <;> rw [e]
      · refine ⟨[], rfl, ?_⟩
        simp [sound.writers (sound.terminated past)]
      · refine ⟨_, rfl, fun k hk => ?_⟩
        simp [hk]
    | deferred =>
      rw [if_neg (by simp)] at idle
      have nobody := sound.writers idle.pending
      simp only
      split
      · exact ⟨_, rfl, by simp [nobody]⟩
      · exact ⟨[], by simp, by simp [nobody]⟩
  · rw [if_neg holds]
    rw [if_neg (by simp [holds])] at idle
    exact ⟨[], by simp, by simp [sound.writers idle.pending]⟩

/-- What a call still has to do, once its promises are settled, wakes all suspended writes. -/
theorem wakes_finish {d : Call σ Out In W} (sound : c.writer.Sound) {stop : Stop} (idle : Idle (c.stopped stop))
    (writer : d.writer = c.writer) (holds : d.holdsWriter = c.holdsWriter) (trace : c.trace <+: d.trace)
    (status : Status) : Wakes c (d.finish status stop) := by
  have same : d.stopped stop = c.stopped stop := by rw [stopped, stopped, writer, holds]
  obtain ⟨es, behind, woken⟩ := wakes_stopWriter (c := d) (writer ▸ sound) (same ▸ idle)
  refine Wakes.of_trace ⟨es ++ (d.stopWriter stop).done.raise.2.map .woke ++
    ((d.stopWriter stop).raiseDone.status.complete status).2.2.map .woke, ?_, fun k hk => ?_⟩ trace writer
  · simp only [← List.append_assoc, ← behind]
    rfl
  · simp [woken k hk]

/-- A call that has ended: its outcome is fixed, and all suspended writes are woken. -/
structure Ends (c c' : Call σ Out In W) (e : Ending) : Prop where
  past : Over c' (e.outcome c)
  wakes : Wakes c c'

theorem over_settledBy (h : Live c) (e : Ending) {stop : Stop} (idle : Idle (c.stopped stop))
    (trace : List (Effect W)) : Over (c.settledBy e stop trace) (e.outcome c) := by
  refine ⟨rfl, ?_, ?_, ?_, fun p hp => ?_, fun ch hc => ?_, rfl, idle⟩
  · refine (Promise.slot_complete h.initial e.initial).trans ?_
    cases hs : c.initial.slot <;> simp [Ending.outcome, hs]
  · exact Promise.slot_complete_of_pending h.trailing e.trailing
  · exact Promise.slot_complete_of_pending h.status e.status
  · cases hr : c.responses with
    | single q =>
      simp only [settledBy, settled, hr, Responses.single.injEq] at hp
      subst hp
      refine single_settled ?_
      rcases q with ⟨_ | _ | _, _⟩ <;> simp [Ending.outcome, hr]
    | stream ch => simp [settledBy, settled, hr] at hp
  · cases hr : c.responses with
    | single q => simp [settledBy, settled, hr] at hc
    | stream ch' =>
      simp only [settledBy, settled, hr, Responses.stream.injEq] at hc
      subst hc
      exact reads_terminate h (h.responses ch' hr) hr e

theorem ends_terminate (h : Live c) {stop : Stop} (idle : Idle (c.stopped stop)) (status : Status) :
    Ends c (c.terminate status stop) (.terminated status) := by
  have past := over_settledBy h (.terminated status) idle (c.terminate status stop).trace
  refine ⟨terminate_eq_settledBy h.finished status stop ▸ past, ?_⟩
  rw [terminate_eq h.finished]
  exact wakes_finish h.sound idle (by rw [cutOff_eq]) (by rw [cutOff_eq]) (trace_cutOff c status) status

theorem ends_complete (h : Live c) (idle : Idle (c.stopped .inline)) (status : Status) (trailers : Metadata) :
    Ends c (c.complete status trailers) (.closed status trailers) := by
  have past := over_settledBy h (.closed status trailers) idle (c.complete status trailers).trace
  refine ⟨complete_eq_settledBy h.finished status trailers ▸ past, ?_⟩
  rw [complete_eq h.finished]
  exact wakes_finish h.sound idle (by rw [closed_eq]) (by rw [closed_eq]) (trace_closed c status trailers) status

end Client.Call

end CallLifecycle
