import CallLifecycle.Proofs.Client.Abandonment

/-!
# The signals of a transport that is not writable

The request writer of a call does what its transport signals. It is given to the call last, when the stream was opened
and the metadata were sent; a transport may signal before that, and nobody remembers.

* `signals`, `latest` — the signals of a run, and the last of them;
* `writable_step`, `mirrors_after` — only a signal tells the request writer whether its transport is writable, and every
  signal does as long as the call goes on;
* `Delivers`, `delivers_of_orderly` — what a step sends is what the request writer hands over;
* `Minds` — a request writer that minds a signal;
* `minds_iff_heard` — **in every run in order** the request writer minds the last signal behind its own beginning. It
  minds the last signal of all just if that came behind its beginning, or said that the transport is writable.
-/

namespace CallLifecycle

namespace Writer

variable {α ε W : Type} {w : Writer α ε W}

theorem writable_setWritable (w : Writer α ε W) (b : Bool) : (w.setWritable b).1.writable = b := by
  cases b with
  | false => rfl
  | true => rcases w with ⟨_, _ | _, _, _ | _ | _ | _, _, _⟩ <;> rfl

theorem handedOver_setWritable (h : w.Sound) :
    handedOver (w.setWritable true).2.1 = w.pending ∧ (w.setWritable true).1.pending = [] := by
  rcases setWritable_cases h true with ⟨isFalse, -⟩ | ⟨-, nothing, e⟩ | ⟨-, -, -, e⟩ | ⟨-, -, r, -, e⟩
  · cases isFalse
  · simp [e, nothing]
  · simp [e]
  · simp [e]

end Writer

namespace Client

open Server (InboundPhase)

def Act.signal? {Out W : Type} : Act Out W → Option Bool
  | .routed (.writable b) => some b
  | _ => none

namespace Call

variable {σ Out In W : Type} {s : Setup σ Out In} {c c' : Call σ Out In W}

def signals (acts : List (Act Out W)) : List Bool := acts.filterMap Act.signal?

/-- What the last signal of a run says; a transport is writable until it says that it is not. -/
def latest (acts : List (Act Out W)) : Bool := (signals acts).getLast?.getD true

theorem latest_append_of_heard {acts more : List (Act Out W)} (heard : signals more ≠ []) :
    latest (acts ++ more) = latest more := by
  obtain ⟨b, last⟩ := Option.ne_none_iff_exists'.mp (mt List.getLast?_eq_none_iff.mp heard)
  have whole : signals (acts ++ more) = signals acts ++ signals more := List.filterMap_append
  simp [latest, whole, List.getLast?_append, last]

theorem latest_append_of_unheard {acts more : List (Act Out W)} (unheard : signals more = []) :
    latest (acts ++ more) = latest acts := by
  have whole : signals (acts ++ more) = signals acts ++ signals more := List.filterMap_append
  rw [latest, whole, unheard, List.append_nil, latest]

/-! ## what the request writer knows -/

@[simp] theorem writable_terminate (c : Call σ Out In W) (status : Status) (stop : Stop) :
    (c.terminate status stop).writer.writable = c.writer.writable := by
  by_cases going : c.finished = false
  · rw [terminate_eq_settledBy going]
    simp only [settledBy, stopped]
    split
    · exact Writer.writable_cancel _ _
    · rfl
  · rw [terminate_of_finished (by simpa using going)]

theorem writable_complete (c : Call σ Out In W) (status : Status) (trailers : Metadata) :
    (c.complete status trailers).writer.writable = c.writer.writable := by
  by_cases going : c.finished = false
  · rw [complete_eq_settledBy going]
    simp only [settledBy, stopped]
    split
    · exact Writer.writable_cancel _ _
    · rfl
  · rw [complete, if_pos (by simpa using going)]

theorem writable_route (s : Setup σ Out In) (c : Call σ Out In W) (p : ResponsePart) :
    (c.route s p).writer.writable = c.writer.writable := by
  have routing := routing s c p
  generalize c.route s p = c' at routing ⊢
  generalize c.violation? s p = reason at routing
  cases routing with
  | ignored | taken => rfl
  | rejected | violated | undecodable => exact writable_terminate _ _ _
  | closed => exact writable_complete _ _ _

theorem Sends.writable {stop : Stop} {r : Except Status σ} (h : Sends c stop r c') :
    c'.writer.writable = c.writer.writable := by
  cases h with
  | on y es => rfl
  | off status y es => exact writable_terminate _ _ _

theorem Sends.writer {r : Except Status σ} (h : Sends c .deferred r c') : c'.writer = c.writer := by
  cases h with
  | on y es => rfl
  | off status y es =>
    by_cases going : c.finished = false
    · rw [terminate_eq_settledBy (c := c.beside y es) going]
      simp [settledBy, stopped, beside]
    · rw [terminate_of_finished (c := c.beside y es) (by simpa [beside] using going)]
      rfl

theorem writer_withWriter (s : Setup σ Out In) (c : Call σ Out In W)
    (r : Writer (Outbound Out) Failure W × List (WriterEvent (Outbound Out) Failure) × List W) :
    (c.withWriter s r).writer = r.1 := by
  by_cases finished : c.finished = true
  · rw [withWriter_of_finished finished]
  by_cases alive : c.alive = true
  · exact (sends_events (s := s) (c := { c with writer := r.1 }) (by simpa using finished) alive r.2.1).writer
  · rw [withWriter_of_dropped (by simpa using alive)]

section Steps

variable [DecidableEq W]

theorem writable_step (s : Setup σ Out In) (c : Call σ Out In W) {a : Act Out W} (other : a.signal? = none) :
    (c.step s a).writer.writable = c.writer.writable := by
  cases a with
  | routed r =>
    cases r with
    | part p => exact writable_route s c p
    | failure e =>
      simp only [step, onRouted, fail]
      split
      · exact writable_terminate c _ _
      · rfl
    | writable b => cases other
  | refused | cancel | expire =>
    simp only [step, expire]
    split
    · exact writable_terminate c _ _
    · rfl
  | connected =>
    simp only [step]
    split <;> rfl
  | arm =>
    simp only [step]
    split
    · split <;> rfl
    · rfl
  | sendMetadata =>
    simp only [step]
    split
    · exact (sends_metadata c _).writable
    · rfl
  | sendMessage m =>
    simp only [step]
    split
    · by_cases finished : c.finished = true
      · rw [sendMessages_of_finished finished]
      · exact (sends_messages (by simpa using finished) _ _).writable
    · rfl
  | sendEnd =>
    simp only [step]
    split
    · by_cases finished : c.finished = true
      · rw [sendEnd_of_finished finished]
      · exact (sends_end (by simpa using finished) _).writable
    · rfl
  | attachWriter =>
    simp only [step, attachWriter]
    split
    · split
      · exact Writer.writable_cancel _ _
      · rfl
    · rfl
  | write m =>
    rw [step, write, writer_withWriter]
    exact Writer.writable_offer _ _
  | finish =>
    rw [step, finishRequests, writer_withWriter]
    exact Writer.writable_finish _ _
  | stopWriter =>
    simp only [step]
    split
    · exact Writer.writable_cancel _ _
    · rfl
  | awaitWrite w => exact Writer.writable_pollCapacity _ _
  | awaitDrained w => exact Writer.writable_pollDrained _ _
  | read w =>
    simp only [step, readResponse]
    split <;> rfl
  | take w =>
    simp only [step, takeResponse]
    split <;> rfl
  | drop => rw [step, writer_drop]
  | opening | awaitInitial | awaitTrailing | awaitStatus | awaitDone => rfl

/-- A call that holds its request writer lets it know every signal. -/
theorem mirrors_after {acts : List (Act Out W)} (holds : c.holdsWriter = true) (going : Going (run (step s) c acts)) :
    (run (step s) c acts).holdsWriter = true ∧
      (run (step s) c acts).writer.writable = (signals acts).getLast?.getD c.writer.writable := by
  induction acts generalizing c with
  | nil => exact ⟨holds, rfl⟩
  | cons a acts ih =>
    have on : Going (c.step s a) := going_of_after going
    have keeps := keeps_step s c a on
    obtain ⟨holds', mirrors⟩ := ih (keeps.holdsWriter holds) going
    refine ⟨holds', mirrors.trans ?_⟩
    cases signal : a.signal? with
    | none => rw [writable_step s c signal, signals, signals, List.filterMap_cons_none signal]
    | some b =>
      have told : a = .routed (.writable b) := by
        cases a with
        | routed r => cases r <;> simp_all [Act.signal?]
        | _ => cases signal
      have known : (c.step s a).writer.writable = b := by
        subst told
        rw [step, onRouted, setWritable, if_pos (by simp [keeps.going.1, holds]), writer_withWriter]
        exact Writer.writable_setWritable _ _
      rw [known, signals, signals, List.filterMap_cons_some signal, List.getLast?_cons, Option.getD_some]

/-! ## what is handed over is sent -/

/-- What becomes of what a request writer hands over, of a call `c` that becomes `c'`: these messages are sent, and of
them all, unless a failure to send them ends the call. A call that has ended or was dropped sends none. -/
structure Delivers (s : Setup σ Out In) (c c' : Call σ Out In W) (handed : List (Outbound Out))
    (said : List RequestPart) (done : List (Outbound Out)) : Prop where
  sent : ∃ qs, c'.sent = c.sent ++ qs ∧ List.Forall₂ (Comes s.pipeline) said qs
  codes : List.Forall₂ s.codec.Encodes done (requestPayloads said)
  sub : done <+: handed
  whole : Going c' → done = handed
  gone : ¬ Going c → done = []

omit [DecidableEq W] in
theorem delivers_nothing {handed : List (Outbound Out)} (sent : c'.sent = c.sent) (whole : Going c' → handed = []) :
    Delivers s c c' handed [] [] :=
  ⟨⟨[], by rw [sent, List.append_nil], .nil⟩, .nil, List.nil_prefix, fun going => (whole going).symm, fun _ => rfl⟩

omit [DecidableEq W] in
theorem Utters.delivers {stop : Stop} {said : List RequestPart} {whole : Bool} {batch done : List (Outbound Out)}
    (utters : Utters s c stop said whole c') (coded : Coded s batch said done whole) (bare : ¬ Going c → done = []) :
    Delivers s c c' batch said done := by
  obtain ⟨more, on⟩ := utters.said
  exact ⟨more.sent, coded.codes, coded.sub, fun going => coded.whole (on going), bare⟩

omit [DecidableEq W] in
/-- What a request writer in use hands over is sent. -/
theorem Ledger.delivers {shape : Shape} {asked asks : Prop} {taken done added : List (Outbound Out)}
    {said : List RequestPart} {phase : InboundPhase}
    (h : Ledger s shape .started c asked taken said done phase) (streams : shape.streamsRequests = true)
    {r : Writer (Outbound Out) Failure W × List (WriterEvent (Outbound Out) Failure) × List W}
    (handles : Handles c asked asks r added) :
    ∃ said done, Delivers s c (c.withWriter s r) (handedOver r.2.1) said done := by
  have quiet (nothing : c.withWriter s r = { c with writer := r.1, trace := c.trace ++ r.2.2.map .woke }) :
      (c.withWriter s r).sent = c.sent := by
    rw [nothing, sent_eq, sent_eq, List.filterMap_append, (hushed_woke _).sent, List.append_nil]
  by_cases going : Going c
  · by_cases closed : phase = .closed
    · -- A request that has its end was finished, and its writer hands nothing over behind that.
      have nothing := (handles.passes.past ((h.closed closed).2.2 streams).2).1
      refine ⟨[], [], delivers_nothing (quiet ?_) fun _ => by rw [nothing, handedOver_nil]⟩
      rw [withWriter, nothing]
      rfl
    · have underway := h.going going
      obtain ⟨said, whole, done, utters, coded, -⟩ := utters_events (s := s) (c := { c with writer := r.1 }) going.2
        going.1 (underway.attached rfl) handles.passes.last fun e mem isEnd =>
          (handles.ends (underway.writer closed) e mem isEnd).1
      obtain ⟨sent, codes, sub, whole, -⟩ := utters.delivers coded fun gone => absurd going gone
      refine ⟨said, done, ⟨?_, codes, sub, whole, fun gone => absurd going gone⟩⟩
      simpa [withWriter, sent_eq, emit, (hushed_woke _).sent] using sent
  · have same : c.withWriter s r = { c with writer := r.1, trace := c.trace ++ r.2.2.map .woke } := by
      by_cases alive : c.alive = true
      · exact withWriter_of_finished (by simpa [Going, alive] using going) r
      · exact withWriter_of_dropped (by simpa using alive) r
    refine ⟨[], [], delivers_nothing (quiet same) fun on => ?_⟩
    rw [same] at on
    exact absurd on going

theorem delivers_of_passive (unstopped : Going c → c.trace.any Effect.isStopping = false) {a : Act Out W}
    (passive : a.isPassive = true) : Delivers s c (c.step s a) (handedOver (c.handsOver a)) [] [] := by
  have nothing : c.handsOver a = [] := by
    cases a with
    | routed r =>
      cases r with
      | writable b => cases passive
      | _ => rfl
    | write | finish => cases passive
    | _ => rfl
  refine delivers_nothing (still_step (fun _ => unstopped) passive).sent fun _ => ?_
  rw [nothing, handedOver_nil]

omit [DecidableEq W] in
theorem delivers_metadata (s : Setup σ Out In) (c : Call σ Out In W) (m : Metadata) :
    ∃ said, Delivers s c (c.sendMetadata s m) [] said [] := by
  cases attached : c.attached with
  | true =>
    obtain ⟨said, whole, utters, coded, -⟩ := utters_metadata (s := s) attached m
    exact ⟨said, utters.delivers coded fun _ => rfl⟩
  | false =>
    obtain ⟨y, es, rejection, sent, hushed⟩ := sendPart_of_detached s attached (.metadata m) {}
    have unsaid : (c.beside y es).sent = c.sent := by simp [sent_eq, beside, hushed.sent]
    refine ⟨[], delivers_nothing ?_ fun _ => rfl⟩
    rw [sendMetadata, sent]
    cases rejection with
    | none => exact unsaid
    | some r => exact (sent_terminate _ _ _).trans unsaid

/-- A signal makes the request writer hand its messages over, if the call that is held holds it. -/
theorem Ledger.delivers_setWritable {shape : Shape} {stage : Stage} {asked : Prop} {taken done : List (Outbound Out)}
    {said : List RequestPart} {phase : InboundPhase} (h : Ledger s shape stage c asked taken said done phase)
    (streams : shape.streamsRequests = true) (b : Bool) :
    ∃ said done, Delivers s c (c.step s (.routed (.writable b)))
      (handedOver (c.handsOver (.routed (.writable b) : Act Out W))) said done := by
  by_cases used : c.alive = true ∧ c.holdsWriter = true
  · obtain ⟨rfl, -⟩ := h.holds used.2
    rw [step, onRouted, setWritable, if_pos (by simp [used]), handsOver, if_pos used.2]
    exact h.delivers streams (handles_setWritable h.sound b)
  · have ignored : c.step s (.routed (.writable b)) = c := by
      rw [step, onRouted, setWritable, if_neg (by simpa using used)]
    refine ⟨[], [], delivers_nothing (congrArg sent ignored) fun going => ?_⟩
    -- A call that does not hold its writer hands nothing of it over.
    have idle : ¬ c.holdsWriter = true := fun holds => used ⟨(ignored ▸ going).1, holds⟩
    rw [handsOver, if_neg idle, handedOver_nil]

/-- **What a step sends is what the request writer hands over**, in every run in order. -/
theorem delivers_of_orderly (s : Setup σ Out In) (runtime : Bool) (x : σ) {shape : Shape} {request : Out}
    (streams : shape.streamsRequests = true) {acts : List (Act Out W)} {stage next : Stage} {a : Act Out W}
    (orderly : Orderly shape request acts stage) (follows : Follows shape request stage a next) :
    let c := run (step s) (new s shape runtime x) acts
    ∃ said done, Delivers s c (c.step s a) (handedOver (c.handsOver a)) said done := by
  intro c
  obtain ⟨said, done, phase, ledger⟩ := ledger_of_orderly s runtime x orderly
  have quiet (passive : a.isPassive = true) :
      ∃ said done, Delivers s c (c.step s a) (handedOver (c.handsOver a)) said done :=
    ⟨[], [], delivers_of_passive (fun going => (ledger.going going).unstopped) passive⟩
  cases follows with
  | opens opens =>
    cases opens with
    | opening | refused | arm => exact quiet rfl
    | connected =>
      refine ⟨[], [], delivers_nothing ?_ fun _ => rfl⟩
      simp only [step]
      split <;> rfl
    | metadata =>
      simp only [step]
      split
      · obtain ⟨said, delivers⟩ := delivers_metadata s c (requestMetadata s.options (timeout s))
        exact ⟨said, [], delivers⟩
      · exact ⟨[], [], delivers_nothing rfl fun _ => rfl⟩
    | writer =>
      refine ⟨[], [], delivers_nothing ?_ fun _ => rfl⟩
      simp only [step, attachWriter]
      split
      · split
        · simp [cancelWriter, sent_eq, emit, (hushed_woke _).sent]
        · rfl
      · rfl
    | message single | close single => simp [streams] at single
  | outside outside =>
    cases a with
    | routed r =>
      cases r with
      | writable b => exact ledger.delivers_setWritable streams b
      | _ => exact quiet rfl
    | expire | stopWriter | awaitDone => exact quiet rfl
    | _ => cases outside
  | use use =>
    cases a with
    | write m => exact ledger.delivers streams (handles_offer ledger.sound m)
    | finish => exact ledger.delivers streams (handles_finish ledger.sound)
    | awaitWrite | awaitDrained | cancel | read | take | awaitInitial | awaitTrailing | awaitStatus | drop =>
      exact quiet rfl
    | _ => cases use

/-! ## which signals are minded -/

omit [DecidableEq W] in
/-- A request writer that minds a signal. -/
structure Minds (c : Call σ Out In W) (writable : Bool) : Prop where
  /-- It hands nothing over to a transport that is not writable, until that says that it is. -/
  waits : writable = false → ∀ a, a ≠ .routed (.writable true) → handedOver (c.handsOver a) = []
  /-- It keeps nothing from a transport that is writable. -/
  goesOn : writable = true → c.writer.pending = []

omit [DecidableEq W] in
theorem minds_writer (sound : c.writer.Sound) : Minds c c.writer.writable := by
  refine ⟨fun unwritable a other => ?_, sound.writable⟩
  cases a with
  | write m =>
    rcases Writer.offer_cases c.writer m with ⟨why, e⟩ | ⟨-, writable, -⟩ | ⟨-, -, adm, -, e⟩
    · rw [handsOver, e, handedOver_nil]
    · simp [unwritable] at writable
    · rw [handsOver, e, handedOver_nil]
  | finish =>
    rcases Writer.finish_cases sound none with ⟨-, e⟩ | ⟨-, -, e⟩ | ⟨-, -, e⟩ <;> rw [handsOver, e] <;> rfl
  | routed r =>
    cases r with
    | writable b =>
      cases b with
      | true => exact absurd rfl other
      | false =>
        rw [handsOver]
        split <;> rfl
    | _ => rfl
  | _ => rfl

omit [DecidableEq W] in
theorem writable_of_minds (active : c.writer.completion = .active) (m : Outbound Out) {writable : Bool}
    (minds : Minds c writable) (passing : c.writer.writable = true) : writable = true := by
  cases writable with
  | true => rfl
  | false =>
    have nothing := minds.waits rfl (.write m) nofun
    rcases Writer.offer_cases c.writer m with ⟨why, e⟩ | ⟨-, -, e⟩ | ⟨-, unwritable, -⟩
    · simp [Writer.offer, active, Completion.isActive, passing] at e
    · rw [handsOver, e] at nothing
      cases nothing
    · simp [passing] at unwritable

/-- What a call that goes on has made of the messages that were `taken`. -/
structure Resumes (s : Setup σ Out In) (c : Call σ Out In W) (taken : List (Outbound Out)) : Prop where
  /-- The first of them were sent, and the others are kept, in order. -/
  keeps : ∃ said done, List.Forall₂ (Comes s.pipeline) said c.sent ∧
    List.Forall₂ s.codec.Encodes done (requestPayloads said) ∧ taken = done ++ c.writer.pending
  /-- All that are kept are handed over as soon as the transport is writable. -/
  flushes : handedOver (c.handsOver (.routed (.writable true))) = c.writer.pending ∧
    (c.step s (.routed (.writable true))).writer.pending = []

section Run

variable {shape : Shape} {request : Out} {early late : List (Act Out W)}

omit [DecidableEq W] in
theorem greeted_of_attachWriter {stage : Stage}
    (orderly : Orderly shape request (early ++ .attachWriter :: late) stage) :
    Orderly shape request early .greeted := by
  rw [← List.singleton_append, ← List.append_assoc] at orderly
  obtain ⟨next, began⟩ := orderly_of_append orderly
  obtain ⟨before, opened, follows⟩ := follows_of_orderly began
  cases follows with
  | opens opens =>
    cases opens
    exact opened
  | outside outside => cases outside
  | use use => cases use

omit [DecidableEq W] in
theorem unstarted_of_append {acts more : List (Act Out W)} {stage : Stage}
    (orderly : Orderly shape request (acts ++ more) stage) (unstarted : stage ≠ .started) :
    ∃ before, Orderly shape request acts before ∧ before ≠ .started := by
  induction more using List.reverseRecOn generalizing stage with
  | nil => exact ⟨stage, by simpa using orderly, unstarted⟩
  | append_singleton more a ih =>
    rw [← List.append_assoc] at orderly
    obtain ⟨before, orderly, follows⟩ := follows_of_orderly orderly
    refine ih orderly ?_
    rintro rfl
    cases follows with
    | opens opens => cases opens
    | outside outside => exact unstarted rfl
    | use use => exact unstarted rfl

/-- Before the request writer is given to its call, nothing is handed over. -/
theorem handsOver_of_early (s : Setup σ Out In) (runtime : Bool) (x : σ) {stage : Stage}
    (orderly : Orderly shape request early stage) (unstarted : stage ≠ .started) {acts more : List (Act Out W)}
    {a : Act Out W} (split : early = acts ++ a :: more) :
      (run (step s) (new s shape runtime x) acts).handsOver a = [] := by
  rw [split, ← List.singleton_append, ← List.append_assoc] at orderly
  obtain ⟨next, orderly, unstarted⟩ := unstarted_of_append orderly unstarted
  obtain ⟨before, orderly, follows⟩ := follows_of_orderly orderly
  obtain ⟨said, done, phase, ledger⟩ := ledger_of_orderly s runtime x orderly
  cases follows with
  | opens opens => cases opens <;> rfl
  | outside outside =>
    cases a with
    | routed r =>
      cases r with
      | writable b => rw [handsOver, if_neg fun holds => unstarted (ledger.holds holds).1]
      | _ => rfl
    | expire | stopWriter | awaitDone => rfl
    | _ => cases outside
  | use use => exact absurd rfl unstarted

/-- A call that goes on knows what was signalled behind the beginning of its request writer. -/
theorem mirrors_of_orderly (s : Setup σ Out In) (runtime : Bool) (x : σ)
    (orderly : Orderly shape request (early ++ .attachWriter :: late) .started)
    (going : Going (run (step s) (new s shape runtime x) (early ++ .attachWriter :: late))) :
    (run (step s) (new s shape runtime x) (early ++ .attachWriter :: late)).holdsWriter = true ∧
      (run (step s) (new s shape runtime x) (early ++ .attachWriter :: late)).writer.writable = latest late := by
  obtain ⟨said, done, phase, ledger⟩ := ledger_of_orderly s runtime x (greeted_of_attachWriter orderly)
  rw [run_append, run_cons] at going ⊢
  have undecided (k : Going (run (step s) (new s shape runtime x) early)) := undecided_of_going s shape runtime x k
  have live (k : Going (run (step s) (new s shape runtime x) early)) :=
    live_after (live_new s shape runtime x) (undecided k)
  generalize run (step s) (new s shape runtime x) early = c at going ledger live ⊢
  have before := (keeps_step s c .attachWriter (going_of_after going)).going
  have unheld : c.holdsWriter = false := by
    by_contra holds
    cases (ledger.holds (by simpa using holds)).1
  have attached : c.step s .attachWriter = { c with holdsWriter := true } := by
    simp [step, attachWriter, before.1, before.2]
  rw [attached] at going ⊢
  obtain ⟨holds, mirrors⟩ := mirrors_after rfl going
  refine ⟨holds, mirrors.trans ?_⟩
  rw [latest, (live before).idle before.1 unheld]

/-- What was taken over of a call that goes on, in every run in order. -/
theorem resumes_of_orderly (s : Setup σ Out In) (runtime : Bool) (x : σ)
    (orderly : Orderly shape request (early ++ .attachWriter :: late) .started)
    (going : Going (run (step s) (new s shape runtime x) (early ++ .attachWriter :: late))) :
    Resumes s (run (step s) (new s shape runtime x) (early ++ .attachWriter :: late))
      ((new s shape runtime x).accepted s (early ++ .attachWriter :: late)) := by
  obtain ⟨holds, -⟩ := mirrors_of_orderly s runtime x orderly going
  obtain ⟨said, done, phase, ledger⟩ := ledger_of_orderly s runtime x orderly
  obtain ⟨handed, empty⟩ := Writer.handedOver_setWritable ledger.sound
  refine ⟨⟨said, done, ledger.comes, ledger.codes, (ledger.going going).sum⟩, ?_, ?_⟩
  · rw [handsOver, if_pos holds, handed]
  · rw [step, onRouted, setWritable, if_pos (by rw [going.1, holds]; rfl), writer_withWriter, empty]

/-- **A call that goes on minds the last signal of its transport just if it heard it**, in every run in order of a call
that streams its requests: if the signal came behind the beginning of its request writer, or said that the transport is
writable. What came behind that beginning is always minded: no message is handed over to a transport that is not
writable, and those that are kept are handed over, in order, as soon as it is writable. What a step sends is what is
handed over, up to a failure that ends the call; a call that has ended sends nothing of it, nor does one that was
dropped. -/
theorem minds_iff_heard (s : Setup σ Out In) (runtime : Bool) (x : σ) (streams : shape.streamsRequests = true)
    (orderly : Orderly shape request (early ++ .attachWriter :: late) .started) :
    let c := run (step s) (new s shape runtime x) (early ++ .attachWriter :: late)
    (Going c → Minds c (latest late) ∧
      Resumes s c ((new s shape runtime x).accepted s (early ++ .attachWriter :: late)) ∧
      (.finish ∉ early ++ .attachWriter :: late →
        (Minds c (latest (early ++ .attachWriter :: late)) ↔ signals late ≠ [] ∨ latest early = true))) ∧
    (∀ a, Follows shape request .started a .started →
      ∃ said done, Delivers s c (c.step s a) (handedOver (c.handsOver a)) said done) ∧
    ∀ acts a more, early = acts ++ a :: more → (run (step s) (new s shape runtime x) acts).handsOver a = [] := by
  intro c
  obtain ⟨said, done, phase, ledger⟩ := ledger_of_orderly s runtime x orderly
  refine ⟨fun going => ?_, fun a follows => delivers_of_orderly s runtime x streams orderly follows,
    fun acts a more => handsOver_of_early s runtime x (greeted_of_attachWriter orderly) nofun⟩
  obtain ⟨-, mirrors⟩ := mirrors_of_orderly s runtime x orderly going
  have minds : Minds c (latest late) := mirrors ▸ minds_writer ledger.sound
  refine ⟨minds, resumes_of_orderly s runtime x orderly going, fun unfinished => ?_⟩
  have silent : signals (.attachWriter :: late) = signals late := rfl
  by_cases heard : signals late = []
  · -- The request writer heard nothing: it takes its transport to be writable.
    have fresh : latest late = true := by rw [latest, heard, List.getLast?_nil, Option.getD_none]
    rw [latest_append_of_unheard (silent.trans heard)]
    constructor
    · intro minds
      have open' : phase ≠ .closed := fun closed => unfinished ((ledger.closed closed).2.2 streams).1
      have active : c.writer.completion = .active :=
        ((ledger.going going).writer open').resolve_right fun asked => unfinished asked.2
      exact .inr (writable_of_minds active { message := request } minds (mirrors.trans fresh))
    · rintro (spoke | writable)
      · exact absurd heard spoke
      · rwa [writable, ← fresh]
  · have heard' : signals (.attachWriter :: late) ≠ [] := heard
    rw [latest_append_of_heard heard']
    exact ⟨fun _ => .inl heard, fun _ => minds⟩

end Run

/-- The transport says that it is not writable while it opens the stream. -/
def toldEarly : List (Act Bytes Nat) := opening [.writable false] none

/-- The last handle is dropped while a message is kept from a transport that is not writable. -/
def leftWaiting : List (Act Bytes Nat) := [.routed (.writable false), .write ⟨[1], .inherit⟩, .drop]

/-- A message goes to a transport that said too early that it is not writable. A message that is kept when its call is
dropped is not sent when the transport is writable again, though the call has not ended. -/
theorem minds_of_toldEarly :
    let start : Call Unit Bytes Bytes Nat := new narrow .bidi true ()
    let c := run (step narrow) start (toldEarly ++ [.attachWriter])
    let d := run (step narrow) start (opening [] none ++ .attachWriter :: leftWaiting)
    Orderly .bidi [] (toldEarly ++ [.attachWriter]) .started ∧ Going c ∧ Minds c true ∧
    latest (toldEarly ++ [.attachWriter]) = false ∧ ¬ Minds c false ∧
    handedOver (c.handsOver (.write ⟨[1], .inherit⟩)) = [⟨[1], .inherit⟩] ∧
    Orderly .bidi [] (opening [] none ++ .attachWriter :: leftWaiting : List (Act Bytes Nat)) .started ∧
    d.finished = false ∧ d.writer.pending = [⟨[1], .inherit⟩] ∧
    (∃ said, Delivers narrow d (d.step narrow (.routed (.writable true))) [] said []) ∧
    (d.step narrow (.routed (.writable true))).sent = [.metadata {}] := by
  intro start c d
  have opened : Orderly .bidi [] (toldEarly ++ [.attachWriter]) .started :=
    orderly_beginning .bidi [] [.writable false] none
  have began : Orderly .bidi [] (opening [] none ++ [.attachWriter] : List (Act Bytes Nat)) .started :=
    orderly_beginning .bidi [] [] none
  have left : Orderly .bidi [] (opening [] none ++ .attachWriter :: leftWaiting : List (Act Bytes Nat)) .started :=
    ((began.snoc (.outside (a := .routed (.writable false)) rfl)).snoc
      (.use (a := .write ⟨[1], .inherit⟩) rfl)).snoc (.use (a := .drop) rfl)
  have going : Going c := ⟨rfl, rfl⟩
  obtain ⟨of_going, -, -⟩ := minds_iff_heard narrow true () rfl opened
  obtain ⟨minds, -, exactly⟩ := of_going going
  have deaf : ¬ Minds c false := fun told => by
    rcases (exactly (by simp [toldEarly, opening])).mp told with heard | writable
    · exact heard rfl
    · cases writable
  obtain ⟨-, sends, -⟩ := minds_iff_heard narrow true () rfl left
  obtain ⟨said, done, delivers⟩ := sends (.routed (.writable true)) (.outside rfl)
  obtain rfl : done = [] := delivers.gone fun on => by cases on.1
  have unsent : (d.step narrow (.routed (.writable true))).sent = [.metadata {}] := rfl
  have goesOn : d.finished = false := rfl
  have kept : d.writer.pending = [⟨[1], .inherit⟩] := rfl
  have accepts : handedOver (c.handsOver (.write ⟨[1], .inherit⟩)) = [⟨[1], .inherit⟩] := rfl
  exact ⟨opened, going, minds, rfl, deaf, accepts, left, goesOn, kept, ⟨said, delivers⟩, unsent⟩

end Steps

end Call

end Client

end CallLifecycle
