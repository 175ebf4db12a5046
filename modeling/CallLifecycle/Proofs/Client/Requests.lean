import CallLifecycle.Proofs.Client.Order
import CallLifecycle.Proofs.Client.Utterance

/-!
# The request of a client call

What a call has sent is kept beside the request messages that were accepted, step by step: `Ledger`. By
`ledger_of_orderly`, **in every run in order** what was sent is the beginning of a request, its messages are the first
of those that were accepted, and its end is sent only behind all of them.
-/

namespace CallLifecycle.Client

open Server (InboundPhase)

namespace Call

variable {σ Out In W : Type} {s : Setup σ Out In} {c c' c'' : Call σ Out In W}

/-! ## the ledger -/

/-- What holds of a call that somebody holds and that has not ended, of which messages were `taken` and `done`. -/
structure Underway (stage : Stage) (c : Call σ Out In W) (asked : Prop) (taken done : List (Outbound Out))
    (phase : InboundPhase) : Prop where
  unstopped : c.trace.any Effect.isStopping = false
  attached : stage.isOpened = true → c.attached = true
  greeted : stage.isEarly = false → phase ≠ .awaitingMetadata
  /-- The messages that were not sent wait in the request writer. -/
  sum : taken = done ++ c.writer.pending
  writer : phase ≠ .closed → c.writer.completion = .active ∨ c.writer.completion = .finishing none ∧ asked

/-- Behind its metadata, a request receives messages until it is closed. -/
theorem Underway.receiving {stage : Stage} {asked : Prop} {taken done : List (Outbound Out)} {phase : InboundPhase}
    (h : Underway stage c asked taken done phase) (late : stage.isEarly = false) (open' : phase ≠ .closed) :
    phase = .receiving := by
  have greeted := h.greeted late
  cases phase with
  | receiving => rfl
  | awaitingMetadata => exact absurd rfl greeted
  | closed => exact absurd rfl open'

theorem Underway.whole {stage : Stage} {asked : Prop} {taken done : List (Outbound Out)} {phase : InboundPhase}
    (h : Underway stage c asked taken done phase) (empty : c.writer.pending = []) : taken = done := by
  simpa [empty] using h.sum

/-- The ledger of a call, whose user `asked` to finish its request or did not: what it said, and what of it was
sent. -/
structure Ledger (s : Setup σ Out In) (shape : Shape) (stage : Stage) (c : Call σ Out In W) (asked : Prop)
    (taken : List (Outbound Out)) (said : List RequestPart) (done : List (Outbound Out)) (phase : InboundPhase) :
    Prop where
  comes : List.Forall₂ (Comes s.pipeline) said c.sent
  order : InboundPhase.awaitingMetadata.follow (said.map RequestPart.kind) = some phase
  codes : List.Forall₂ s.codec.Encodes done (requestPayloads said)
  sub : done <+: taken
  sound : c.writer.Sound
  early : stage.isEarly = true → said = []
  holds : c.holdsWriter = true → stage = .started ∧ shape.streamsRequests = true
  unused : shape.streamsRequests = false → c.writer.pending = []
  /-- The end is sent behind all that was taken, and at the user's wish. -/
  closed : phase = .closed → stage = .started ∧ done = taken ∧
    (shape.streamsRequests = true → asked ∧ c.writer.completion.isTerminated = true)
  going : Going c → Underway stage c asked taken done phase

theorem ledger_new (s : Setup σ Out In) (shape : Shape) (runtime : Bool) (x : σ) :
    Ledger s shape .unopened (new s shape runtime x : Call σ Out In W) False [] [] [] .awaitingMetadata :=
  ⟨.nil, rfl, .nil, List.prefix_rfl, Writer.sound_new _, fun _ => rfl, fun h => by simp [new] at h, fun _ => rfl,
    fun h => by simp at h, fun _ => ⟨rfl, by simp [Stage.isOpened], by simp [Stage.isEarly], rfl, fun _ => .inl rfl⟩⟩

section Step

variable {shape : Shape} {stage : Stage} {asked : Prop} {taken done : List (Outbound Out)} {said : List RequestPart}
  {phase : InboundPhase}

theorem Ledger.still (h : Ledger s shape stage c asked taken said done phase) (still : Still c c') :
    Ledger s shape stage c' asked taken said done phase := by
  refine ⟨still.sent ▸ h.comes, h.order, h.codes, h.sub, still.writer.sound h.sound, h.early,
    fun k => h.holds (still.holds k), fun k => still.pending (h.unused k), fun k => ?_, fun k => ?_⟩
  · obtain ⟨started, whole, stopped⟩ := h.closed k
    exact ⟨started, whole, fun streams => ⟨(stopped streams).1, still.writer.past (stopped streams).2⟩⟩
  · obtain ⟨going, attached, pending, completion, stopping⟩ := still.going k
    have underway := h.going going
    exact ⟨stopping.trans underway.unstopped, fun k => attached.trans (underway.attached k), underway.greeted,
      pending ▸ underway.sum, completion ▸ underway.writer⟩

theorem Ledger.of_stage (h : Ledger s shape stage c asked taken said done phase) (next : Stage)
    (early : next.isEarly = true → stage.isEarly = true) (started : stage = .started → next = .started)
    (opened : Going c → next.isOpened = true → c.attached = true)
    (greeted : Going c → next.isEarly = false → phase ≠ .awaitingMetadata) :
    Ledger s shape next c asked taken said done phase :=
  ⟨h.comes, h.order, h.codes, h.sub, h.sound, fun k => h.early (early k),
    fun k => ⟨started (h.holds k).1, (h.holds k).2⟩, h.unused,
    fun k => ⟨started (h.closed k).1, (h.closed k).2⟩,
    fun k => ⟨(h.going k).unstopped, opened k, greeted k, (h.going k).sum, (h.going k).writer⟩⟩

/-- What was said and what was sent behind it. -/
theorem Ledger.say (h : Ledger s shape stage c asked taken said done phase) {ps : List RequestPart}
    (more : ∃ qs, c'.sent = c.sent ++ qs ∧ List.Forall₂ (Comes s.pipeline) ps qs) {new : List (Outbound Out)}
    {next : InboundPhase}
    (order : phase.follow (ps.map RequestPart.kind) = some next)
    (codes : List.Forall₂ s.codec.Encodes new (requestPayloads ps)) :
    List.Forall₂ (Comes s.pipeline) (said ++ ps) c'.sent ∧
    InboundPhase.awaitingMetadata.follow ((said ++ ps).map RequestPart.kind) = some next ∧
    List.Forall₂ s.codec.Encodes (done ++ new) (requestPayloads (said ++ ps)) := by
  obtain ⟨qs, sent, comes⟩ := more
  refine ⟨sent ▸ List.rel_append h.comes comes, ?_, ?_⟩
  · rw [List.map_append, InboundPhase.follow_append, h.order]
    exact order
  · rw [requestPayloads_append]
    exact List.rel_append h.codes codes

/-- A call that does not go on stays as it is, whatever is accepted for it. -/
theorem Ledger.gone (h : Ledger s shape stage c asked taken said done phase) (gone : ¬ Going c) {next : Stage}
    (early : next.isEarly = true → stage.isEarly = true) (started : stage = .started → next = .started)
    {asks : Prop} (asking : asked → asks) {added : List (Outbound Out)} (nothing : phase = .closed → added = []) :
    Ledger s shape next c asks (taken ++ added) said done phase := by
  refine ⟨h.comes, h.order, h.codes, h.sub.trans (List.prefix_append _ _), h.sound, fun k => h.early (early k),
    fun k => ⟨started (h.holds k).1, (h.holds k).2⟩, h.unused, fun k => ?_, fun k => absurd k gone⟩
  obtain ⟨before, whole, stopped⟩ := h.closed k
  exact ⟨started before, by simp [whole, nothing k], fun streams => ⟨asking (stopped streams).1, (stopped streams).2⟩⟩

theorem Ledger.over (h : Ledger s shape stage c asked taken said done phase) (gone : ¬ Going c) {next : Stage}
    (late : next.isEarly = false) (open' : stage ≠ .started) :
    Ledger s shape next c asked taken said done phase := by
  have behind : Ledger s shape next c asked (taken ++ []) said done phase :=
    h.gone gone (by simp [late]) (fun k => absurd k open') id fun _ => rfl
  rwa [List.append_nil] at behind

/-- Parts are said at a step of the start of a call. -/
theorem Ledger.utters (h : Ledger s shape stage c asked taken said done phase) (unstarted : stage ≠ .started)
    (attached : c.attached = true) {stop : Stop} {ps : List RequestPart} {whole : Bool}
    {batch new : List (Outbound Out)} {next : InboundPhase} {later : Stage} (utters : Utters s c stop ps whole c')
    (coded : Coded s batch ps new whole)
    (order : phase.follow (ps.map RequestPart.kind) = some (if whole then next else phase))
    (late : later.isEarly = false) (greeted : next ≠ .awaitingMetadata)
    (sum : batch = [] ∨ taken = done ∧ c.writer.pending = [])
    (closed : next = .closed → later = .started ∧ shape.streamsRequests = false ∧ taken = done) :
    Ledger s shape later c' asked (taken ++ batch) (said ++ ps) (done ++ new) (if whole then next else phase) := by
  obtain ⟨more, on⟩ := utters.said
  obtain ⟨comes, order', codes⟩ := h.say more.sent order coded.codes
  have open' : phase ≠ .closed := fun k => unstarted (h.closed k).1
  refine ⟨comes, order', codes, ?_, more.writer.sound h.sound, by simp [late], fun k => ?_,
    fun k => more.pending (h.unused k), fun k => ?_, fun k => ?_⟩
  · rcases sum with rfl | ⟨same, -⟩
    · simpa [List.prefix_nil.mp coded.sub] using h.sub
    · rw [same]
      exact (List.prefix_append_right_inj done).mpr coded.sub
  · exact absurd (h.holds (more.holds k)).1 unstarted
  · cases whole with
    | false => exact absurd k open'
    | true =>
      obtain ⟨started, single, same⟩ := closed k
      exact ⟨started, by rw [same, coded.whole rfl], by simp [single]⟩
  · obtain ⟨going, attached', writer, stopping⟩ := more.going k
    have underway := h.going going
    obtain rfl := on k
    refine ⟨stopping.trans underway.unstopped, fun _ => attached'.trans attached, fun _ => greeted, ?_,
      fun _ => writer ▸ underway.writer open'⟩
    rw [writer, coded.whole rfl]
    rcases sum with rfl | ⟨same, empty⟩
    · simpa using underway.sum
    · simp [same, empty]

/-! ### the start of a call -/

theorem sendPart_of_detached (s : Setup σ Out In) (detached : c.attached = false) (p : RequestPart) (o : SendOptions) :
    ∃ x es rejection, c.sendPart s p o = (c.beside x es, rejection) ∧ Hushed es := by
  unfold sendPart
  rcases s.pipeline.request p c.surroundings with ⟨⟨q, rejection, visits⟩, y⟩
  have hushed := hushed_visited (W := W) visits
  cases rejection with
  | some r => exact ⟨y, visits.map .visited, some r, rfl, hushed⟩
  | none => exact ⟨y, visits.map .visited, none, by simp [emit, beside, detached], hushed⟩

theorem Ledger.metadata (h : Ledger s shape .armed c asked taken said done phase) (alive : c.alive = true)
    (m : Metadata) : ∃ said done phase, Ledger s shape .greeted (c.sendMetadata s m) asked taken said done phase := by
  have nothing := h.early rfl
  have order := h.order
  rw [nothing] at order
  obtain rfl : InboundPhase.awaitingMetadata = phase := Option.some.inj order
  cases attached : c.attached with
  | false =>
    have gone : ¬ Going c := fun going => by simp [(h.going going).attached rfl] at attached
    have finished : c.finished = true := by simpa [Going, alive] using gone
    obtain ⟨x, es, rejection, e, hushed⟩ := sendPart_of_detached s attached (.metadata m) {}
    have same : c.sendMetadata s m = c.beside x es := by
      unfold sendMetadata
      rw [e]
      cases rejection with
      | none => rfl
      | some r => exact terminate_of_finished (c := c.beside x es) finished _ _
    refine ⟨said, done, .awaitingMetadata, ?_⟩
    rw [same]
    exact (h.still (still_beside c x hushed)).over (fun k => gone k) rfl (by simp)
  | true =>
    obtain ⟨ps, whole, utters, coded, order⟩ := utters_metadata (s := s) attached m
    have behind : Ledger s shape .greeted _ asked (taken ++ []) _ _ _ :=
      h.utters (by simp) attached utters coded order rfl (by simp) (.inl rfl) (by simp)
    exact ⟨_, _, _, by simpa using behind⟩

theorem Ledger.attachWriter (h : Ledger s shape .greeted c asked taken said done phase)
    (streams : shape.streamsRequests = true) : Ledger s shape .started c.attachWriter asked taken said done phase := by
  unfold Call.attachWriter
  split
  · rename_i finished
    have still : Still c c.cancelWriter := by
      refine still_of_gone ?_ (Writer.leads_cancel _ _) (fun empty => pending_cancel empty _) id
        (not_going_of_finished finished)
      simp [cancelWriter, sent_eq, emit, (hushed_woke _).sent]
    exact (h.still still).over (not_going_of_finished finished) rfl (by simp)
  · have started := h.of_stage .started (by simp [Stage.isEarly]) (by simp)
      (fun going _ => (h.going going).attached rfl) (fun going _ => (h.going going).greeted rfl)
    refine ⟨started.comes, started.order, started.codes, started.sub, started.sound, started.early,
      fun _ => ⟨rfl, streams⟩, started.unused, started.closed, fun going => ?_⟩
    have underway := started.going going
    exact ⟨underway.unstopped, underway.attached, underway.greeted, underway.sum, underway.writer⟩

theorem Ledger.message (h : Ledger s shape .greeted c asked taken said done phase)
    (single : shape.streamsRequests = false) (m : Outbound Out) :
    ∃ said done phase, Ledger s shape .posted (if c.alive then c.sendMessages s .inline [m] else c) asked
      (taken ++ [m]) said done phase := by
  have open' : phase ≠ .closed := fun k => absurd (h.closed k).1 (by simp)
  by_cases going : Going c
  · rw [if_pos going.1]
    have underway := h.going going
    obtain rfl := underway.receiving rfl open'
    obtain ⟨ps, whole, new, utters, coded, kinds⟩ :=
      utters_messages (s := s) going.2 (underway.attached rfl) .inline [m]
    have order : InboundPhase.receiving.follow (ps.map RequestPart.kind) =
        some (if whole then .receiving else .receiving) := by simp [follow_messages kinds]
    exact ⟨_, _, _, h.utters (by simp) (underway.attached rfl) utters coded order rfl (by simp)
      (.inr ⟨underway.whole (h.unused single), h.unused single⟩) (by simp)⟩
  · have same : (if c.alive then c.sendMessages s .inline [m] else c) = c := by
      split
      · rename_i alive
        exact sendMessages_of_finished (by simpa [Going, alive] using going) _ _
      · rfl
    rw [same]
    exact ⟨_, _, _, h.gone going (by simp [Stage.isEarly]) (by simp) id fun k => absurd k open'⟩

theorem Ledger.close (h : Ledger s shape .posted c asked taken said done phase)
    (single : shape.streamsRequests = false) :
    ∃ said done phase, Ledger s shape .started (if c.alive then c.sendEnd s .inline else c) asked taken said done
      phase := by
  have open' : phase ≠ .closed := fun k => absurd (h.closed k).1 (by simp)
  by_cases going : Going c
  · rw [if_pos going.1]
    have underway := h.going going
    obtain rfl := underway.receiving rfl open'
    obtain ⟨ps, whole, utters, coded, order⟩ := utters_end (s := s) going.2 (underway.attached rfl) .inline
    have behind : Ledger s shape .started _ asked (taken ++ []) _ _ _ :=
      h.utters (by simp) (underway.attached rfl) utters coded order rfl (by simp) (.inl rfl)
        fun _ => ⟨rfl, single, underway.whole (h.unused single)⟩
    exact ⟨_, _, _, by simpa using behind⟩
  · have same : (if c.alive then c.sendEnd s .inline else c) = c := by
      split
      · rename_i alive
        exact sendEnd_of_finished (by simpa [Going, alive] using going) _
      · rfl
    rw [same]
    exact ⟨_, _, _, h.over going rfl (by simp)⟩

theorem Ledger.opens [DecidableEq W] (h : Ledger s shape stage c asked taken said done phase) {request : Out}
    {a : Act Out W} {next : Stage} (opens : Opens shape request stage a next) :
    ∃ said done phase, Ledger s shape next (c.step s a) asked (taken ++ c.accepts a) said done phase := by
  have unstopped := fun going => (h.going going).unstopped
  cases opens with
  | opening =>
    have behind := (h.still (still_step (s := s) (fun _ => unstopped) (a := .opening) rfl)).of_stage .opening
      (by simp [Stage.isEarly]) (by simp) (by simp [Stage.isOpened]) (by simp [Stage.isEarly])
    exact ⟨_, _, _, by simpa [accepts] using behind⟩
  | refused e =>
    -- A refused stream ends the call, unless it was dropped: in both cases nothing is said any more.
    have gone : ¬ Going (c.step s (.refused e)) := by
      simp only [step]
      split
      · exact not_going_of_finished (finished_terminate _ _ _)
      · rename_i dropped
        simp [Going, dropped]
    have still := h.still (still_step (s := s) (fun _ => unstopped) (a := .refused e) rfl)
    have behind : Ledger s shape .greeted (c.step s (.refused e)) asked taken said done phase :=
      still.over gone rfl (by simp)
    exact ⟨_, _, _, by simpa [accepts] using behind⟩
  | connected =>
    refine ⟨said, done, phase, ?_⟩
    simp only [accepts, List.append_nil, step]
    split
    · refine ⟨h.comes, h.order, h.codes, h.sub, h.sound, fun _ => h.early rfl,
        fun k => absurd (h.holds k).1 (by simp), h.unused, fun k => absurd (h.closed k).1 (by simp), fun k => ?_⟩
      have underway := h.going k
      exact ⟨underway.unstopped, fun _ => rfl, by simp [Stage.isEarly], underway.sum, underway.writer⟩
    · rename_i dropped
      exact h.of_stage .attached (by simp [Stage.isEarly]) (by simp) (fun going => absurd going.1 dropped)
        (by simp [Stage.isEarly])
  | arm =>
    have still := h.still (still_step (s := s) (fun _ => unstopped) (a := .arm) rfl)
    have behind := still.of_stage .armed (by simp [Stage.isEarly]) (by simp)
      (fun going _ => (still.going going).attached rfl) (by simp [Stage.isEarly])
    exact ⟨_, _, _, by simpa [accepts] using behind⟩
  | metadata =>
    simp only [accepts, List.append_nil, step]
    split
    · rename_i alive
      exact h.metadata alive (requestMetadata s.options (timeout s))
    · rename_i dropped
      exact ⟨_, _, _, h.over (fun going => dropped going.1) rfl (by simp)⟩
  | writer streams =>
    simp only [accepts, List.append_nil, step]
    split
    · exact ⟨_, _, _, h.attachWriter streams⟩
    · rename_i dropped
      exact ⟨_, _, _, h.over (fun going => dropped going.1) rfl (by simp)⟩
  | message single => exact h.message single { message := request }
  | close single =>
    simp only [accepts, List.append_nil]
    exact h.close single

/-! ### the use of the request writer -/

/-- A request writer that is still to end, and to end well. -/
def Awaits (w : Writer (Outbound Out) Failure W) (asked : Prop) : Prop :=
  w.completion = .active ∨ w.completion = .finishing none ∧ asked

theorem not_terminated_of_awaits {w : Writer (Outbound Out) Failure W} (h : Awaits w asked) :
    w.completion.isTerminated = false := by
  rcases h with e | ⟨e, -⟩ <;> rw [e] <;> rfl

/-- The request writer is used: it hands something over, and ends at most because its user `asks` for it. -/
structure Handles (c : Call σ Out In W) (asked asks : Prop)
    (r : Writer (Outbound Out) Failure W × List (WriterEvent (Outbound Out) Failure) × List W)
    (added : List (Outbound Out)) : Prop where
  passes : c.writer.Passes r.1 added r.2.1
  ends : Awaits c.writer asked → ∀ e ∈ r.2.1, e.isEnd = true → e = .terminated none ∧ asks
  told : r.1.completion.isTerminated = true → c.writer.completion.isTerminated = true ∨ ∃ e ∈ r.2.1, e.isEnd = true
  awaits : Awaits c.writer asked → Awaits r.1 asks ∨ r.1.completion.isTerminated = true

theorem handles_offer (sound : c.writer.Sound) (m : Outbound Out) :
    Handles c asked asked ((c.writer.offer m).1, (c.writer.offer m).2.2, [])
      (if (c.writer.offer m).2.1.isAccepted then [m] else []) := by
  have same := Writer.completion_offer c.writer m
  refine ⟨Writer.passes_offer sound m, fun _ e mem isEnd => ?_, fun past => .inl (same ▸ past), fun awaits => .inl ?_⟩
  · rcases Writer.offer_cases c.writer m with ⟨why, eq⟩ | ⟨-, -, eq⟩ | ⟨-, -, adm, -, eq⟩ <;> rw [eq] at mem
    · simp at mem
    · obtain rfl := List.mem_singleton.mp mem
      cases isEnd
    · simp at mem
  · simpa [Awaits, same] using awaits

theorem handles_finish (sound : c.writer.Sound) : Handles c asked True (c.writer.finish none) [] := by
  refine ⟨Writer.passes_finish sound none, fun _ e mem isEnd => ?_, Writer.told_finish sound none, fun awaits => ?_⟩
  · rcases Writer.finish_cases sound none with ⟨-, eq⟩ | ⟨-, -, eq⟩ | ⟨-, -, eq⟩ <;> rw [eq] at mem
    · simp at mem
    · exact ⟨List.mem_singleton.mp mem, trivial⟩
    · simp at mem
  · rcases Writer.finish_cases sound none with ⟨inactive, eq⟩ | ⟨-, -, eq⟩ | ⟨-, -, eq⟩ <;> rw [eq]
    · rcases awaits with active | ⟨finishing, -⟩
      · simp [active, Completion.isActive] at inactive
      · exact .inl (.inr ⟨finishing, trivial⟩)
    · exact .inr rfl
    · exact .inl (.inr ⟨rfl, trivial⟩)

theorem handles_setWritable (sound : c.writer.Sound) (b : Bool) :
    Handles c asked asked (c.writer.setWritable b) [] := by
  refine ⟨Writer.passes_setWritable sound b, fun awaits e mem isEnd => ?_, Writer.told_setWritable sound b,
    fun awaits => ?_⟩ <;>
    rcases Writer.setWritable_cases sound b with ⟨-, eq⟩ | ⟨-, -, eq⟩ | ⟨-, -, -, eq⟩ | ⟨-, -, r, hr, eq⟩
  · simp [eq] at mem
  · simp [eq] at mem
  · rw [eq] at mem
    obtain rfl := List.mem_singleton.mp mem
    cases isEnd
  · rcases awaits with active | ⟨finishing, asked⟩
    · simp [active] at hr
    · obtain rfl : none = r := by simpa [finishing] using hr
      rw [eq] at mem
      rcases List.mem_pair.mp mem with rfl | rfl
      · cases isEnd
      · exact ⟨rfl, asked⟩
  · rw [eq]
    exact .inl awaits
  · rw [eq]
    exact .inl awaits
  · rw [eq]
    exact .inl awaits
  · rw [eq]
    exact .inr rfl

/-- What a request writer does of a call that goes on, and whose request is not closed. -/
theorem Ledger.handled (h : Ledger s shape .started c asked taken said done .receiving) (going : Going c)
    (streams : shape.streamsRequests = true) {asks : Prop}
    {r : Writer (Outbound Out) Failure W × List (WriterEvent (Outbound Out) Failure) × List W}
    {added : List (Outbound Out)} (handles : Handles c asked asks r added) :
    ∃ said done phase, Ledger s shape .started (c.withWriter s r) asks (taken ++ added) said done phase := by
  obtain ⟨w, events, woken⟩ := r
  obtain ⟨passes, ends, told, awaits⟩ := handles
  simp only at passes ends told awaits
  have underway := h.going going
  have attached := underway.attached rfl
  have before : Awaits c.writer asked := underway.writer (by simp)
  obtain ⟨ps, whole, new, utters, coded, order⟩ := utters_events (s := s) (c := { c with writer := w }) going.2 going.1
    attached passes.last fun e mem isEnd => (ends before e mem isEnd).1
  obtain ⟨more, on⟩ := utters.said
  unfold withWriter
  simp only
  generalize events.foldl (fun c e => c.onWriterEvent s e) { c with writer := w } = c' at more on
  obtain ⟨comes, order', codes⟩ := h.say more.sent order coded.codes
  have sum : taken ++ added = done ++ (handedOver events ++ w.pending) := by
    rw [← passes.sum, underway.sum, List.append_assoc]
  have behind : Ledger s shape .started c' asks (taken ++ added) (said ++ ps) (done ++ new)
      (phaseBehind whole events) := by
    refine ⟨comes, order', codes, ?_, more.writer.sound passes.sound, by simp [Stage.isEarly], fun _ => ⟨rfl, streams⟩,
      by simp [streams], fun k => ?_, fun k => ?_⟩
    · rw [sum]
      exact (List.prefix_append_right_inj done).mpr (coded.sub.trans (List.prefix_append _ _))
    · obtain ⟨rfl, e, mem, isEnd⟩ : whole = true ∧ ∃ e ∈ events, e.isEnd = true := by simpa [phaseBehind] using k
      have past := passes.told e mem isEnd
      refine ⟨rfl, ?_, fun _ => ⟨(ends before e mem isEnd).2, more.writer.past past⟩⟩
      rw [sum, coded.whole rfl, passes.sound.terminated past, List.append_nil]
    · obtain ⟨-, attached', same, stopping⟩ := more.going k
      have whole := on k
      refine ⟨stopping.trans underway.unstopped, fun _ => attached'.trans attached, fun _ => ?_, ?_, fun open' => ?_⟩
      · unfold phaseBehind
        split <;> simp
      · rw [sum, coded.whole whole, same, List.append_assoc]
      · rw [same]
        refine (awaits before).resolve_right fun past => ?_
        obtain ⟨e, mem, isEnd⟩ := (told past).resolve_left (by simp [not_terminated_of_awaits before])
        exact open' (by simpa [phaseBehind, whole] using ⟨e, mem, isEnd⟩)
  exact ⟨_, _, _, behind.still (still_of_same rfl rfl rfl rfl rfl (hushed_woke woken) rfl)⟩

/-- The request writer of a call that does not go on, or whose request is closed, sends nothing. -/
theorem Ledger.unsent (h : Ledger s shape .started c asked taken said done phase)
    (streams : shape.streamsRequests = true) {asks : Prop} (asking : asked → asks)
    {r : Writer (Outbound Out) Failure W × List (WriterEvent (Outbound Out) Failure) × List W}
    {added : List (Outbound Out)} (handles : Handles c asked asks r added) (isOver : ¬ Going c ∨ phase = .closed) :
    Ledger s shape .started (c.withWriter s r) asks (taken ++ added) said done phase := by
  have past (k : phase = .closed) := handles.passes.past ((h.closed k).2.2 streams).2
  have same : c.withWriter s r = { c with writer := r.1, trace := c.trace ++ r.2.2.map .woke } := by
    rcases isOver with gone | closed
    · by_cases alive : c.alive = true
      · exact withWriter_of_finished (by simpa [Going, alive] using gone) r
      · exact withWriter_of_dropped (by simpa using alive) r
    · rw [withWriter, (past closed).1]
      rfl
  rw [same]
  refine ⟨?_, h.order, h.codes, h.sub.trans (List.prefix_append _ _), handles.passes.sound, by simp [Stage.isEarly],
    fun _ => ⟨rfl, streams⟩, by simp [streams], fun k => ?_, fun going => ?_⟩
  · simpa [sent_eq, (hushed_woke _).sent] using h.comes
  · obtain ⟨-, nothing, past⟩ := past k
    obtain ⟨started, whole, stopped⟩ := h.closed k
    exact ⟨started, by simp [whole, nothing], fun streams => ⟨asking (stopped streams).1, past⟩⟩
  · have closed := isOver.resolve_left (by simpa [Going] using going)
    obtain ⟨-, nothing, past⟩ := past closed
    have underway := h.going going
    refine ⟨by simp [underway.unstopped, (hushed_woke _).unstopped], underway.attached, underway.greeted, ?_,
      fun open' => absurd closed open'⟩
    have empty := h.sound.terminated ((h.closed closed).2.2 streams).2
    simpa [nothing, handles.passes.sound.terminated past, empty] using underway.sum

theorem Ledger.uses (h : Ledger s shape .started c asked taken said done phase)
    (streams : shape.streamsRequests = true) {asks : Prop} (asking : asked → asks)
    {r : Writer (Outbound Out) Failure W × List (WriterEvent (Outbound Out) Failure) × List W}
    {added : List (Outbound Out)} (handles : Handles c asked asks r added) :
    ∃ said done phase, Ledger s shape .started (c.withWriter s r) asks (taken ++ added) said done phase := by
  by_cases isOver : ¬ Going c ∨ phase = .closed
  · exact ⟨_, _, _, h.unsent streams asking handles isOver⟩
  · obtain ⟨going, open'⟩ : Going c ∧ phase ≠ .closed := by simpa using isOver
    obtain rfl := (h.going going).receiving rfl open'
    exact h.handled going streams handles

/-! ### every run -/

theorem Ledger.outside [DecidableEq W] (h : Ledger s shape stage c asked taken said done phase) {a : Act Out W}
    (outside : a.isOutside = true) :
    ∃ said done phase, Ledger s shape stage (c.step s a) asked (taken ++ c.accepts a) said done phase := by
  have unstopped := fun going => (h.going going).unstopped
  have passes (passive : a.isPassive = true) (nothing : c.accepts a = []) :
      ∃ said done phase, Ledger s shape stage (c.step s a) asked (taken ++ c.accepts a) said done phase := by
    rw [nothing, List.append_nil]
    exact ⟨_, _, _, h.still (still_step (fun _ => unstopped) passive)⟩
  cases a with
  | routed r =>
    cases r with
    | writable b =>
      simp only [accepts, step, onRouted, setWritable]
      split
      · rename_i used
        obtain ⟨started, streams⟩ := h.holds (by simpa using And.right (by simpa using used))
        subst started
        exact h.uses streams id (handles_setWritable h.sound b)
      · exact ⟨_, _, _, by simpa using h⟩
    | _ => exact passes rfl rfl
  | expire | stopWriter | awaitDone => exact passes rfl rfl
  | _ => cases outside

theorem Ledger.of_asked (h : Ledger s shape stage c asked taken said done phase) {asks : Prop} (asking : asked → asks) :
    Ledger s shape stage c asks taken said done phase := by
  refine ⟨h.comes, h.order, h.codes, h.sub, h.sound, h.early, h.holds, h.unused, fun k => ?_, fun k => ?_⟩
  · obtain ⟨started, whole, stopped⟩ := h.closed k
    exact ⟨started, whole, fun streams => ⟨asking (stopped streams).1, (stopped streams).2⟩⟩
  · have underway := h.going k
    exact ⟨underway.unstopped, underway.attached, underway.greeted, underway.sum,
      fun open' => (underway.writer open').imp id fun finishing => ⟨finishing.1, asking finishing.2⟩⟩

theorem Ledger.use [DecidableEq W] (h : Ledger s shape .started c asked taken said done phase) {a : Act Out W}
    (use : a.isUse shape = true) :
    ∃ said done phase,
      Ledger s shape .started (c.step s a) (asked ∨ a = .finish) (taken ++ c.accepts a) said done phase := by
  have unstopped := fun going => (h.going going).unstopped
  have passes (passive : a.isPassive = true) (nothing : c.accepts a = []) :
      ∃ said done phase,
        Ledger s shape .started (c.step s a) (asked ∨ a = .finish) (taken ++ c.accepts a) said done phase := by
    rw [nothing, List.append_nil]
    exact ⟨_, _, _, (h.still (still_step (fun _ => unstopped) passive)).of_asked .inl⟩
  cases a with
  | write m =>
    obtain ⟨said, done, phase, behind⟩ := h.uses (s := s) use id (handles_offer h.sound m)
    exact ⟨said, done, phase, behind.of_asked .inl⟩
  | finish =>
    obtain ⟨said, done, phase, behind⟩ := h.uses (s := s) use (fun _ => trivial) (handles_finish h.sound)
    exact ⟨said, done, phase, behind.of_asked fun _ => .inr rfl⟩
  | awaitWrite | awaitDrained | cancel | read | take | awaitInitial | awaitTrailing | awaitStatus | drop =>
    exact passes rfl rfl
  | _ => cases use

/-- A step in order is entered. -/
theorem Ledger.follows [DecidableEq W] (h : Ledger s shape stage c asked taken said done phase) {request : Out}
    {a : Act Out W} {next : Stage} (follows : Follows shape request stage a next) :
    ∃ said done phase,
      Ledger s shape next (c.step s a) (asked ∨ a = .finish) (taken ++ c.accepts a) said done phase := by
  cases follows with
  | opens opens =>
    obtain ⟨said, done, phase, behind⟩ := h.opens opens
    exact ⟨said, done, phase, behind.of_asked .inl⟩
  | outside outside =>
    obtain ⟨said, done, phase, behind⟩ := h.outside (s := s) outside
    exact ⟨said, done, phase, behind.of_asked .inl⟩
  | use use => exact h.use use

/-- **The ledger of every run in order.** -/
theorem ledger_of_orderly [DecidableEq W] (s : Setup σ Out In) (runtime : Bool) (x : σ) {request : Out}
    {acts : List (Act Out W)} (orderly : Orderly shape request acts stage) :
    ∃ said done phase, Ledger s shape stage (run (step s) (new s shape runtime x) acts) (.finish ∈ acts)
      ((new s shape runtime x).accepted s acts) said done phase := by
  induction orderly with
  | nil => exact ⟨_, _, _, (ledger_new s shape runtime x).of_asked False.elim⟩
  | @snoc acts stage next a orderly follows ih =>
    obtain ⟨said, done, phase, h⟩ := ih
    obtain ⟨said, done, phase, behind⟩ := h.follows follows
    unfold accepted
    rw [gather_snoc, run_append]
    refine ⟨said, done, phase, behind.of_asked fun asked => ?_⟩
    rcases asked with asked | rfl
    · exact List.mem_append_left _ asked
    · simp

end Step

end Call

end CallLifecycle.Client
