import CallLifecycle.Proofs.Client.Outcome
import CallLifecycle.Proofs.Client.Requests

/-!
# What a client call asks of its stream

* `Asks`, `asks_step` — all that a step asks of the stream: parts are sent while it is held, and a cancel lets go of it;
* `Holding`, `holding_of_orderly` — **in every run in order** the stream is cancelled at most once, behind all parts
  that are sent;
* `IsRequest`, `follow_cases` — the words of a request, metadata, messages and the end, and their beginnings;
* `accepted_of_single` — a request that is not a stream has at most one message;
* `calls_of_orderly` — all of these.
-/

namespace CallLifecycle.Client

open Server (InboundPhase)

namespace Call

variable {σ Out In W : Type} {s : Setup σ Out In} {c c' c'' : Call σ Out In W}

/-! ## the calls of a step -/

/-- All that happens between a call and its stream: parts are sent, if the stream is held, and it is let go or not; or
it is cancelled behind them, and let go. -/
inductive Asks (c c' : Call σ Out In W) : Prop
  | on (ps : List RequestPart) (calls : c'.calls = c.calls ++ ps.map .send) (held : c.attached = false → ps = [])
      (attached : c'.attached = true → c.attached = true)
  | off (ps : List RequestPart) (calls : c'.calls = c.calls ++ ps.map .send ++ [.cancel]) (held : c.attached = true)
      (released : c'.attached = false)

theorem calls_beside (c : Call σ Out In W) (x : σ) {es : List (Effect W)} {ps : List RequestPart}
    (sends : es.filterMap Effect.call? = ps.map .send) : (c.beside x es).calls = c.calls ++ ps.map .send := by
  rw [calls, beside, List.filterMap_append, sends]
  rfl

theorem calls_drop (c : Call σ Out In W) : c.drop.calls = c.calls := by
  unfold drop
  split <;> simp [calls, emit, Effect.call?]

theorem asks_nothing (calls : c'.calls = c.calls) (attached : c'.attached = true → c.attached = true) : Asks c c' :=
  .on [] (by rw [calls, List.map_nil, List.append_nil]) (fun _ => rfl) attached

theorem Asks.behind {x : σ} {es : List (Effect W)} (spoken : Spoken c es) (h : Asks (c.beside x es) c') :
    Asks c c' := by
  obtain ⟨ps, sends, silent⟩ := spoken
  have before := calls_beside c x sends
  cases h with
  | on qs calls held attached =>
    refine .on (ps ++ qs) (by rw [calls, before, List.map_append, List.append_assoc]) (fun detached => ?_) attached
    rw [silent detached, held detached, List.append_nil]
  | off qs calls held released =>
    exact .off (ps ++ qs) (by rw [calls, before, List.map_append, List.append_assoc c.calls]) held released

theorem spoken_of_hushed (c : Call σ Out In W) {es : List (Effect W)} (hushed : Hushed es) : Spoken c es :=
  ⟨[], hushed.calls, fun _ => rfl⟩

theorem asks_beside (c : Call σ Out In W) (x : σ) {es : List (Effect W)} (spoken : Spoken c es) :
    Asks c (c.beside x es) :=
  .behind spoken (asks_nothing rfl id)

theorem asks_terminate (c : Call σ Out In W) (status : Status) (stop : Stop) : Asks c (c.terminate status stop) := by
  have calls := calls_terminate c status stop
  cases going : c.finished with
  | true =>
    rw [terminate_of_finished going]
    exact asks_nothing rfl id
  | false =>
    have released : (c.terminate status stop).attached = false := by
      rw [terminate_eq_settledBy going]
      rfl
    cases held : c.attached with
    | true => exact .off [] (by simp [calls, going, held]) held released
    | false => exact asks_nothing (by simp [calls, going, held]) (by simp [released])

theorem asks_complete (c : Call σ Out In W) (status : Status) (trailers : Metadata) :
    Asks c (c.complete status trailers) := by
  refine asks_nothing (calls_complete c status trailers) ?_
  by_cases going : c.finished = false
  · rw [complete_eq_settledBy going]
    exact fun held => by cases held
  · rw [complete, if_pos (by simpa using going)]
    exact id

theorem asks_route (s : Setup σ Out In) (c : Call σ Out In W) (p : ResponsePart) : Asks c (c.route s p) := by
  have routing := routing s c p
  generalize c.route s p = c' at routing ⊢
  generalize c.violation? s p = reason at routing
  cases routing with
  | ignored => exact asks_nothing rfl id
  | rejected r x es hushed => exact .behind (spoken_of_hushed c hushed) (asks_terminate _ _ _)
  | violated reason x es hushed => exact .behind (spoken_of_hushed c hushed) (asks_terminate _ _ _)
  | undecodable data o r x es hushed => exact .behind (spoken_of_hushed c hushed) (asks_terminate _ _ _)
  | taken q x es initial responses hushed =>
    exact .behind (x := x) (spoken_of_hushed c hushed) (asks_nothing rfl id)
  | closed status trailers x es hushed => exact .behind (spoken_of_hushed c hushed) (asks_complete _ _ _)

theorem Sends.asks {stop : Stop} {r : Except Status σ} (h : Sends c stop r c') : Asks c c' := by
  cases h with
  | on y es spoken => exact asks_beside c y spoken
  | off status y es spoken => exact .behind spoken (asks_terminate _ _ _)

theorem asks_withWriter (s : Setup σ Out In) (c : Call σ Out In W)
    (r : Writer (Outbound Out) Failure W × List (WriterEvent (Outbound Out) Failure) × List W) :
    Asks c (c.withWriter s r) := by
  have woken (c' : Call σ Out In W) : (c'.emit (r.2.2.map .woke)).calls = c'.calls := calls_emit_woke c' _
  by_cases finished : c.finished = true
  · rw [withWriter_of_finished finished]
    exact asks_nothing (woken c) id
  by_cases alive : c.alive = true
  · have sends := sends_events (s := s) (c := { c with writer := r.1 }) (by simpa using finished) alive r.2.1
    unfold withWriter
    generalize r.2.1.foldl (fun c e => c.onWriterEvent s e) { c with writer := r.1 } = c' at sends ⊢
    cases sends.asks with
    | on ps calls held attached => exact .on ps ((woken c').trans calls) held attached
    | off ps calls held released => exact .off ps ((woken c').trans calls) held released
  · rw [withWriter_of_dropped (by simpa using alive)]
    exact asks_nothing (woken c) id

/-- What a step asks of the stream; only one step takes hold of it. -/
theorem asks_step [DecidableEq W] (s : Setup σ Out In) (c : Call σ Out In W) {a : Act Out W} (other : a ≠ .connected) :
    Asks c (c.step s a) := by
  have stepped := stepped s c a
  generalize c.step s a = c' at stepped ⊢
  cases stepped with
  | beside x es hushed => exact asks_beside c x (spoken_of_hushed c hushed)
  | ended status => exact asks_terminate c _ _
  | routed p => exact asks_route s c p
  | said r c' active ends sends => exact sends.asks
  | used r => exact asks_withWriter s c r
  | connected connects => exact absurd connects other
  | stopped => exact asks_nothing (calls_emit_woke _ _) id
  | read w =>
    unfold readResponse
    split <;> exact asks_nothing rfl id
  | took w =>
    unfold takeResponse
    split <;> exact asks_nothing rfl id
  | dropped => exact asks_nothing (calls_drop c) fun held => by cases held
  | engaged | awaited | waited => exact asks_nothing rfl id

/-! ## the calls of a run -/

/-- How a call stands to its stream: it does not hold one before it is opened, and what it asked of it are the parts
that it sent, and behind them at most a cancel, by which it let go. -/
structure Holding (stage : Stage) (c : Call σ Out In W) : Prop where
  unopened : stage.isOpened = false → c.attached = false
  calls : c.calls = c.sent.map .send ∨
    c.calls = c.sent.map .send ++ [.cancel] ∧ c.attached = false ∧ stage.isOpened = true

theorem holding_new (s : Setup σ Out In) (shape : Shape) (runtime : Bool) (x : σ) :
    Holding .unopened (new s shape runtime x : Call σ Out In W) :=
  ⟨fun _ => rfl, .inl rfl⟩

theorem filterMap_send (ps : List RequestPart) : (ps.map StreamCall.send).filterMap StreamCall.part? = ps := by
  rw [List.filterMap_map]
  exact List.filterMap_some

theorem Holding.asks {stage next : Stage} (h : Holding stage c) (asks : Asks c c')
    (opened : stage.isOpened = true → next.isOpened = true) : Holding next c' := by
  -- How far the start of the call is may only grow.
  have unopened (k : next.isOpened = false) : c.attached = false := h.unopened (by
    by_contra stays
    simp [opened (by simpa using stays)] at k)
  cases asks with
  | on ps calls held attached =>
    have sent : c'.sent = c.sent ++ ps := by
      rw [sent_eq_calls, sent_eq_calls, calls, List.filterMap_append, filterMap_send]
    refine ⟨fun k => ?_, ?_⟩
    · have detached := unopened k
      by_contra taken
      simp [attached (by simpa using taken)] at detached
    · rw [calls, sent]
      rcases h.calls with same | ⟨same, detached, isOpened⟩
      · exact .inl (by rw [same, List.map_append])
      · refine .inr ⟨?_, ?_, opened isOpened⟩
        · rw [same, held detached, List.map_nil, List.append_nil, List.append_nil]
        · by_contra taken
          simp [attached (by simpa using taken)] at detached
  | off ps calls held released =>
    have sent : c'.sent = c.sent ++ ps := by
      rw [sent_eq_calls, sent_eq_calls, calls, List.filterMap_append, List.filterMap_append, filterMap_send]
      exact List.append_nil _
    have isOpened : stage.isOpened = true := by
      by_contra early
      simp [h.unopened (by simpa using early)] at held
    refine ⟨fun _ => released, .inr ⟨?_, released, opened isOpened⟩⟩
    rcases h.calls with same | ⟨-, detached, -⟩
    · rw [calls, sent, same, List.map_append]
    · simp [held] at detached

/-- A call takes hold of its stream when it is opened, and at no other time. -/
theorem connected_of_follows {shape : Shape} {request : Out} {stage next : Stage} {a : Act Out W}
    (h : Follows shape request stage a next) :
    a = .connected ∧ stage = .opening ∧ next = .attached ∨
      a ≠ .connected ∧ (stage.isOpened = true → next.isOpened = true) := by
  cases h with
  | opens opens =>
    cases opens with
    | connected => exact .inl ⟨rfl, rfl, rfl⟩
    | _ => exact .inr ⟨nofun, fun _ => by first | rfl | assumption⟩
  | outside outside =>
    refine .inr ⟨?_, id⟩
    rintro rfl
    cases outside
  | use use =>
    refine .inr ⟨?_, id⟩
    rintro rfl
    cases use

/-- **In every run in order** a call cancels its stream at most once, and sends nothing behind that. -/
theorem holding_of_orderly [DecidableEq W] (s : Setup σ Out In) {shape : Shape} (runtime : Bool) (x : σ)
    {request : Out} {acts : List (Act Out W)} {stage : Stage} (orderly : Orderly shape request acts stage) :
    Holding stage (run (step s) (new s shape runtime x) acts) := by
  induction orderly with
  | nil => exact holding_new s shape runtime x
  | @snoc acts stage next a orderly follows ih =>
    rw [run_append]
    generalize run (step s) (new s shape runtime x) acts = c at ih ⊢
    change Holding next (c.step s a)
    rcases connected_of_follows follows with ⟨rfl, rfl, rfl⟩ | ⟨other, opened⟩
    · have calls : c.calls = c.sent.map .send := ih.calls.resolve_right fun h => by simp [Stage.isOpened] at h
      simp only [step]
      split
      · exact ⟨fun k => by simp [Stage.isOpened] at k, .inl calls⟩
      · exact ⟨fun k => by simp [Stage.isOpened] at k, .inl calls⟩
    · exact ih.asks (asks_step s c other) opened

/-! ## the words of a request -/

/-- The beginnings of a request: metadata, messages and the end. -/
def IsRequest (ks : List PartKind) : Prop := ∃ n, ks <+: .metadata :: List.replicate n .message ++ [.close]

/-- The kinds of parts that lead a request into a phase. -/
theorem follow_cases {ks : List PartKind} {phase : InboundPhase}
    (h : InboundPhase.awaitingMetadata.follow ks = some phase) :
    (ks = [] ∧ phase = .awaitingMetadata) ∨ ∃ n, ks = .metadata :: List.replicate n .message ∧ phase = .receiving ∨
      ks = .metadata :: List.replicate n .message ++ [.close] ∧ phase = .closed := by
  induction ks using List.reverseRecOn generalizing phase with
  | nil => exact .inl ⟨rfl, (Option.some.inj h).symm⟩
  | append_singleton ks k ih =>
    rw [InboundPhase.follow_append, Option.bind_eq_some_iff] at h
    obtain ⟨before, first, last⟩ := h
    rcases ih first with ⟨rfl, rfl⟩ | ⟨n, ⟨rfl, rfl⟩ | ⟨rfl, rfl⟩⟩
    · cases k <;> simp [InboundPhase.follow, InboundPhase.next?] at last
      exact .inr ⟨0, .inl ⟨rfl, last.symm⟩⟩
    · cases k <;> simp [InboundPhase.follow, InboundPhase.next?] at last
      · exact .inr ⟨n + 1, .inl ⟨by simp [List.replicate_succ'], last.symm⟩⟩
      · exact .inr ⟨n, .inr ⟨rfl, last.symm⟩⟩
    · cases k <;> simp [InboundPhase.follow, InboundPhase.next?] at last

theorem isRequest_of_follow {ks : List PartKind} {phase : InboundPhase}
    (h : InboundPhase.awaitingMetadata.follow ks = some phase) : IsRequest ks := by
  rcases follow_cases h with ⟨rfl, -⟩ | ⟨n, ⟨rfl, -⟩ | ⟨rfl, -⟩⟩
  · exact ⟨0, List.nil_prefix⟩
  · exact ⟨n, List.prefix_append _ _⟩
  · exact ⟨n, List.prefix_rfl⟩

theorem closed_of_mem {ks : List PartKind} {phase : InboundPhase}
    (h : InboundPhase.awaitingMetadata.follow ks = some phase) (mem : .close ∈ ks) : phase = .closed := by
  rcases follow_cases h with ⟨rfl, -⟩ | ⟨n, ⟨rfl, -⟩ | ⟨rfl, closed⟩⟩
  · cases mem
  · simp at mem
  · exact closed

/-! ## the messages of a request -/

/-- A message is sent as what the interceptors make of its encoding. -/
def Renders (s : Setup σ Out In) (m : Outbound Out) (data : Bytes) : Prop :=
  ∃ encoded, s.codec.Encodes m encoded ∧ Comes s.pipeline (.message encoded) (.message data)

theorem renders_of_comes (keeps : s.pipeline.KeepsRequestKinds) {said sent : List RequestPart}
    (comes : List.Forall₂ (Comes s.pipeline) said sent) {done : List (Outbound Out)}
    (codes : List.Forall₂ s.codec.Encodes done (requestPayloads said)) :
    List.Forall₂ (Renders s) done (requestPayloads sent) := by
  induction comes generalizing done with
  | nil => exact List.forall₂_nil_right_iff.mpr (List.forall₂_nil_right_iff.mp codes)
  | @cons p q said sent first others ih =>
    have kind := first.kind_eq keeps
    cases p with
    | metadata m =>
      cases q with
      | metadata m' => exact ih codes
      | _ => cases kind
    | message encoded =>
      cases q with
      | message data =>
        change List.Forall₂ s.codec.Encodes done (encoded :: requestPayloads said) at codes
        obtain ⟨m, rest, code, behind, rfl⟩ := List.forall₂_cons_right_iff.mp codes
        exact .cons ⟨encoded, code, first⟩ (ih behind)
      | _ => cases kind
    | close =>
      cases q with
      | close => exact ih codes
      | _ => cases kind

theorem Renders.encodes (leaves : s.pipeline.RewritesNoMessages) {m : Outbound Out} {data : Bytes}
    (h : Renders s m data) : s.codec.Encodes m data := by
  obtain ⟨encoded, code, comes⟩ := h
  obtain rfl : data = encoded := RequestPart.message.inj (comes.eq_of_message leaves rfl)
  exact code

/-- A request that is not a stream has at most one message. -/
theorem accepted_of_single [DecidableEq W] (s : Setup σ Out In) {shape : Shape}
    (single : shape.streamsRequests = false) (runtime : Bool) (x : σ) {request : Out} {acts : List (Act Out W)}
    {stage : Stage} (orderly : Orderly shape request acts stage) :
    ((new s shape runtime x).accepted s acts).length ≤ 1 ∧
      (stage ≠ .posted → stage ≠ .started → (new s shape runtime x).accepted s acts = []) := by
  induction orderly with
  | nil => exact ⟨Nat.zero_le 1, fun _ _ => rfl⟩
  | @snoc acts stage next a orderly follows ih =>
    obtain ⟨few, none⟩ := ih
    unfold accepted at few none ⊢
    rw [gather_snoc]
    generalize run (step s) (new s shape runtime x) acts = c
    -- Until the only message is posted nothing is accepted, and a step that accepts nothing keeps it so.
    have silent (nothing : c.accepts a = [])
        (before : next ≠ .posted → next ≠ .started → stage ≠ .posted ∧ stage ≠ .started) :
        (gather (step s) accepts (new s shape runtime x) acts ++ c.accepts a).length ≤ 1 ∧
          (next ≠ .posted → next ≠ .started →
            gather (step s) accepts (new s shape runtime x) acts ++ c.accepts a = []) := by
      rw [nothing, List.append_nil]
      exact ⟨few, fun h k => none (before h k).1 (before h k).2⟩
    cases follows with
    | opens opens =>
      cases opens with
      | message =>
        rw [none (by simp) (by simp)]
        exact ⟨Nat.le_refl 1, fun h => absurd rfl h⟩
      | writer streams => simp [single] at streams
      | _ => exact silent rfl (by simp)
    | outside outside =>
      refine silent ?_ fun h k => ⟨h, k⟩
      cases a with
      | write | sendMessage => cases outside
      | _ => rfl
    | use use =>
      refine silent ?_ fun h k => ⟨h, k⟩
      cases a with
      | write m => simp [Act.isUse, single] at use
      | sendMessage => cases use
      | _ => rfl

/-- **What a call asks of its stream**, in every run in order: it sends the beginning of a request, of which at most one
part is a message if the request is not a stream. The messages are those that were accepted first, in order and each
once, as the interceptors leave their encodings; the end is sent behind all that were accepted. The stream is cancelled
at most once, behind all parts. -/
theorem calls_of_orderly [DecidableEq W] (s : Setup σ Out In) (keeps : s.pipeline.KeepsRequestKinds) (shape : Shape)
    (runtime : Bool) (x : σ) {request : Out} {acts : List (Act Out W)} {stage : Stage}
    (orderly : Orderly shape request acts stage) :
    let start : Call σ Out In W := new s shape runtime x
    let c := run (step s) start acts
    IsRequest (c.sent.map RequestPart.kind) ∧
    (shape.streamsRequests = false → (requestPayloads c.sent).length ≤ 1) ∧
    (∃ done, done <+: start.accepted s acts ∧ List.Forall₂ (Renders s) done (requestPayloads c.sent) ∧
      (s.pipeline.RewritesNoMessages → List.Forall₂ s.codec.Encodes done (requestPayloads c.sent)) ∧
      (.close ∈ c.sent → done = start.accepted s acts)) ∧
    (c.calls = c.sent.map .send ∨ c.calls = c.sent.map .send ++ [.cancel]) := by
  intro start c
  obtain ⟨said, done, phase, ledger⟩ := ledger_of_orderly s runtime x orderly
  have kinds := kinds_of_comes keeps ledger.comes
  have renders := renders_of_comes keeps ledger.comes ledger.codes
  have encodes (leaves : s.pipeline.RewritesNoMessages) : List.Forall₂ s.codec.Encodes done (requestPayloads c.sent) :=
    renders.imp fun _ _ h => h.encodes leaves
  refine ⟨?_, fun single => ?_, ⟨done, ledger.sub, renders, encodes, ?_⟩, ?_⟩
  · rw [kinds]
    exact isRequest_of_follow ledger.order
  · rw [← renders.length_eq]
    exact ledger.sub.length_le.trans (accepted_of_single s single runtime x orderly).1
  · intro ends
    have mem : .close ∈ said.map RequestPart.kind := kinds ▸ List.mem_map_of_mem ends
    exact (ledger.closed (closed_of_mem ledger.order mem)).2.1
  · exact (holding_of_orderly s runtime x orderly).calls.imp id And.left

/-- A stream of requests has one message and its end, and then the call is cancelled. -/
def oneRequest : List (Act Bytes Nat) :=
  beginning .bidi [9] [] none ++ [.write ⟨[1], .inherit⟩] ++ [.finish] ++ [.cancel]

theorem calls_of_oneRequest :
    let start : Call Unit Bytes Bytes Nat := new narrow .bidi true ()
    let c := run (step narrow) start oneRequest
    narrow.pipeline.KeepsRequestKinds ∧ (∃ stage, Orderly .bidi [9] oneRequest stage) ∧
    c.calls = [.send (.metadata {}), .send (.message [1]), .send .close, .cancel] ∧
    ∃ done, done <+: start.accepted narrow oneRequest ∧
      List.Forall₂ narrow.codec.Encodes done (requestPayloads c.sent) ∧
      done = start.accepted narrow oneRequest := by
  intro start c
  have keeps : narrow.pipeline.KeepsRequestKinds := fun i mem => by cases mem
  have leaves : narrow.pipeline.RewritesNoMessages := fun i mem => by cases mem
  have orderly : Orderly .bidi [9] oneRequest .started :=
    (((orderly_beginning .bidi [9] [] none).snoc (.use rfl)).snoc (.use rfl)).snoc (.use rfl)
  obtain ⟨-, -, ⟨done, sub, -, codes, whole⟩, -⟩ := calls_of_orderly narrow keeps .bidi true () orderly
  exact ⟨keeps, ⟨_, orderly⟩, by decide, done, sub, codes leaves, whole (by decide)⟩

end Call

end CallLifecycle.Client
