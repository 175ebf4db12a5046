import CallLifecycle.Proofs.Client.Cause

/-!
# What a client call delivers

* `Stands`, `exists_stands` — how a run stands: its call goes on, or has a first ending;
* `heard`, `Hearing`, `hearing` — the messages that are brought, as they are decoded, and all that becomes of a response
  part behind which the call goes on;
* `InOrder`, `inOrder_received` — what a call receives before its end are metadata, and messages behind them;
* `nextRead`, `reads_of_stands` — what is read of a stream: the messages that were brought, one by one, and behind them
  what the ending says;
* `answer`, `Held`, `answers_of_stands` — what a single response is: the message that was brought, or the failure of the
  call; it is taken once;
* `delivery_of_run` — both.
-/

namespace CallLifecycle.Client.Call

variable {σ Out In W : Type} {s : Setup σ Out In} {c c' : Call σ Out In W}

/-! ## how a run stands -/

section Runs

variable [DecidableEq W]

/-- How a run stands: its call goes on, or has a first ending. The steps before it are `early`. -/
inductive Stands (s : Setup σ Out In) (c : Call σ Out In W) :
    List (Act Out W) → List (Act Out W) → Option Ending → Prop
  | going {acts : List (Act Out W)} (undecided : Undecided s c acts) : Stands s c acts acts none
  | ended {early late : List (Act Out W)} {a : Act Out W} {e : Ending} (undecided : Undecided s c early)
      (ends : (run (step s) c early).ending? s a = some e) : Stands s c (early ++ a :: late) early (some e)

theorem exists_stands (s : Setup σ Out In) (c : Call σ Out In W) (acts : List (Act Out W)) :
    ∃ early ending, Stands s c acts early ending := by
  rcases undecided_or_ends s c acts with undecided | ⟨early, a, late, e, rfl, undecided, ends⟩
  · exact ⟨acts, none, .going undecided⟩
  · exact ⟨early, some e, .ended undecided ends⟩

theorem Stands.undecided {acts early : List (Act Out W)} {ending : Option Ending} (h : Stands s c acts early ending) :
    Undecided s c early := by
  cases h <;> assumption

theorem Stands.eq_of_undecided {acts early : List (Act Out W)} {ending : Option Ending}
    (h : Stands s c acts early ending) (undecided : Undecided s c acts) : early = acts ∧ ending = none := by
  cases h with
  | going => exact ⟨rfl, rfl⟩
  | @ended _ late a e _ ends =>
    obtain ⟨-, on, -⟩ := (undecided_append s c early (a :: late)).mp undecided
    cases on.symm.trans ends

end Runs

/-! ## the order of what is received -/

/-- Response parts in order: metadata, and messages behind them. -/
def InOrder (ps : List ResponsePart) : Prop :=
  ps = [] ∨ ∃ m rest, ps = .metadata m :: rest ∧ ∀ p ∈ rest, p.kind = .message

theorem InOrder.metadata {ps : List ResponsePart} (h : InOrder ps)
    (unknown : .metadata ∉ ps.map ResponsePart.kind) (m : Metadata) : InOrder (ps ++ [.metadata m]) := by
  rcases h with rfl | ⟨m', rest, rfl, -⟩
  · exact .inr ⟨m, [], rfl, by simp⟩
  · simp [ResponsePart.kind] at unknown

theorem InOrder.known {ps : List ResponsePart} (h : InOrder ps) (message : .message ∈ ps.map ResponsePart.kind) :
    .metadata ∈ ps.map ResponsePart.kind := by
  rcases h with rfl | ⟨m, rest, rfl, -⟩
  · simp at message
  · simp [ResponsePart.kind]

theorem InOrder.message {ps : List ResponsePart} (h : InOrder ps) (known : .metadata ∈ ps.map ResponsePart.kind)
    (data : Bytes) (o : SendOptions) : InOrder (ps ++ [.message data o]) := by
  rcases h with rfl | ⟨m, rest, rfl, messages⟩
  · simp at known
  · refine .inr ⟨m, rest ++ [.message data o], rfl, fun p mem => ?_⟩
    rcases List.mem_append.mp mem with mem | mem
    · exact messages p mem
    · rw [List.mem_singleton.mp mem]
      rfl

/-- The message that a step brings, as it is decoded. -/
def hears (s : Setup σ Out In) (c : Call σ Out In W) : Act Out W → List In
  | .routed (.part p) =>
    if !c.alive || c.finished then []
    else
      match c.admitted? s p with
      | some (.message data _) => (s.codec.decode data (c.beyond s p)).1.toOption.toList
      | _ => []
  | _ => []

/-- What becomes of a response part behind which the call goes on: what is received, the message of it, and the call. -/
inductive Hearing (s : Setup σ Out In) (c : Call σ Out In W) :
    List ResponsePart → List In → Call σ Out In W → Prop
  /-- Nobody takes it. -/
  | ignored : Hearing s c [] [] c
  | metadata (m : Metadata) (x : σ) (es : List (Effect W)) (unknown : c.initial.isCompleted = false) :
      Hearing s c [.metadata m] [] { c.beside x es with initial := { slot := .ready (.ok m) } }
  | single (data : Bytes) (o : SendOptions) (m : In) (x : σ) (es : List (Effect W))
      (p : Promise (Except Status In) W) (known : c.initial.isCompleted = true) (decodes : s.codec.Decodes data m)
      (responses : c.responses = .single p) (unanswered : p.isCompleted = false) :
      Hearing s c [.message data o] [m] { c.beside x es with responses := .single { slot := .ready (.ok m) } }
  | stream (data : Bytes) (o : SendOptions) (m : In) (x : σ) (es : List (Effect W)) (ch : Channel In Status W)
      (known : c.initial.isCompleted = true) (decodes : s.codec.Decodes data m) (responses : c.responses = .stream ch) :
      Hearing s c [.message data o] [m] { c.beside x es with responses := .stream (ch.push m).1 }

section Runs

variable [DecidableEq W]

def heard (s : Setup σ Out In) (c : Call σ Out In W) (acts : List (Act Out W)) : List In :=
  gather (step s) (hears s) c acts

theorem hearing (live : Live c) {p : ResponsePart} (on : c.ending? s (.routed (.part p)) = none) :
    Hearing s c (c.receives s (.routed (.part p))) (c.hears s (.routed (.part p))) (c.step s (.routed (.part p))) := by
  have goes := goes_step (s := s) live (.routed (.part p))
  rw [on] at goes
  have received : c.receives s (.routed (.part p)) =
      if !c.alive || c.finished then [] else (c.admitted? s p).toList := rfl
  have heard := hears.eq_1 s c p
  have unfinished : (c.route s p).finished = false := goes.finished
  have routing := routing s c p
  change Hearing s c _ _ (c.route s p)
  generalize c.route s p = c' at routing unfinished ⊢
  generalize c.violation? s p = reason at routing
  -- A part that ends its call leaves it finished, which a call that goes on is not.
  cases routing with
  | ignored gone =>
    have shut : (!c.alive || c.finished) = true := by
      cases alive : c.alive <;> simp_all [Going]
    rw [received, heard, if_pos shut, if_pos shut]
    exact .ignored
  | rejected r x es => simp [finished_terminate] at unfinished
  | violated reason x es => simp [violation, finished_terminate] at unfinished
  | undecodable data o r x es => simp [finished_terminate] at unfinished
  | taken q x es initial responses hushed going admitted takes =>
    have open' : ¬ (!c.alive || c.finished) = true := by simp [going.1, going.2]
    rw [received, heard, if_neg open', if_neg open', admitted]
    cases takes with
    | metadata m _ unknown => exact .metadata m x es unknown
    | single data o _ m p known decoded responses unanswered =>
      simp only [decoded]
      exact .single data o m x es p known ⟨_, decoded⟩ responses unanswered
    | stream data o _ m ch known decoded responses =>
      simp only [decoded]
      exact .stream data o m x es ch known ⟨_, decoded⟩ responses
  | closed status trailers x es => simp [finished_complete] at unfinished

omit [DecidableEq W] in
theorem nothing_heard {a : Act Out W} (part : ¬ ∃ p, a = .routed (.part p)) :
    c.receives s a = [] ∧ c.hears s a = [] := by
  cases a with
  | routed r =>
    cases r with
    | part p => exact absurd ⟨p, rfl⟩ part
    | _ => exact ⟨rfl, rfl⟩
  | _ => exact ⟨rfl, rfl⟩

/-- **What a call receives before its end** comes in order, and all messages of it are decoded. -/
theorem inOrder_received (s : Setup σ Out In) (shape : Shape) (runtime : Bool) (x : σ) {acts : List (Act Out W)}
    (undecided : Undecided s (new s shape runtime x) acts) :
    InOrder ((new s shape runtime x).received s acts) ∧
    List.Forall₂ s.codec.Decodes (payloads ((new s shape runtime x).received s acts))
      ((new s shape runtime x).heard s acts) := by
  induction acts using List.reverseRecOn with
  | nil => exact ⟨.inl rfl, .nil⟩
  | append_singleton acts a ih =>
    obtain ⟨before, on, -⟩ := (undecided_append s _ acts [a]).mp undecided
    have inflow := inflow_of_undecided s shape runtime x before
    obtain ⟨order, decodes⟩ := ih before
    unfold received at inflow order decodes ⊢
    unfold heard at decodes ⊢
    rw [gather_snoc, gather_snoc, payloads_append]
    -- The induction is on the end of the run: what was received is extended by what the last step brings.
    generalize run (step s) (new s shape runtime x) acts = c at inflow on ⊢
    by_cases part : ∃ p, a = .routed (.part p)
    · obtain ⟨p, rfl⟩ := part
      have hearing := hearing inflow.live on
      generalize c.step s (.routed (.part p)) = c' at hearing
      generalize c.receives s (.routed (.part p)) = ps, c.hears s (.routed (.part p)) = ms at hearing ⊢
      cases hearing with
      | ignored => exact ⟨by rwa [List.append_nil], List.rel_append decodes .nil⟩
      | metadata m x es unknown =>
        refine ⟨order.metadata (fun mem => ?_) m, List.rel_append decodes .nil⟩
        simp [inflow.known.mpr mem] at unknown
      | single data o m x es p known decoded =>
        exact ⟨order.message (inflow.known.mp known) data o, List.rel_append decodes (.cons decoded .nil)⟩
      | stream data o m x es ch known decoded =>
        exact ⟨order.message (inflow.known.mp known) data o, List.rel_append decodes (.cons decoded .nil)⟩
    · obtain ⟨received, heard⟩ := nothing_heard (s := s) (c := c) part
      rw [received, heard, List.append_nil]
      exact ⟨order, List.rel_append decodes .nil⟩

end Runs

/-! ## streams -/

/-- What the next read of a stream yields: a local ending cuts it off; else it is the first of the messages that are
left, and behind them what the end of the server says. -/
def nextRead : Option Ending → List In → Poll (Except Status (Option In))
  | some (.terminated status), _ => .ready (.error status)
  | _, m :: _ => .ready (.ok (some m))
  | none, [] => .pending
  | some (.closed status _), [] => .ready (if status.isOk then .ok none else .error status)

section Runs

variable [DecidableEq W]

theorem readResponse_of_live (live : Live c) {ch : Channel In Status W} (stream : c.responses = .stream ch) (w : W) :
    (c.readResponse w).2 = nextRead none ch.queue := by
  have terminal := live.responses ch stream
  simp only [readResponse, stream, readMessage, Token.poll, live.cancellation]
  cases queue : ch.queue <;> simp [Channel.poll, queue, terminal, nextRead]

omit [DecidableEq W] in
theorem queue_behindAll_of_nil {o : Outcome In} (h : o.queue = []) (acts : List (Act Out W)) :
    (o.behindAll acts).queue = [] := by
  induction acts generalizing o with
  | nil => exact h
  | cons a acts ih =>
    refine ih ?_
    cases a <;> simp [Outcome.behind, h]

/-- As long as a call goes on, what was read of its stream, and behind it what waits to be read, are the messages that
were brought. -/
theorem queue_of_undecided (s : Setup σ Out In) {shape : Shape} (streams : shape.streamsResponses = true)
    (runtime : Bool) (x : σ) {acts : List (Act Out W)} (undecided : Undecided s (new s shape runtime x) acts) :
    ∃ ch, (run (step s) (new s shape runtime x) acts).responses = .stream ch ∧
      (new s shape runtime x).read s acts ++ ch.queue = (new s shape runtime x).heard s acts := by
  induction acts using List.reverseRecOn with
  | nil => exact ⟨{}, by simp [new, streams], rfl⟩
  | append_singleton acts a ih =>
    obtain ⟨before, on, -⟩ := (undecided_append s _ acts [a]).mp undecided
    obtain ⟨ch, stream, queue⟩ := ih before
    have live := live_after (live_new s shape runtime x) before
    have streams' := (isStream_after s shape runtime x (acts ++ [a])).trans streams
    unfold read heard at queue ⊢
    rw [run_append] at streams' ⊢
    rw [gather_snoc, gather_snoc, ← queue]
    generalize run (step s) (new s shape runtime x) acts = c at live on stream streams' ⊢
    by_cases part : ∃ p, a = .routed (.part p)
    · obtain ⟨p, rfl⟩ := part
      have nothing : c.gets (.routed (.part p)) = [] := rfl
      have hearing := hearing live on
      rw [nothing, List.append_nil, List.append_assoc]
      change ∃ ch', (c.step s (.routed (.part p))).responses = _ ∧ _
      generalize c.step s (.routed (.part p)) = c' at hearing streams' ⊢
      generalize c.receives s (.routed (.part p)) = ps, c.hears s (.routed (.part p)) = ms at hearing ⊢
      cases hearing with
      | ignored => exact ⟨ch, stream, by rw [List.append_nil]⟩
      | metadata => exact ⟨ch, stream, by rw [List.append_nil]⟩
      | single data o m x es p known decodes responses => cases stream.symm.trans responses
      | stream data o m x es ch' known decodes responses =>
        obtain rfl : ch = ch' := by simpa [stream] using responses
        exact ⟨_, rfl, by rw [(Channel.push_of_live (live.responses ch stream) m).1]⟩
    · -- A read moves the first message of the queue to those that were read; any other step leaves both alone.
      obtain ⟨ch', stream'⟩ := exists_stream streams'
      have unheard := unheard_step live (fun p e => part ⟨p, e⟩) on
      obtain ⟨ch'', same, left⟩ := unheard.queue ch' stream'
      obtain rfl : ch = ch'' := by simpa [stream] using same
      refine ⟨ch', stream', ?_⟩
      rw [(nothing_heard (s := s) part).2, List.append_nil, left, List.append_assoc]

/-- **What is read of a stream** are the messages that were brought before its end, one by one; behind them the
ending. -/
theorem reads_of_stands (s : Setup σ Out In) {shape : Shape} (streams : shape.streamsResponses = true) (runtime : Bool)
    (x : σ) {acts early : List (Act Out W)} {ending : Option Ending}
    (stands : Stands s (new s shape runtime x) acts early ending) :
    (new s shape runtime x).read s acts <+: (new s shape runtime x).heard s early ∧
    ∀ w, ((run (step s) (new s shape runtime x) acts).readResponse w).2 =
      nextRead ending (((new s shape runtime x).heard s early).drop ((new s shape runtime x).read s acts).length) := by
  obtain ⟨ch, stream, queue⟩ := queue_of_undecided s streams runtime x stands.undecided
  rw [← queue]
  cases stands with
  | going undecided =>
    refine ⟨List.prefix_append _ _, fun w => ?_⟩
    rw [List.drop_left]
    exact readResponse_of_live (live_after (live_new s shape runtime x) undecided) stream w
  | @ended _ late a e undecided ends =>
    obtain ⟨isOver, read⟩ := read_of_ended shape runtime x streams undecided ends late
    obtain ⟨ch', stream'⟩ := exists_stream ((isStream_after s shape runtime x (early ++ a :: late)).trans streams)
    have yields := isOver.yields.stream ch' stream'
    rw [(behindAll_fixed _ late).2] at yields
    cases e with
    | closed status trailers =>
      have left : ((Ending.closed status trailers).outcome (run (step s) (new s shape runtime x) early)).queue =
          ch.queue := by simp [Ending.outcome, stream, Ending.isLocal]
      rw [left] at read
      refine ⟨⟨_, read⟩, fun w => ?_⟩
      rw [← read, List.drop_left, yields w]
      cases ((Ending.closed status trailers).outcome _).behindAll late |>.queue with
      | nil =>
        simp only [nextRead, Ending.outcome, Ending.terminal]
        split <;> rfl
      | cons m rest => rfl
    | terminated status =>
      -- What nobody has read at a local end is lost.
      have left : ((Ending.terminated status).outcome (run (step s) (new s shape runtime x) early)).queue = [] := by
        simp [Ending.outcome, stream, Ending.isLocal]
      rw [left, queue_behindAll_of_nil left, List.append_nil, List.append_nil] at read
      rw [read]
      refine ⟨List.prefix_append _ _, fun w => ?_⟩
      rw [yields w, queue_behindAll_of_nil left]
      rfl

end Runs

/-! ## single responses -/

/-- What the first to take a single response gets: the message that was received, else the failure of the call. -/
def answer : Option Ending → List In → Poll (Except Status In)
  | _, m :: _ => .ready (.ok m)
  | none, [] => .pending
  | some e, [] => .ready (.error e.missing)

section Runs

variable [DecidableEq W]

def takes (c : Call σ Out In W) : Act Out W → List (Except Status In)
  | .take w =>
    match (c.takeResponse w).2 with
    | .ready r => [r]
    | .pending => []
  | _ => []

def taken (s : Setup σ Out In) (c : Call σ Out In W) (acts : List (Act Out W)) : List (Except Status In) :=
  gather (step s) takes c acts

/-- The first to take the single response gets the answer, all others that it was taken; `got` is what they got so far.
As long as there is no answer nobody gets anything. -/
def TakenOnce (c : Call σ Out In W) (got : List (Except Status In)) : Poll (Except Status In) → Prop
  | .pending => got = [] ∧ ∀ w, (c.takeResponse w).2 = .pending
  | .ready a => ∀ w, ∃ r, (c.takeResponse w).2 = .ready r ∧
      got ++ [r] = a :: List.replicate got.length (.error responseTaken)

end Runs

/-- What the promise of a single response holds, where `ms` were received and `got` was taken. -/
inductive Held (p : Promise (Except Status In) W) : List In → List (Except Status In) → Prop
  | waiting (slot : p.slot = .pending) : Held p [] []
  | came (m : In) (slot : p.slot = .ready (.ok m)) : Held p [m] []
  | taken (m : In) (n : Nat) (slot : p.slot = .taken) :
      Held p [m] (.ok m :: List.replicate n (.error responseTaken))

theorem Held.isCompleted {p : Promise (Except Status In) W} {ms : List In} {got : List (Except Status In)}
    (h : Held p ms got) (some : ms ≠ []) : p.isCompleted = true := by
  cases h with
  | waiting => exact absurd rfl some
  | came m slot => simp [Promise.isCompleted, slot]
  | taken m n slot => simp [Promise.isCompleted, slot]

section Runs

variable [DecidableEq W]

theorem responses_step (live : Live c) {a : Act Out W} (on : c.ending? s a = none)
    (part : ∀ p, a ≠ .routed (.part p)) (take : ∀ w, a ≠ .take w) (read : ∀ w, a ≠ .read w) :
    (c.step s a).responses = c.responses := by
  have stepped := stepped s c a
  generalize c.step s a = c' at stepped ⊢
  cases stepped with
  | ended status ends => simp [on] at ends
  | routed p told => exact absurd told (part p)
  | said r c' active ends sends =>
    cases sends with
    | on y es => rfl
    | off status y es => cases on.symm.trans ends
  | used r active ends =>
    obtain ⟨x, es, same⟩ := withWriter_of_going (s := s) live r fun alive => (ends alive).symm.trans on
    rw [same]
  | read w reads => exact absurd reads (read w)
  | took w takes => exact absurd takes (take w)
  | dropped =>
    unfold drop
    split <;> rfl
  | beside | connected | engaged | stopped | awaited | waited => rfl

theorem takeResponse_single {p : Promise (Except Status In) W} (single : c.responses = .single p) (w : W) :
    c.takeResponse w =
      ({ c with responses := .single (p.take w).1 }, (p.take w).2.map fun v => v.getD (.error responseTaken)) := by
  simp only [takeResponse, single]

theorem Held.step {p : Promise (Except Status In) W} {ms : List In} {got : List (Except Status In)} (h : Held p ms got)
    (live : Live c) (single : c.responses = .single p) {a : Act Out W} (on : c.ending? s a = none) :
    ∃ p', (c.step s a).responses = .single p' ∧ Held p' (ms ++ c.hears s a) (got ++ c.takes a) := by
  by_cases part : ∃ q, a = .routed (.part q)
  · obtain ⟨q, rfl⟩ := part
    have nothing : c.takes (.routed (.part q)) = [] := rfl
    have hearing := hearing live on
    rw [nothing, List.append_nil]
    generalize c.step s (.routed (.part q)) = c', c.receives s (.routed (.part q)) = ps,
      c.hears s (.routed (.part q)) = new at hearing ⊢
    cases hearing with
    | ignored => exact ⟨p, single, by rwa [List.append_nil]⟩
    | metadata => exact ⟨p, single, by rwa [List.append_nil]⟩
    | single data o m x es promise known decodes responses unanswered =>
      obtain rfl : p = promise := by simpa [single] using responses
      -- A message that comes second would have ended the call, so the promise was still waiting.
      cases h with
      | waiting slot => exact ⟨_, rfl, .came m rfl⟩
      | came m' slot => simp [Promise.isCompleted, slot] at unanswered
      | taken m' n slot => simp [Promise.isCompleted, slot] at unanswered
    | stream data o m x es ch known decodes responses => cases single.symm.trans responses
  rw [(nothing_heard (s := s) part).2, List.append_nil]
  by_cases take : ∃ w, a = .take w
  · obtain ⟨w, rfl⟩ := take
    have step : (c.step s (.take w)).responses = .single (p.take w).1 :=
      congrArg (fun r => r.1.responses) (takeResponse_single single w)
    refine ⟨_, step, ?_⟩
    simp only [takes, takeResponse_single single]
    cases h with
    | waiting slot =>
      simp only [Promise.take, slot, Poll.map]
      exact .waiting rfl
    | came m slot =>
      simp only [Promise.take, slot, Poll.map]
      exact .taken m 0 rfl
    | taken m n slot =>
      simp only [Promise.take, slot, Poll.map, List.cons_append, Option.getD_none, ← List.replicate_succ']
      exact .taken m (n + 1) slot
  · have nobody : c.takes a = [] := by
      cases a with
      | take w => exact absurd ⟨w, rfl⟩ take
      | _ => rfl
    rw [nobody, List.append_nil]
    refine ⟨p, ?_, h⟩
    by_cases read : ∃ w, a = .read w
    · obtain ⟨w, rfl⟩ := read
      have same : c.step s (.read w) = c := by simp only [Call.step, readResponse, single]
      rw [same, single]
    · rw [responses_step live on (fun q e => part ⟨q, e⟩) (fun w e => take ⟨w, e⟩) (fun w e => read ⟨w, e⟩), single]

/-- As long as a call goes on, its single response is the message that was brought. -/
theorem held_of_undecided (s : Setup σ Out In) {shape : Shape} (single : shape.streamsResponses = false)
    (runtime : Bool) (x : σ) {acts : List (Act Out W)} (undecided : Undecided s (new s shape runtime x) acts) :
    ∃ p, (run (step s) (new s shape runtime x) acts).responses = .single p ∧
      Held p ((new s shape runtime x).heard s acts) ((new s shape runtime x).taken s acts) := by
  induction acts using List.reverseRecOn with
  | nil => exact ⟨{}, by simp [new, single], .waiting rfl⟩
  | append_singleton acts a ih =>
    obtain ⟨before, on, -⟩ := (undecided_append s _ acts [a]).mp undecided
    obtain ⟨p, responses, held⟩ := ih before
    obtain ⟨p', responses', held'⟩ := held.step (live_after (live_new s shape runtime x) before) responses on
    unfold taken heard at held' ⊢
    rw [gather_snoc, gather_snoc, run_append]
    exact ⟨p', responses', held'⟩

theorem Held.takenOnce {p : Promise (Except Status In) W} {ms : List In} {got : List (Except Status In)}
    (h : Held p ms got) (single : c.responses = .single p) : TakenOnce c got (answer none ms) := by
  cases h with
  | waiting slot =>
    refine ⟨rfl, fun w => ?_⟩
    simp [takeResponse_single single, Promise.take, slot, Poll.map]
  | came m slot =>
    refine fun w => ⟨.ok m, ?_, rfl⟩
    simp [takeResponse_single single, Promise.take, slot, Poll.map]
  | taken m n slot =>
    refine fun w => ⟨.error responseTaken, ?_, ?_⟩
    · simp [takeResponse_single single, Promise.take, slot, Poll.map]
    · rw [List.cons_append, ← List.replicate_succ', List.length_cons, List.length_replicate]

omit [DecidableEq W] in
/-- What is taken of a call that ends: what was taken before its end, and what the ending leaves. -/
theorem Held.once {p : Promise (Except Status In) W} {ms : List In} {got : List (Except Status In)}
    (h : Held p ms got) (single : c.responses = .single p) (e : Ending) :
    ∃ a, answer (some e) ms = .ready a ∧
      got ++ [(e.outcome c).single] = a :: List.replicate got.length (.error responseTaken) := by
  rcases p with ⟨slot, waiters⟩
  cases h with
  | waiting slot =>
    obtain rfl := slot
    exact ⟨_, rfl, by simp [Ending.outcome, single]⟩
  | came m slot =>
    obtain rfl := slot
    exact ⟨_, rfl, by simp [Ending.outcome, single]⟩
  | taken m n slot =>
    obtain rfl := slot
    refine ⟨_, rfl, ?_⟩
    simp only [Ending.outcome, single]
    rw [List.cons_append, ← List.replicate_succ', List.length_cons, List.length_replicate]

theorem taken_behind {o : Outcome In} (h : Over c o) (single : c.isStream = false) {a : Except Status In}
    {got : List (Except Status In)} (once : got ++ [o.single] = a :: List.replicate got.length (.error responseTaken))
    (late : List (Act Out W)) :
    (got ++ c.taken s late) ++ [(o.behindAll late).single] =
      a :: List.replicate (got ++ c.taken s late).length (.error responseTaken) := by
  induction late generalizing c o got with
  | nil => simpa [taken, gather, Outcome.behindAll] using once
  | cons b late ih =>
    have next : (got ++ c.takes b) ++ [(o.behind b).single] =
        a :: List.replicate (got ++ c.takes b).length (.error responseTaken) := by
      cases b with
      | take w =>
        obtain ⟨p, responses⟩ := exists_single single
        have yields := h.yields.single p responses w
        have one : c.takes (.take w) = [o.single] := by simp only [takes, yields]
        rw [one, once, List.cons_append]
        have more : (o.behind (.take w : Act Out W)).single = .error responseTaken := rfl
        rw [more, ← List.replicate_succ', List.length_cons, List.length_replicate]
      | _ => simpa [takes, Outcome.behind] using once
    have others := ih (over_step (s := s) h b) ((isStream_step s c b).trans single) next
    rw [List.append_assoc got] at others
    exact others

theorem takes_of_ending? {a : Act Out W} {e : Ending} (h : c.ending? s a = some e) : c.takes a = [] := by
  cases a with
  | take w =>
    rw [ending?_of_isQuiet rfl] at h
    cases h
  | _ => rfl

/-- **What is taken of a single response** is the message that was brought before the end, or the failure of the call;
it is taken once. -/
theorem answers_of_stands (s : Setup σ Out In) {shape : Shape} (single : shape.streamsResponses = false)
    (runtime : Bool) (x : σ) {acts early : List (Act Out W)} {ending : Option Ending}
    (stands : Stands s (new s shape runtime x) acts early ending) :
    TakenOnce (run (step s) (new s shape runtime x) acts) ((new s shape runtime x).taken s acts)
      (answer ending ((new s shape runtime x).heard s early)) := by
  obtain ⟨p, responses, held⟩ := held_of_undecided s single runtime x stands.undecided
  cases stands with
  | going undecided => exact held.takenOnce responses
  | @ended _ late a e undecided ends =>
    have goes := goes_step (s := s) (live_after (live_new s shape runtime x) undecided) a
    rw [ends] at goes
    have single' := (isStream_step s _ a).trans ((isStream_after s shape runtime x early).trans single)
    obtain ⟨first, same, once⟩ := held.once responses e
    have behind := taken_behind (s := s) goes.past single' once late
    have nothing := takes_of_ending? ends
    rw [same, run_append, run_cons]
    unfold taken at behind ⊢
    rw [gather_append, gather, nothing, List.nil_append]
    intro w
    obtain ⟨p', responses'⟩ := exists_single ((isStream_after s shape runtime x (early ++ a :: late)).trans single)
    rw [run_append, run_cons] at responses'
    exact ⟨_, (over_after (s := s) goes.past late).yields.single p' responses' w, behind⟩

/-- A second message for a single response ends the call. -/
theorem ending?_of_second (s : Setup σ Out In) {shape : Shape} (single : shape.streamsResponses = false)
    (runtime : Bool) (x : σ) {acts : List (Act Out W)} (undecided : Undecided s (new s shape runtime x) acts)
    (alive : (run (step s) (new s shape runtime x) acts).alive = true)
    (first : (new s shape runtime x).heard s acts ≠ []) {p : ResponsePart}
    (second : (run (step s) (new s shape runtime x) acts).hears s (.routed (.part p)) ≠ []) :
    (run (step s) (new s shape runtime x) acts).ending? s (.routed (.part p)) =
      some (.ofViolation "more than one response message for a single response call") := by
  obtain ⟨promise, responses, held⟩ := held_of_undecided s single runtime x undecided
  have inflow := inflow_of_undecided s shape runtime x undecided
  obtain ⟨order, -⟩ := inOrder_received s shape runtime x undecided
  generalize run (step s) (new s shape runtime x) acts = c at responses inflow alive second ⊢
  have answered : c.hasResponse = true := by simpa only [hasResponse, responses] using held.isCompleted first
  have known : c.initial.isCompleted = true := inflow.known.mpr (order.known (inflow.answered answered))
  have going : Going c := ⟨alive, inflow.live.finished⟩
  refine (ending?_eq_some_iff going _ _).mpr (.violated p _ ?_)
  have open' : ¬ (!c.alive || c.finished) = true := by simp [going.1, going.2]
  rw [hears, if_neg open'] at second
  rw [violation?, if_neg open']
  cases admitted : c.admitted? s p with
  | none => simp [admitted] at second
  | some q =>
    cases q with
    | message data o =>
      simp only [admitted] at second ⊢
      cases decoded : (s.codec.decode data (c.beyond s p)).1 with
      | error r => simp [decoded, Except.toOption] at second
      | ok m => simp [known, answered]
    | _ => simp [admitted] at second

/-- **What a call delivers.** Let `heard` be the messages that came out of the interceptors before the first ending of
its run, as they are decoded; what was received until then are metadata, and behind them these messages.

The reads of a stream yield these messages in order, each once. Behind an end of the server they yield what is left of
them, and then a clean end or the status, as the end says; behind a local ending they yield its status at once. Before
any ending they wait.

The first to take a single response gets the message that was heard, or the failure of the call, which is a missing
response if its end was ok; all others get that it was taken. A second message ends the call as an internal error. -/
theorem delivery_of_run (s : Setup σ Out In) (shape : Shape) (runtime : Bool) (x : σ) (acts : List (Act Out W)) :
    let start : Call σ Out In W := new s shape runtime x
    let c := run (step s) start acts
    ∃ early ending, Stands s start acts early ending ∧ InOrder (start.received s early) ∧
      List.Forall₂ s.codec.Decodes (payloads (start.received s early)) (start.heard s early) ∧
      (shape.streamsResponses = true →
        start.read s acts <+: start.heard s early ∧
        ∀ w, (c.readResponse w).2 = nextRead ending ((start.heard s early).drop (start.read s acts).length)) ∧
      (shape.streamsResponses = false →
        TakenOnce c (start.taken s acts) (answer ending (start.heard s early)) ∧
        ∀ p, ending = none → c.alive = true → start.heard s acts ≠ [] → c.hears s (.routed (.part p)) ≠ [] →
          ∃ status, c.ending? s (.routed (.part p)) = some (.terminated status) ∧ status.code = .internal) := by
  intro start c
  obtain ⟨early, ending, stands⟩ := exists_stands s start acts
  obtain ⟨order, decodes⟩ := inOrder_received s shape runtime x stands.undecided
  refine ⟨early, ending, stands, order, decodes, fun streams => reads_of_stands s streams runtime x stands,
    fun single => ⟨answers_of_stands s single runtime x stands, fun p going alive first second => ?_⟩⟩
  subst going
  cases stands with
  | going undecided =>
    exact ⟨_, ending?_of_second s single runtime x undecided alive first second, Status.code_ofFailure_violation _⟩

/-- Two messages come in; one is read, and the other is still read behind the end of the server and a late cancel. -/
def twoMessages : List (Act Bytes Nat) :=
  beginning .serverStreaming [9] [] none ++
    [ResponsePart.metadata {}, .message [1] {}, .message [2] {}].map (fun p => .routed (.part p)) ++
    [.read 0, .routed (.part (.close { code := .ok } {})), .cancel]

def oneAnswer : List (Act Bytes Nat) :=
  beginning .unary [9] [] none ++ [ResponsePart.metadata {}, .message [1] {}].map fun p => .routed (.part p)

theorem delivery_of_twoMessages :
    (∃ early ending, Stands narrow (new narrow .serverStreaming true ()) twoMessages early ending ∧
      ∀ w, ((run (step narrow) (new narrow .serverStreaming true ()) twoMessages).readResponse w).2 =
        nextRead ending (((new narrow .serverStreaming true ()).heard narrow early).drop
          ((new narrow .serverStreaming true ()).read narrow twoMessages).length)) ∧
    ((run (step narrow) (new narrow .serverStreaming true ()) twoMessages).readResponse 0).2 = .ready (.ok (some [2])) ∧
    ∃ status, (run (step narrow) (new narrow .unary true ()) oneAnswer).ending? narrow
      (.routed (.part (.message [2] {}))) = some (.terminated status) ∧ status.code = .internal := by
  obtain ⟨early, ending, stands, -, -, streams, -⟩ := delivery_of_run narrow .serverStreaming true () twoMessages
  obtain ⟨early', ending', stands', -, -, -, single⟩ := delivery_of_run narrow .unary true () oneAnswer
  have undecided : Undecided narrow (new narrow .unary true ()) oneAnswer :=
    ⟨rfl, rfl, rfl, rfl, rfl, rfl, rfl, rfl, trivial⟩
  have going := (stands'.eq_of_undecided undecided).2
  exact ⟨⟨early, ending, stands, (streams rfl).2⟩, rfl,
    (single rfl).2 _ going rfl (List.cons_ne_nil [1] []) (List.cons_ne_nil [2] [])⟩

end Runs

end CallLifecycle.Client.Call
