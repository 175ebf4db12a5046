import CallLifecycle.Proofs.Client.Outcome
import CallLifecycle.Proofs.Client.Requests
import CallLifecycle.Proofs.Stream.Reading

/-!
# The response of a client call

What the transport told a call and what its user read are kept beside its state, step by step.

* `isStream_after` — the responses of a call are a stream or a single one from its start to its end;
* `routedParts`, `received`, `read` — the response parts that the transport told, those that came out of the
  interceptors, and the messages that the user read;
* `Inflow`, `inflow_of_undecided` — **as long as a call has not ended** it knows its metadata just if they were
  received, and what was read, and behind it what waits to be read, are all messages that were received;
* `undecided_or_ends` — every run goes on, or has a first ending.
-/

namespace CallLifecycle.Client

def routedParts {Out W : Type} (acts : List (Act Out W)) : List ResponsePart :=
  acts.filterMap fun
    | .routed (.part p) => some p
    | _ => none

@[simp] theorem routedParts_append {Out W : Type} (acts more : List (Act Out W)) :
    routedParts (acts ++ more) = routedParts acts ++ routedParts more := by
  simp [routedParts]

namespace Call

variable {σ Out In W : Type} {s : Setup σ Out In} {c c' : Call σ Out In W}

/-! ## streams stay streams -/

def isStream (c : Call σ Out In W) : Bool :=
  match c.responses with
  | .single _ => false
  | .stream _ => true

theorem isStream_settledBy (c : Call σ Out In W) (e : Ending) (stop : Stop) (trace : List (Effect W)) :
    (c.settledBy e stop trace).isStream = c.isStream := by
  unfold isStream settledBy settled
  cases c.responses <;> rfl

theorem exists_stream (streams : c.isStream = true) : ∃ ch, c.responses = .stream ch := by
  unfold isStream at streams
  split at streams
  · cases streams
  · exact ⟨_, ‹_›⟩

theorem exists_single (single : c.isStream = false) : ∃ p, c.responses = .single p := by
  unfold isStream at single
  split at single
  · exact ⟨_, ‹_›⟩
  · cases single

@[simp] theorem isStream_terminate (c : Call σ Out In W) (status : Status) (stop : Stop) :
    (c.terminate status stop).isStream = c.isStream := by
  by_cases going : c.finished = false
  · rw [terminate_eq_settledBy going, isStream_settledBy]
  · rw [terminate_of_finished (by simpa using going)]

@[simp] theorem isStream_complete (c : Call σ Out In W) (status : Status) (trailers : Metadata) :
    (c.complete status trailers).isStream = c.isStream := by
  by_cases going : c.finished = false
  · rw [complete_eq_settledBy going, isStream_settledBy]
  · rw [complete, if_pos (by simpa using going)]

theorem isStream_route (c : Call σ Out In W) (p : ResponsePart) : (c.route s p).isStream = c.isStream := by
  have routing := routing s c p
  generalize c.route s p = c' at routing ⊢
  generalize c.violation? s p = reason at routing
  cases routing with
  | ignored => rfl
  | rejected r x es => exact isStream_terminate (c.beside x es) _ _
  | violated reason x es => exact isStream_terminate (c.beside x es) _ _
  | undecodable data o r x es => exact isStream_terminate (c.beside x es) _ _
  | taken q x es initial responses hushed going admitted takes => cases takes <;> simp_all [isStream]
  | closed status trailers x es => exact isStream_complete (c.beside x es) _ _

theorem Sends.isStream {stop : Stop} {r : Except Status σ} (h : Sends c stop r c') : c'.isStream = c.isStream := by
  cases h with
  | on y es => rfl
  | off status y es => exact isStream_terminate (c.beside y es) _ _

theorem isStream_withWriter (c : Call σ Out In W)
    (r : Writer (Outbound Out) Failure W × List (WriterEvent (Outbound Out) Failure) × List W) :
    (c.withWriter s r).isStream = c.isStream := by
  by_cases finished : c.finished = true
  · rw [withWriter_of_finished finished]
    rfl
  by_cases alive : c.alive = true
  · exact (sends_events (s := s) (c := { c with writer := r.1 }) (by simpa using finished) alive r.2.1).isStream
  · rw [withWriter_of_dropped (by simpa using alive)]
    rfl

theorem isStream_step [DecidableEq W] (s : Setup σ Out In) (c : Call σ Out In W) (a : Act Out W) :
    (c.step s a).isStream = c.isStream := by
  have stepped := stepped s c a
  generalize c.step s a = c' at stepped ⊢
  cases stepped with
  | ended status => exact isStream_terminate c _ _
  | routed p => exact isStream_route c p
  | said r c' active ends sends => exact sends.isStream
  | used r => exact isStream_withWriter c r
  | read w =>
    unfold readResponse
    split <;> simp_all [isStream]
  | took w =>
    unfold takeResponse
    split <;> simp_all [isStream]
  | dropped =>
    unfold drop
    split <;> rfl
  | beside | connected | engaged | stopped | awaited | waited => rfl

theorem isStream_after [DecidableEq W] (s : Setup σ Out In) (shape : Shape) (runtime : Bool) (x : σ)
    (acts : List (Act Out W)) :
    (run (step s) (new s shape runtime x : Call σ Out In W) acts).isStream = shape.streamsResponses := by
  refine run_induction (P := fun c : Call σ Out In W => c.isStream = shape.streamsResponses) ?_ fun _ a same =>
    (isStream_step s _ a).trans same
  cases h : shape.streamsResponses <;> simp [isStream, new, h]

/-! ## what is received and read -/

/-- The response part that comes out of the interceptors at a step. -/
def receives (s : Setup σ Out In) (c : Call σ Out In W) : Act Out W → List ResponsePart
  | .routed (.part p) => if !c.alive || c.finished then [] else (c.admitted? s p).toList
  | _ => []

section Reads

variable [DecidableEq W]

def gets (c : Call σ Out In W) : Act Out W → List In
  | .read w =>
    match (c.readResponse w).2 with
    | .ready (.ok (some m)) => [m]
    | _ => []
  | _ => []

def received (s : Setup σ Out In) (c : Call σ Out In W) (acts : List (Act Out W)) : List ResponsePart :=
  gather (step s) (receives s) c acts

def read (s : Setup σ Out In) (c : Call σ Out In W) (acts : List (Act Out W)) : List In := gather (step s) gets c acts

end Reads

/-! ## steps that receive nothing -/

/-- A step that receives nothing: `got` is read from the responses. -/
structure Unheard (c c' : Call σ Out In W) (got : List In) : Prop where
  alive : c'.alive = true → c.alive = true
  known : c'.initial.isCompleted = c.initial.isCompleted
  answered : c'.hasResponse = c.hasResponse
  queue : ∀ ch', c'.responses = .stream ch' → ∃ ch, c.responses = .stream ch ∧ ch.queue = got ++ ch'.queue

theorem unheard_of_same (alive : c'.alive = true → c.alive = true) (initial : c'.initial = c.initial)
    (responses : c'.responses = c.responses) : Unheard c c' [] :=
  ⟨alive, by rw [initial], by simp [hasResponse, responses], fun ch' h => ⟨ch', responses ▸ h, rfl⟩⟩

theorem Unheard.refl (c : Call σ Out In W) : Unheard c c [] := unheard_of_same id rfl rfl

theorem Sends.unheard {stop : Stop} {r : Except Status σ} (h : Sends c stop r c') (on : Ending.ofSending r = none) :
    Unheard c c' [] := by
  cases h with
  | on y es => exact unheard_of_same id rfl rfl
  | off status y es => cases on

/-- As long as the call goes on, an operation of the request writer changes nothing else of it. -/
theorem withWriter_of_going (live : Live c)
    (r : Writer (Outbound Out) Failure W × List (WriterEvent (Outbound Out) Failure) × List W)
    (on : c.alive = true → Ending.ofSending (s.sendEvents c.surroundings r.2.1) = none) :
    ∃ x es, c.withWriter s r = { c with writer := r.1, surroundings := x, trace := c.trace ++ es } := by
  by_cases alive : c.alive = true
  · have sends := sends_events (s := s) (c := { c with writer := r.1 }) live.finished alive r.2.1
    have on : Ending.ofSending (s.sendEvents ({ c with writer := r.1 }).surroundings r.2.1) = none := on alive
    unfold withWriter
    generalize s.sendEvents ({ c with writer := r.1 }).surroundings r.2.1 = result at sends on
    generalize r.2.1.foldl (fun c e => c.onWriterEvent s e) { c with writer := r.1 } = c' at sends ⊢
    cases sends with
    | on y es => exact ⟨y, es ++ r.2.2.map .woke, by simp [beside, emit]⟩
    | off status y es => cases on
  · rw [withWriter_of_dropped (by simpa using alive)]
    exact ⟨_, _, rfl⟩

section Steps

variable [DecidableEq W]

theorem unheard_read (c : Call σ Out In W) (w : W) : Unheard c (c.readResponse w).1 (c.gets (.read w)) := by
  unfold gets readResponse
  cases hr : c.responses with
  | single p => exact .refl c
  | stream ch =>
    have reading := reading c.cancellation ch w
    simp only
    generalize readMessage c.cancellation ch w = r at reading ⊢
    rcases r with ⟨t, ch', r⟩
    refine ⟨id, rfl, by simp [hasResponse, hr], fun ch'' h => ⟨ch, hr, ?_⟩⟩
    cases h
    cases reading <;> simp_all

theorem unheard_take (c : Call σ Out In W) (w : W) : Unheard c (c.takeResponse w).1 [] := by
  unfold takeResponse
  cases hr : c.responses with
  | stream ch => exact .refl c
  | single p =>
    refine ⟨id, rfl, ?_, fun ch h => by cases h⟩
    rcases p with ⟨_ | _ | _, waiters⟩ <;> simp [hasResponse, hr, Promise.take, Promise.isCompleted]

theorem unheard_step (live : Live c) {a : Act Out W} (other : ∀ p, a ≠ .routed (.part p))
    (on : c.ending? s a = none) : Unheard c (c.step s a) (c.gets a) := by
  by_cases reads : ∃ w, a = .read w
  · obtain ⟨w, rfl⟩ := reads
    exact unheard_read c w
  have nothing : c.gets a = [] := by
    cases a with
    | read w => exact absurd ⟨w, rfl⟩ reads
    | _ => rfl
  rw [nothing]
  have stepped := stepped s c a
  generalize c.step s a = c' at stepped ⊢
  cases stepped with
  | ended status ends => simp [on] at ends
  | routed p told => exact absurd told (other p)
  | said r c' active ends sends => exact sends.unheard (ends.symm.trans on)
  | used r active ends =>
    obtain ⟨x, es, same⟩ := withWriter_of_going (s := s) live r fun alive => (ends alive).symm.trans on
    rw [same]
    exact unheard_of_same id rfl rfl
  | waited initial trailing status done known => exact ⟨id, known, rfl, fun ch h => ⟨ch, h, rfl⟩⟩
  | read w read => exact absurd ⟨w, read⟩ reads
  | took w => exact unheard_take c w
  | dropped =>
    unfold drop
    split <;> exact unheard_of_same (by simp) rfl rfl
  | beside | connected | engaged | stopped | awaited => exact unheard_of_same id rfl rfl

end Steps

/-! ## the inflow -/

/-- What came in to a call that has not ended: of the parts that were `told`, the `received` came out of the
interceptors, and `got` was read. -/
structure Inflow (s : Setup σ Out In) (c : Call σ Out In W) (told received : List ResponsePart) (got : List In) :
    Prop where
  live : Live c
  passed : ∃ first, first <+: told ∧ List.Forall₂ (Arrives s.pipeline) first received ∧ (c.alive = true → first = told)
  known : c.initial.isCompleted = true ↔ .metadata ∈ received.map ResponsePart.kind
  answered : c.hasResponse = true → .message ∈ received.map ResponsePart.kind
  queue : ∀ ch, c.responses = .stream ch → List.Forall₂ s.codec.Decodes (payloads received) (got ++ ch.queue)

theorem inflow_new (s : Setup σ Out In) (shape : Shape) (runtime : Bool) (x : σ) :
    Inflow s (new s shape runtime x : Call σ Out In W) [] [] [] := by
  refine ⟨live_new s shape runtime x, ⟨[], List.prefix_rfl, .nil, fun _ => rfl⟩, ?_, ?_, fun ch h => ?_⟩
  · simp [new, Promise.isCompleted]
  · cases h : shape.streamsResponses <;> simp [hasResponse, new, h, Promise.isCompleted]
  · cases hs : shape.streamsResponses <;> simp only [new, hs] at h <;> cases h
    exact .nil

section Inflow

variable {told received : List ResponsePart} {got got' : List In}

theorem Inflow.unheard (h : Inflow s c told received got) (live : Live c') (unheard : Unheard c c' got') :
    Inflow s c' told received (got ++ got') := by
  obtain ⟨first, sub, arrives, all⟩ := h.passed
  refine ⟨live, ⟨first, sub, arrives, fun alive => all (unheard.alive alive)⟩, unheard.known ▸ h.known,
    unheard.answered ▸ h.answered, fun ch' hc => ?_⟩
  obtain ⟨ch, before, queue⟩ := unheard.queue ch' hc
  rw [List.append_assoc, ← queue]
  exact h.queue ch before

theorem Inflow.ignored (h : Inflow s c told received got) (gone : ¬ Going c) (p : ResponsePart) :
    Inflow s c (told ++ [p]) received got := by
  obtain ⟨first, sub, arrives, -⟩ := h.passed
  have dropped : ¬ c.alive = true := fun alive => gone ⟨alive, h.live.finished⟩
  exact ⟨h.live, ⟨first, sub.trans (List.prefix_append _ _), arrives, fun alive => absurd alive dropped⟩, h.known,
    h.answered, h.queue⟩

theorem Inflow.taken (h : Inflow s c told received got) {p q : ResponsePart} {x : σ} {es : List (Effect W)}
    {initial : Promise (Except Status Metadata) W} {responses : Responses In W} (going : Going c)
    (admitted : c.admitted? s p = some q) (takes : Takes s c q (c.beyond s p) initial responses)
    (live : Live { c.beside x es with initial, responses }) :
    Inflow s { c.beside x es with initial, responses } (told ++ [p]) (received ++ [q]) got := by
  obtain ⟨first, -, arrives, all⟩ := h.passed
  obtain rfl := all going.1
  have passed : List.Forall₂ (Arrives s.pipeline) (first ++ [p]) (received ++ [q]) :=
    List.rel_append arrives (.cons (arrives_of_admitted? admitted) .nil)
  have more {k : PartKind} (mem : k ∈ received.map ResponsePart.kind) :
      k ∈ (received ++ [q]).map ResponsePart.kind := by
    rw [List.map_append]
    exact List.mem_append_left _ mem
  cases takes with
  | metadata m x unknown =>
    refine ⟨live, ⟨_, List.prefix_rfl, passed, fun _ => rfl⟩, ?_, fun answered => more (h.answered answered),
      fun ch hc => ?_⟩
    · simp [Promise.isCompleted, ResponsePart.kind]
    · have nothing : payloads [ResponsePart.metadata m] = [] := rfl
      rw [payloads_append, nothing, List.append_nil]
      exact h.queue ch hc
  | single data o x m promise known decoded hr unanswered =>
    refine ⟨live, ⟨_, List.prefix_rfl, passed, fun _ => rfl⟩, ⟨fun _ => more (h.known.mp known), fun _ => known⟩,
      fun _ => ?_, fun ch hc => ?_⟩
    · simp [ResponsePart.kind]
    · cases hc
  | stream data o x m ch known decoded hr =>
    refine ⟨live, ⟨_, List.prefix_rfl, passed, fun _ => rfl⟩, ⟨fun _ => more (h.known.mp known), fun _ => known⟩,
      fun answered => ?_, fun ch' hc => ?_⟩
    · cases answered
    cases hc
    rw [payloads_append, (Channel.push_of_live (h.live.responses ch hr) m).1, ← List.append_assoc]
    exact List.rel_append (h.queue ch hr) (.cons ⟨_, decoded⟩ .nil)

theorem Inflow.route (h : Inflow s c told received got) (p : ResponsePart) (live : Live (c.route s p)) :
    Inflow s (c.route s p) (told ++ [p])
      (received ++ if !c.alive || c.finished then [] else (c.admitted? s p).toList) got := by
  have routing := routing s c p
  generalize c.route s p = c' at routing live ⊢
  generalize c.violation? s p = reason at routing
  have unfinished := live.finished
  cases routing with
  | ignored gone =>
    have shut : (!c.alive || c.finished) = true := by
      cases alive : c.alive <;> simp_all [Going]
    rw [if_pos shut, List.append_nil]
    exact h.ignored gone p
  | rejected r x es => simp [finished_terminate] at unfinished
  | violated reason x es => simp [violation, finished_terminate] at unfinished
  | undecodable data o r x es => simp [finished_terminate] at unfinished
  | taken q x es initial responses hushed going admitted takes =>
    rw [if_neg (by simp [going.1, going.2]), admitted]
    exact h.taken going admitted takes live
  | closed status trailers x es => simp [finished_complete] at unfinished

end Inflow

/-! ## every run -/

section Runs

variable [DecidableEq W]

theorem undecided_append (s : Setup σ Out In) (c : Call σ Out In W) (acts more : List (Act Out W)) :
    Undecided s c (acts ++ more) ↔ Undecided s c acts ∧ Undecided s (run (step s) c acts) more := by
  induction acts generalizing c with
  | nil => simp [Undecided]
  | cons a acts ih => simp [Undecided, ih, and_assoc]

/-- Every run goes on, or has a first ending. -/
theorem undecided_or_ends (s : Setup σ Out In) (c : Call σ Out In W) (acts : List (Act Out W)) :
    Undecided s c acts ∨ ∃ early a late e, acts = early ++ a :: late ∧ Undecided s c early ∧
      (run (step s) c early).ending? s a = some e := by
  induction acts generalizing c with
  | nil => exact .inl trivial
  | cons a acts ih =>
    cases ending : c.ending? s a with
    | some e => exact .inr ⟨[], a, acts, e, rfl, trivial, ending⟩
    | none =>
      rcases ih (c.step s a) with undecided | ⟨early, b, late, e, split, undecided, ends⟩
      · exact .inl ⟨ending, undecided⟩
      · exact .inr ⟨a :: early, b, late, e, by rw [split, List.cons_append], ⟨ending, undecided⟩, ends⟩

theorem Inflow.step {told received : List ResponsePart} {got : List In} (h : Inflow s c told received got)
    {a : Act Out W} (on : c.ending? s a = none) :
    Inflow s (c.step s a) (told ++ routedParts [a]) (received ++ c.receives s a) (got ++ c.gets a) := by
  have live : Live (c.step s a) := by
    have goes := goes_step (s := s) h.live a
    rwa [on] at goes
  by_cases part : ∃ p, a = .routed (.part p)
  · obtain ⟨p, rfl⟩ := part
    have inflow := h.route p live
    rwa [← List.append_nil got] at inflow
  · have unheard := unheard_step h.live (fun p e => part ⟨p, e⟩) on
    have nothing : routedParts [a] = [] ∧ c.receives s a = [] := by
      cases a with
      | routed r =>
        cases r with
        | part p => exact absurd ⟨p, rfl⟩ part
        | _ => exact ⟨rfl, rfl⟩
      | _ => exact ⟨rfl, rfl⟩
    rw [nothing.1, nothing.2, List.append_nil, List.append_nil]
    exact h.unheard live unheard

/-- **The inflow of every call that has not ended.** -/
theorem inflow_of_undecided (s : Setup σ Out In) (shape : Shape) (runtime : Bool) (x : σ) {acts : List (Act Out W)}
    (undecided : Undecided s (new s shape runtime x) acts) :
    Inflow s (run (step s) (new s shape runtime x) acts) (routedParts acts) ((new s shape runtime x).received s acts)
      ((new s shape runtime x).read s acts) := by
  induction acts using List.reverseRecOn with
  | nil => exact inflow_new s shape runtime x
  | append_singleton acts a ih =>
    obtain ⟨before, on, -⟩ := (undecided_append s _ acts [a]).mp undecided
    unfold received read at ih ⊢
    rw [gather_snoc, gather_snoc, run_append, routedParts_append]
    exact (ih before).step on

theorem undecided_of_going (s : Setup σ Out In) (shape : Shape) (runtime : Bool) (x : σ) {acts : List (Act Out W)}
    (going : Going (run (step s) (new s shape runtime x) acts)) : Undecided s (new s shape runtime x) acts := by
  rcases undecided_or_ends s (new s shape runtime x) acts with undecided | ⟨early, a, late, e, rfl, undecided, ends⟩
  · exact undecided
  · have goes := goes_step (s := s) (live_after (live_new s shape runtime x) undecided) a
    rw [ends] at goes
    have finished := (over_after (s := s) goes.past late).finished
    rw [run_append, run_cons] at going
    exact absurd finished (by simp [going.2])

end Runs

end Call

end CallLifecycle.Client
