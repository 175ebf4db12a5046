import CallLifecycle.Proofs.Client.Course
import CallLifecycle.Proofs.Server.Speech

/-!
# What becomes of a response part

* `Hushed` — effects that neither ask anything of the stream nor ask a task to cancel the request writer;
* `Call.violation?` — how a response part breaks the order of the parts, as its call stands;
* `Routing`, `routing` — all that becomes of a response part, and which parts break the order;
* `calls_terminate`, `calls_complete` — a local end cancels the stream that its call holds, and no end sends anything.
-/

namespace CallLifecycle.Client

def Effect.part? {W : Type} : Effect W → Option RequestPart
  | .sent p _ => some p
  | _ => none

def StreamCall.part? : StreamCall → Option RequestPart
  | .send p => some p
  | .cancel => none

/-- Effects that neither ask anything of the stream nor ask a task to cancel the request writer. -/
structure Hushed {W : Type} (es : List (Effect W)) : Prop where
  calls : es.filterMap Effect.call? = []
  unstopped : es.any Effect.isStopping = false

section Hushed

variable {W : Type}

theorem part?_eq (e : Effect W) : e.part? = e.call?.bind StreamCall.part? := by
  cases e <;> rfl

theorem Hushed.sent {es : List (Effect W)} (h : Hushed es) : es.filterMap Effect.part? = [] := by
  have calls := h.calls
  simp only [List.filterMap_eq_nil_iff] at calls ⊢
  intro e mem
  rw [part?_eq, calls e mem, Option.bind_none]

@[simp] theorem hushed_nil : Hushed ([] : List (Effect W)) := ⟨rfl, rfl⟩

@[simp] theorem hushed_append {es fs : List (Effect W)} : Hushed (es ++ fs) ↔ Hushed es ∧ Hushed fs := by
  refine ⟨fun ⟨calls, unstopped⟩ => ?_, fun ⟨h, k⟩ => ⟨?_, ?_⟩⟩
  · rw [List.filterMap_append, List.append_eq_nil_iff] at calls
    rw [List.any_append, Bool.or_eq_false_iff] at unstopped
    exact ⟨⟨calls.1, unstopped.1⟩, ⟨calls.2, unstopped.2⟩⟩
  · rw [List.filterMap_append, h.calls, k.calls, List.append_nil]
  · rw [List.any_append, h.unstopped, k.unstopped, Bool.or_false]

@[simp] theorem hushed_woke (ws : List W) : Hushed (ws.map Effect.woke) :=
  ⟨Call.calls_woke ws, by simp [Effect.isStopping, Function.comp_def]⟩

@[simp] theorem hushed_visited (vs : List Visit) : Hushed (vs.map (Effect.visited : Visit → Effect W)) :=
  ⟨Call.calls_visited vs, by simp [Effect.isStopping, Function.comp_def]⟩

end Hushed

namespace Call

variable {σ Out In W : Type} {s : Setup σ Out In} {c c' : Call σ Out In W}

theorem sent_eq (c : Call σ Out In W) : c.sent = c.trace.filterMap Effect.part? := by
  rw [sent]
  congr 1

/-- A call that somebody holds and that has not ended. -/
def Going (c : Call σ Out In W) : Prop := c.alive = true ∧ c.finished = false

theorem sent_eq_calls (c : Call σ Out In W) : c.sent = c.calls.filterMap StreamCall.part? := by
  have each : (Effect.part? : Effect W → Option RequestPart) = fun e => e.call?.bind StreamCall.part? :=
    funext part?_eq
  rw [sent_eq, calls, List.filterMap_filterMap, each]

/-! ## what the ends of a call ask of the stream -/

@[simp] theorem calls_emit_woke (c : Call σ Out In W) (ws : List W) : (c.emit (ws.map .woke)).calls = c.calls := by
  simp [calls, emit, Effect.call?]

theorem calls_settleResponses (c : Call σ Out In W) (single : Status) (stream : Terminal Status) :
    (c.settleResponses single stream).calls = c.calls := by
  unfold settleResponses
  cases c.responses <;> exact calls_emit_woke _ _

theorem calls_stopWriter (c : Call σ Out In W) (stop : Stop) : (c.stopWriter stop).calls = c.calls := by
  unfold stopWriter
  split
  · cases stop with
    | inline => exact calls_emit_woke _ _
    | deferred =>
      simp only
      split
      · simp [calls, emit, Effect.call?]
      · rfl
  · rfl

theorem calls_finish (c : Call σ Out In W) (status : Status) (stop : Stop) :
    (c.finish status stop).calls = c.calls :=
  ((calls_emit_woke _ _).trans (calls_emit_woke _ _)).trans (calls_stopWriter c stop)

theorem calls_detach (c : Call σ Out In W) (es : List (Effect W)) :
    (c.detach es).calls = c.calls ++ if c.attached then es.filterMap Effect.call? else [] := by
  unfold detach
  split <;> simp [calls, emit]

theorem calls_cutOff (c : Call σ Out In W) (status : Status) :
    (c.cutOff status).calls = c.calls ++ if c.attached then [.cancel] else [] := by
  have settled := calls_settleResponses
    (((({ c with finished := true }.detach [.cancelled, .released]).settleInitial (.error status)).1).settleTrailing
      (.error status)) status (.failed status)
  have detached := calls_detach { c with finished := true } [.cancelled, .released]
  exact (calls_emit_woke _ _).trans (settled.trans ((calls_emit_woke _ _).trans ((calls_emit_woke _ _).trans detached)))

theorem calls_closed (c : Call σ Out In W) (status : Status) (trailers : Metadata) :
    (c.closed status trailers).calls = c.calls := by
  have detached : ({ c with finished := true }.detach [.released]).calls = c.calls := by
    rw [calls_detach]
    split <;> exact List.append_nil _
  unfold closed
  split <;>
  · rw [calls_settleResponses]
    exact (calls_emit_woke _ _).trans ((calls_emit_woke _ _).trans detached)

theorem calls_terminate (c : Call σ Out In W) (status : Status) (stop : Stop) :
    (c.terminate status stop).calls = c.calls ++ if !c.finished && c.attached then [.cancel] else [] := by
  cases going : c.finished with
  | false => rw [terminate_eq going, calls_finish, calls_cutOff, Bool.not_false, Bool.true_and]
  | true => simp [terminate_of_finished going]

theorem calls_complete (c : Call σ Out In W) (status : Status) (trailers : Metadata) :
    (c.complete status trailers).calls = c.calls := by
  by_cases going : c.finished = false
  · rw [complete_eq going, calls_finish, calls_closed]
  · rw [complete, if_pos (by simpa using going)]

@[simp] theorem sent_terminate (c : Call σ Out In W) (status : Status) (stop : Stop) :
    (c.terminate status stop).sent = c.sent := by
  rw [sent_eq_calls, sent_eq_calls, calls_terminate]
  split <;> simp [StreamCall.part?]

@[simp] theorem sent_complete (c : Call σ Out In W) (status : Status) (trailers : Metadata) :
    (c.complete status trailers).sent = c.sent := by
  rw [sent_eq_calls, sent_eq_calls, calls_complete]

theorem finished_complete (c : Call σ Out In W) (status : Status) (trailers : Metadata) :
    (c.complete status trailers).finished = true := by
  by_cases going : c.finished = false
  · rw [complete_eq_settledBy going, settledBy]
  · rw [complete, if_pos (by simpa using going)]
    simpa using going

/-! ## response parts -/

/-- A response part as it comes out of the interceptors, unless they reject it. -/
def admitted? (s : Setup σ Out In) (c : Call σ Out In W) (p : ResponsePart) : Option ResponsePart :=
  match (s.pipeline.response p c.surroundings).1.rejection with
  | some _ => none
  | none => some (s.pipeline.response p c.surroundings).1.part

theorem arrives_of_admitted? {p q : ResponsePart} (h : c.admitted? s p = some q) : Arrives s.pipeline p q := by
  unfold admitted? at h
  split at h
  · cases h
  · rename_i passed
    exact ⟨c.surroundings, passed, Option.some.inj h⟩

/-- The surroundings behind the interceptors that looked at a response part. -/
def beyond (s : Setup σ Out In) (c : Call σ Out In W) (p : ResponsePart) : σ :=
  (s.pipeline.response p c.surroundings).2

/-- How a response part breaks the order of the parts, as the call stands that it comes to. -/
def violation? (s : Setup σ Out In) (c : Call σ Out In W) (p : ResponsePart) : Option String :=
  if !c.alive || c.finished then none
  else
    match c.admitted? s p with
    | some (.metadata _) =>
      if c.initial.isCompleted then some "response metadata received twice" else none
    | some (.message data _) =>
      if !c.initial.isCompleted then some "response message received before metadata"
      else
        match (s.codec.decode data (c.beyond s p)).1 with
        | .error _ => none
        | .ok _ =>
          if c.hasResponse then some "more than one response message for a single response call" else none
    | _ => none

/-- The ways in which a response part breaks the order of the parts. -/
theorem violation?_cases {p : ResponsePart} {reason : String} (h : c.violation? s p = some reason) :
    Going c ∧ ∃ q, c.admitted? s p = some q ∧
      (q.kind = .metadata ∧ c.initial.isCompleted = true ∨
        q.kind = .message ∧ c.initial.isCompleted = false ∨
        q.kind = .message ∧ c.hasResponse = true ∧
          reason = "more than one response message for a single response call") := by
  unfold violation? at h
  split at h
  · cases h
  rename_i open'
  refine ⟨by simpa [Going] using open', ?_⟩
  split at h
  · rename_i m admitted
    split at h
    · exact ⟨_, admitted, .inl ⟨rfl, ‹_›⟩⟩
    · cases h
  · rename_i data o admitted
    split at h
    · rename_i unknown
      exact ⟨_, admitted, .inr (.inl ⟨rfl, by simpa using unknown⟩)⟩
    · split at h
      · cases h
      · split at h
        · exact ⟨_, admitted, .inr (.inr ⟨rfl, ‹_›, (Option.some.inj h).symm⟩)⟩
        · cases h
  · cases h

/-- What a call takes of a response part that comes in order: the metadata, or a message as it is decoded. -/
inductive Takes (s : Setup σ Out In) (c : Call σ Out In W) :
    ResponsePart → σ → Promise (Except Status Metadata) W → Responses In W → Prop
  | metadata (m : Metadata) (x : σ) (unknown : c.initial.isCompleted = false) :
      Takes s c (.metadata m) x { slot := .ready (.ok m) } c.responses
  | single (data : Bytes) (o : SendOptions) (x : σ) (m : In) (p : Promise (Except Status In) W)
      (known : c.initial.isCompleted = true) (decoded : (s.codec.decode data x).1 = .ok m)
      (responses : c.responses = .single p) (unanswered : p.isCompleted = false) :
      Takes s c (.message data o) x c.initial (.single { slot := .ready (.ok m) })
  | stream (data : Bytes) (o : SendOptions) (x : σ) (m : In) (ch : Channel In Status W)
      (known : c.initial.isCompleted = true) (decoded : (s.codec.decode data x).1 = .ok m)
      (responses : c.responses = .stream ch) :
      Takes s c (.message data o) x c.initial (.stream (ch.push m).1)

/-- **All that becomes of a response part.** It breaks the order of the parts just where the call is ended for it. -/
inductive Routing (s : Setup σ Out In) (c : Call σ Out In W) (p : ResponsePart) :
    Option String → Call σ Out In W → Prop
  /-- Nobody holds the call, or it has ended. -/
  | ignored (gone : ¬ Going c) : Routing s c p none c
  | rejected (r : Status) (x : σ) (es : List (Effect W)) (hushed : Hushed es) (going : Going c)
      (rejection : (s.pipeline.response p c.surroundings).1.rejection = some r) :
      Routing s c p none ((c.beside x es).terminate r .inline)
  | violated (reason : String) (x : σ) (es : List (Effect W)) (hushed : Hushed es) (going : Going c) :
      Routing s c p (some reason) ((c.beside x es).violation reason)
  | undecodable (data : Bytes) (o : SendOptions) (r : Status) (x : σ) (es : List (Effect W)) (hushed : Hushed es)
      (going : Going c) (admitted : c.admitted? s p = some (.message data o))
      (fails : (s.codec.decode data (c.beyond s p)).1 = .error r) :
      Routing s c p none ((c.beside x es).terminate r .inline)
  /-- It is taken. -/
  | taken (q : ResponsePart) (x : σ) (es : List (Effect W)) (initial : Promise (Except Status Metadata) W)
      (responses : Responses In W) (hushed : Hushed es) (going : Going c) (admitted : c.admitted? s p = some q)
      (takes : Takes s c q (c.beyond s p) initial responses) :
      Routing s c p none { c.beside x es with initial, responses }
  | closed (status : Status) (trailers : Metadata) (x : σ) (es : List (Effect W)) (hushed : Hushed es)
      (going : Going c) (admitted : c.admitted? s p = some (.close status trailers)) :
      Routing s c p none ((c.beside x es).complete status trailers)

theorem routing_message {p : ResponsePart} {data : Bytes} {o : SendOptions} (going : Going c)
    (admitted : c.admitted? s p = some (.message data o)) {es : List (Effect W)} (hushed : Hushed es) :
    Routing s c p (c.violation? s p) ((c.beside (c.beyond s p) es).onMessage s data) := by
  have open' : ¬ (!c.alive || c.finished) = true := by simp [going.1, going.2]
  unfold violation? onMessage
  simp only [if_neg open', admitted]
  by_cases known : c.initial.isCompleted = true
  · have late : ¬ (!c.initial.isCompleted) = true := by simp [known]
    have late' : ¬ (!(c.beside (c.beyond s p) es).initial.isCompleted) = true := late
    rw [if_neg late, if_neg late']
    simp only [beside]
    rcases hd : s.codec.decode data (c.beyond s p) with ⟨status | m, x⟩
    · simp only
      exact .undecodable data o status x es hushed going admitted (by rw [hd])
    · have decoded : (s.codec.decode data (c.beyond s p)).1 = .ok m := by rw [hd]
      simp only
      cases hr : c.responses with
      | single promise =>
        simp only [hr, hasResponse]
        cases answered : promise.isCompleted
        · simp only [Promise.complete_of_pending (p := promise) (by simp [answered]), if_true, Bool.false_eq_true,
            if_false]
          have taken := Takes.single (s := s) data o (c.beyond s p) m promise known decoded hr answered
          have routing := Routing.taken (.message data o) x (es ++ promise.waiters.map .woke) c.initial _
            (by simp [hushed])
            going admitted taken
          simpa [emit, beside] using routing
        · simp only [Promise.complete_of_completed answered, if_true, Bool.false_eq_true, if_false]
          have routing : Routing s c p _ _ :=
            .violated "more than one response message for a single response call" x es hushed going
          simpa [emit, beside, hr] using routing
      | stream ch =>
        simp only [hr, hasResponse, Bool.false_eq_true, if_false]
        have taken := Takes.stream (s := s) data o (c.beyond s p) m ch known decoded hr
        have routing := Routing.taken (.message data o) x (es ++ (ch.push m).2.2.map .woke) c.initial _
          (by simp [hushed])
          going admitted taken
        simpa [emit, beside] using routing
  · have early : (!c.initial.isCompleted) = true := by simpa using known
    have early' : (!(c.beside (c.beyond s p) es).initial.isCompleted) = true := early
    rw [if_pos early, if_pos early']
    exact .violated _ _ es hushed going

theorem routing (s : Setup σ Out In) (c : Call σ Out In W) (p : ResponsePart) :
    Routing s c p (c.violation? s p) (c.route s p) := by
  by_cases going : Going c
  · have open' : ¬ (!c.alive || c.finished) = true := by simp [going.1, going.2]
    rcases hp : s.pipeline.response p c.surroundings with ⟨⟨q, rejection, visits⟩, y⟩
    have hushed := hushed_visited (W := W) visits
    have beyond : c.beyond s p = y := by rw [Call.beyond, hp]
    unfold route
    simp only [if_neg open', hp]
    cases rejection with
    | some r =>
      have none : c.violation? s p = none := by simp [violation?, admitted?, hp]
      rw [none]
      exact .rejected r y _ hushed going (by rw [hp])
    | none =>
      have admitted : c.admitted? s p = some q := by simp [admitted?, hp]
      cases q with
      | metadata m =>
        unfold violation?
        simp only [if_neg open', admitted]
        by_cases known : c.initial.isCompleted = true
        · have routing : Routing s c p _ _ := .violated "response metadata received twice" y _ hushed going
          simpa [settleInitial, emit, beside, Promise.complete_of_completed known, known] using routing
        · have taken := Takes.metadata (s := s) m (c.beyond s p) (by simpa using known)
          have routing := Routing.taken (.metadata m) y (visits.map .visited ++ c.initial.waiters.map .woke) _ _
            (by simp) going admitted taken
          simpa [settleInitial, emit, beside, Promise.complete_of_pending known, known] using routing
      | message data o =>
        have routing := routing_message going admitted hushed
        rwa [beyond] at routing
      | close status trailers =>
        have none : c.violation? s p = none := by simp [violation?, admitted]
        rw [none]
        exact .closed status trailers y _ hushed going admitted
  · have shut : (!c.alive || c.finished) = true := by
      cases alive : c.alive <;> simp_all [Going]
    have none : c.violation? s p = none := by simp only [violation?, if_pos shut]
    have same : c.route s p = c := by rw [route, if_pos shut]
    rw [none, same]
    exact .ignored going

end Call

end CallLifecycle.Client
