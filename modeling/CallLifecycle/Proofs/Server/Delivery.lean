import CallLifecycle.Proofs.Server.Ledger

/-!
# The messages of a response

* `payloads_of_passes` — interceptors that leave messages alone send the messages that were said;
* `HandlerEnds` — a turn in which the call ends because its handler is done;
* `messages_of_accepted` — **in every run** the messages that are sent encode the first of those that the
  writer accepted, and all of them if the handler ended the call;
* `payloads_of_usurper` — that nothing else is turned into a message has to be asked for.
-/

namespace CallLifecycle.Server

theorem payload?_of_kind {p : ResponsePart} (h : p.kind ≠ .message) : p.payload? = none := by
  cases p with
  | message => exact absurd rfl h
  | _ => rfl

namespace Call

variable {σ Out In W : Type} {s : Setup σ Out In} {c c' : Call σ Out In W}

theorem payloads_of_emerges {l : Pipeline σ} (same : ∀ p q, Emerges l p q → q.payload? = p.payload?)
    {ps qs : List ResponsePart} (h : List.Forall₂ (Emerges l) ps qs) : payloads qs = payloads ps := by
  have each (ps : List ResponsePart) : payloads ps = (ps.map ResponsePart.payload?).filterMap id := by
    rw [List.filterMap_map]
    rfl
  rw [each, each, map_eq_of_forall₂ same h]

theorem payloads_of_passes {l : Pipeline σ} (passes : l.PassesMessages) (makes : l.MakesNoMessages)
    {ps qs : List ResponsePart} (h : List.Forall₂ (Emerges l) ps qs) : payloads qs = payloads ps := by
  refine payloads_of_emerges (fun p q emerges => ?_) h
  by_cases hp : p.kind = .message
  · rw [emerges.eq_of_message passes hp]
  · rw [payload?_of_kind hp, payload?_of_kind (emerges.not_message makes hp)]

theorem payloads_of_leaves {l : Pipeline σ} (leaves : l.RewritesNoResponses) {ps qs : List ResponsePart}
    (h : List.Forall₂ (Emerges l) ps qs) : payloads qs = payloads ps := by
  refine payloads_of_emerges (fun p q emerges => ?_) h
  rcases emerges.cases_of_leaves leaves with rfl | ⟨status, trailers, r, rfl, -, rfl⟩ <;> rfl

/-- The next turn ends the call because its handler is done: what is told is the end of the handler or of its
writer, and behind it the end is said. -/
def HandlerEnds (s : Setup σ Out In) (now : Instant) (c : Call σ Out In W) : Prop :=
  ∃ e rest, c.events = e :: rest ∧ e.isYielded = false ∧
    ∃ c', c.turn s now = some c' ∧ c.progress.outbound ≠ .ended ∧ c'.progress.outbound = .ended

/-! ## when the handler is done -/

/-- A call that said the end, and whose writer has ended. -/
structure IsOver (c : Call σ Out In W) : Prop where
  handler : c.progress.handler = .completed
  sound : c.writer.Sound
  writer : c.writer.completion.isTerminated = true

theorem IsOver.step [DecidableEq W] (h : IsOver c) (a : Act Out W) :
    IsOver (c.step s a) ∧ c.accepts a = [] ∧ (c.step s a).sent = c.sent := by
  have worked {added : List (Outbound Out)} (worked : Worked c (c.step s a) added) :
      IsOver (c.step s a) ∧ added = [] ∧ (c.step s a).sent = c.sent := by
    obtain ⟨es, rs, passes, -⟩ := worked.events
    obtain ⟨-, nothing, past⟩ := passes.past h.writer
    exact ⟨⟨worked.frame.progress ▸ h.handler, passes.sound, past⟩, nothing, worked.frame.sent_eq⟩
  cases stepped s h.sound a with
  | turned now ha turn => simp [Call.turn, Progress.isCompleted, h.handler] at turn
  | worked started w => exact worked w
  | waited nothing w events => exact ⟨(worked w).1, nothing, (worked w).2.2⟩
  | concluded nothing concluded =>
    exact ⟨⟨concluded.frame.progress ▸ h.handler, concluded.writer ▸ h.sound, concluded.writer ▸ h.writer⟩,
      nothing, concluded.frame.sent_eq⟩

theorem IsOver.after [DecidableEq W] (h : IsOver c) (acts : List (Act Out W)) :
    c.accepted s acts = [] ∧ (run (Call.step s) c acts).sent = c.sent := by
  induction acts generalizing c with
  | nil => exact ⟨rfl, rfl⟩
  | cons a acts ih =>
    obtain ⟨past, nothing, sent⟩ := h.step (s := s) a
    obtain ⟨nothing', sent'⟩ := ih past
    exact ⟨by rw [accepted, gather, nothing, List.nil_append]; exact nothing', sent'.trans sent⟩

/-- When the handler ends the call, all that was accepted was said, and the writer has ended. -/
theorem done_of_handlerEnds {now : Instant} {taken done : List (Outbound Out)} {said : List ResponsePart}
    (h : Ledger s c taken said done) (ends : HandlerEnds s now c) :
    done = taken ∧ ∃ c', c.turn s now = some c' ∧ IsOver c' ∧
      ∃ status trailers q, Emerges s.pipeline (.close status trailers) q ∧ c'.sent = c.sent ++ [q] := by
  obtain ⟨e, rest, next, news, c', turn, before, after⟩ := ends
  obtain ⟨live, tidy, sum⟩ := h.live_of_turn turn
  cases Call.turned live turn with
  | spoke batch rest' ps next' => cases next.symm.trans next'; cases news
  | noted e' rest' next' news' same =>
    rw [same] at after
    exact absurd after before
  | ended e' rest' next' news' drained closes =>
    rw [next'] at tidy
    have past := tidy.tail.told (.inl drained)
    have queued : c.queued = [] := by
      simp [Call.queued, next', elements_of_news news', tidy.tail.behind drained]
    refine ⟨by simp [sum, queued, h.sound.terminated past], c', turn, ⟨closes.handler,
      closes.writer.sound h.sound, closes.writer.past past⟩, ?_⟩
    obtain ⟨status, trailers, qs, sent, emerges⟩ := closes.sent
    obtain ⟨q, others, emerged, nothing, rfl⟩ := List.forall₂_cons_left_iff.mp emerges
    obtain rfl := List.forall₂_nil_left_iff.mp nothing
    exact ⟨status, trailers, q, emerged, sent⟩
  | handled idle => simp [idle] at next
  | started starts =>
    rw [starts.outbound] at after
    exact absurd after before
  | closed ps n closes codes why => simp [why e rest next] at news
  | crashed cut crashes =>
    rw [crashes.outbound] at after
    exact absurd after before

/-! ## the messages of a run -/

theorem Ledger.done_prefix {taken done : List (Outbound Out)} {said : List ResponsePart}
    (h : Ledger s c taken said done) : done <+: taken := by
  cases h.standing with
  | live _ _ sum => simp [sum]
  | closed _ _ _ sub => exact sub
  | cut _ _ _ sub => exact sub

/-- When the handler ends the call, all that was accepted in the run was said before, and the end is sent behind it. -/
theorem whole_of_handlerEnds [DecidableEq W] (s : Setup σ Out In) (x : σ) {early : List (Act Out W)} {now : Instant}
    (ends : HandlerEnds s now (run (step s) (new s x) early)) (late : List (Act Out W)) :
    (∃ said, List.Forall₂ (Emerges s.pipeline) said (run (step s) (new s x) early).sent ∧
      List.Forall₂ s.codec.Encodes ((new s x).accepted s (early ++ .turn now :: late)) (payloads said)) ∧
    ∃ status trailers q, Emerges s.pipeline (.close status trailers) q ∧
      (run (step s) (new s x) (early ++ .turn now :: late)).sent = (run (step s) (new s x) early).sent ++ [q] := by
  obtain ⟨said, done, h⟩ := ledger_after s x early
  obtain ⟨rfl, c', turn, past, status, trailers, q, emerges, sent⟩ := done_of_handlerEnds h ends
  have step : (run (step s) (new s x) early).step s (.turn now) = c' := by simp [step, turn]
  obtain ⟨nothing, sent'⟩ := past.after (s := s) late
  have whole : (new s x).accepted s (early ++ .turn now :: late) = (new s x).accepted s early := by
    rw [accepted] at nothing ⊢
    rw [gather_append, gather, step, nothing]
    simp [accepts, accepted]
  refine ⟨⟨said, h.emerged, whole ▸ h.codes⟩, status, trailers, q, emerges, ?_⟩
  rw [run_append, run_cons, step, sent', sent]

/-- **The messages of every run.** The messages that are sent encode the first of those that the writer
accepted, in order. If the call ends because its handler is done, the end is sent behind all of them. -/
theorem messages_of_accepted [DecidableEq W] (s : Setup σ Out In) (passes : s.pipeline.PassesMessages)
    (makes : s.pipeline.MakesNoMessages) (x : σ) (acts : List (Act Out W)) :
    (∃ n, List.Forall₂ s.codec.Encodes (((new s x).accepted s acts).take n)
      (payloads (run (step s) (new s x) acts).sent)) ∧
    ∀ early now late, acts = early ++ .turn now :: late → HandlerEnds s now (run (step s) (new s x) early) →
      List.Forall₂ s.codec.Encodes ((new s x).accepted s acts)
        (payloads (run (step s) (new s x) early).sent) ∧
      ∃ status trailers q, Emerges s.pipeline (.close status trailers) q ∧
        (run (step s) (new s x) acts).sent = (run (step s) (new s x) early).sent ++ [q] := by
  refine ⟨?_, ?_⟩
  · obtain ⟨said, done, h⟩ := ledger_after s x acts
    refine ⟨done.length, ?_⟩
    rw [payloads_of_passes passes makes h.emerged, ← List.prefix_iff_eq_take.mp h.done_prefix]
    exact h.codes
  · rintro early now late rfl ends
    obtain ⟨⟨said, emerged, codes⟩, last⟩ := whole_of_handlerEnds s x ends late
    exact ⟨by rwa [payloads_of_passes passes makes emerged], last⟩

/-- A handler starts, writes a message and returns, and its writer is found to be drained. -/
def oneMessage : List (Act Bytes Nat) :=
  [.submit (.part (.metadata {})), .turn 0, .deed (.write ⟨[1], .inherit⟩), .turn 0,
   .deed (.returned none), .turn 0]

/-- A server that sends no headers of its handlers. -/
def bare : Setup Unit Bytes Bytes where
  config := {}
  codec := .bytes
  pipeline := [{ name := "bare", request := none, response := some fun p x =>
    ((if p.kind = .metadata then .metadata {} else p, none), x) }]
  delegate := .plain

theorem messages_of_bare :
    bare.pipeline.PassesMessages ∧ bare.pipeline.MakesNoMessages ∧
    HandlerEnds bare 0 (run (step bare) (new bare ()) oneMessage) ∧
    List.Forall₂ bare.codec.Encodes ((new bare ()).accepted bare (oneMessage ++ [.turn 0, .conclude]))
      (payloads (run (step bare) (new bare ()) oneMessage).sent) := by
  have passes : bare.pipeline.PassesMessages := by
    intro i hi look hl p x hp
    obtain rfl := List.mem_singleton.mp hi
    obtain rfl := Option.some.inj hl
    simp [hp]
  have makes : bare.pipeline.MakesNoMessages := by
    intro i hi look hl p x hp _
    obtain rfl := List.mem_singleton.mp hi
    obtain rfl := Option.some.inj hl
    cases p <;> simp_all [ResponsePart.kind]
  have ends : HandlerEnds bare 0 (run (step bare) (new bare ()) oneMessage) :=
    ⟨.returned none, [], rfl, rfl, _, rfl, by decide, rfl⟩
  obtain ⟨-, whole⟩ := messages_of_accepted bare passes makes () (oneMessage ++ [.turn 0, .conclude])
  exact ⟨passes, makes, ends, (whole oneMessage 0 [.conclude] rfl ends).1⟩

/-! ## an interceptor that makes messages -/

/-- A server that sends a message in the place of the headers. -/
def usurper : Setup Unit Bytes Bytes where
  config := {}
  codec := .bytes
  pipeline := [{ name := "usurper", request := none, response := some fun p x =>
    ((if p.kind = .metadata then .message [7] {} else p, none), x) }]
  delegate := .plain

/-- Interceptors that leave messages alone may send messages that nobody wrote. -/
theorem payloads_of_usurper :
    usurper.pipeline.PassesMessages ∧
    (new usurper ()).accepted usurper oneMessage = [⟨[1], .inherit⟩] ∧
    payloads (run (step usurper) (new usurper ()) oneMessage).sent = [[7], [1]] ∧
    ¬ ∃ n, List.Forall₂ usurper.codec.Encodes (((new usurper ()).accepted usurper oneMessage).take n)
      (payloads (run (step usurper) (new usurper ()) oneMessage).sent) := by
  refine ⟨?_, rfl, rfl, ?_⟩
  · intro i hi look hl p x hp
    obtain rfl := List.mem_singleton.mp hi
    obtain rfl := Option.some.inj hl
    simp [hp]
  · rintro ⟨n, h⟩
    have length := h.length_eq
    have accepted : (new usurper ()).accepted usurper oneMessage = [⟨[1], .inherit⟩] := rfl
    have sent : payloads (run (step usurper) (new usurper ()) oneMessage).sent = [[7], [1]] := rfl
    rw [accepted, sent, List.length_take] at length
    simp only [List.length_cons, List.length_nil] at length
    omega

end Call

end CallLifecycle.Server
