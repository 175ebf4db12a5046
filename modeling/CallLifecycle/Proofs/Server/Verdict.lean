import CallLifecycle.Proofs.Server.Delivery
import CallLifecycle.Proofs.Server.Rest

/-!
# The verdict on a server call

* `Cause`, `EndsFor` — why a response ends, and the turn in which it does;
* `Cause.tell`, `isOk_tell` — what is told of a cause: it is a success only if the handler returned well;
* `tells_of_endsFor`, `Advance.endsFor` — a turn with a cause tells it, and a turn that sends an end has a cause;
* `Judged` — the end of a response is what was told of its cause, unless the interceptors rejected it;
* `success_of_sent`, `success_of_returned` — a response that tells a success holds all messages that the writer
  accepted, and a call in which nothing fails ends with one;
* `verdict_of_run` — **in every run** each cause ends the response, each end has a cause, and a call in which nothing
  fails ends with a success.
-/

namespace CallLifecycle.Server

theorem remapOk_not_ok (origin : String) (status : Status) : (remapOk origin status).isOk = false := by
  unfold remapOk
  split
  · rfl
  · rename_i other
    simpa using other

/-! ## causes -/

/-- Why a response ends: its handler ended, and all its messages were sent, or the call failed. -/
inductive Cause where
  | returned (outcome : Option Failure)
  | failed (e : Failure)

def Cause.tell {σ Out In : Type} (s : Setup σ Out In) (x : σ) : Cause → Status × Metadata
  | .returned outcome => (Call.tellReturn s x outcome).1
  | .failed e => (remapOk "call" (s.delegate.library e x).1.1, (s.delegate.library e x).1.2)

theorem Cause.isOk_tell {σ Out In : Type} (s : Setup σ Out In) (x : σ) (cause : Cause) :
    (cause.tell s x).1.isOk = true ↔ cause = .returned none := by
  cases cause with
  | returned outcome =>
    cases outcome with
    | none => exact iff_of_true rfl rfl
    | some e => exact iff_of_false (by simp [tell, Call.tellReturn, remapOk_not_ok]) (by simp)
  | failed e => exact iff_of_false (by simp [tell, remapOk_not_ok]) (by simp)

namespace Call

variable {σ Out In W : Type} {s : Setup σ Out In} {c c' : Call σ Out In W} {cause : Cause}

/-- The next turn ends the response for a cause. -/
inductive EndsFor (s : Setup σ Out In) (now : Instant) (c : Call σ Out In W) : Cause → Prop
  /-- Of the end of the handler and the end of its writer, the second is told. -/
  | returned (e : HandlerEvent Out) (rest : List (HandlerEvent Out)) (outcome : Option Failure) (going : Running c)
      (next : c.events = e :: rest) (news : e.isYielded = false) (drained : (c.drained || e.isDrained) = true)
      (reported : e.outcome?.or c.outcome = some outcome) : EndsFor s now c (.returned outcome)
  | failed (e : Failure) (going : Running c) (fails : Fails s now c e) : EndsFor s now c (.failed e)

theorem EndsFor.going {now : Instant} (h : EndsFor s now c cause) : Running c := by
  cases h <;> assumption

/-- A turn says the end, behind all else that it says, and tells a cause by it. -/
structure Tells (s : Setup σ Out In) (cause : Cause) (c c' : Call σ Out In W) : Prop where
  ended : c'.progress.outbound = .ended
  sent : ∃ d x q, Tried c d ∧ c'.sent = d.sent ++ [q] ∧
    Emerges s.pipeline (.close (cause.tell s x).1 (d.closing (cause.tell s x).2)) q

theorem Concludes.tells {outcome : Option Failure} {rest : List (HandlerEvent Out)}
    (h : Concludes s outcome { c with events := rest, drained := true, outcome := some outcome } c') :
    Tells s (.returned outcome) c c' := by
  obtain ⟨q, sent, emerges⟩ := h.sent
  exact ⟨by rw [h.same], c, c.surroundings, q, tried_refl c, sent, emerges⟩

theorem GivenUp.tells {d : Call σ Out In W} {e : Failure} (h : GivenUp s e d c') (tried : Tried c d) :
    Tells s (.failed e) c c' := by
  obtain ⟨x, q, sent, emerges⟩ := h.sent
  exact ⟨by rw [h.same], d, x, q, tried, sent, emerges⟩

/-- A turn with a cause tells it. -/
theorem tells_of_endsFor (h : Live c) {now : Instant} (ends : EndsFor s now c cause) :
    ∃ c', c.turn s now = some c' ∧ Tells s cause c c' := by
  cases ends with
  | returned e rest outcome going next news drained reported =>
    have turn : c.turn s now = some ({ c with events := rest }.onEvent s e) := turn_of_events h now next
    rcases onEvent_cases (s := s) (c := { c with events := rest }) ⟨h.attached, h.outbound⟩ news with
      ⟨-, waits⟩ | ⟨outcome', -, reported', concludes⟩
    · cases (waits drained).symm.trans reported
    · obtain rfl := Option.some.inj (reported'.symm.trans reported)
      exact ⟨_, turn, concludes.tells (c := c)⟩
  | failed e going fails =>
    obtain ⟨c', d, turn, tried, givenUp⟩ := givenUp_of_fails h fails
    exact ⟨c', turn, givenUp.tells tried⟩

/-- A turn that says the end has a cause, and tells it. -/
theorem Advance.endsFor (h : Live c) {now : Instant} (advance : Advance s now c c')
    (ended : c'.progress.outbound = .ended) : ∃ cause, EndsFor s now c cause ∧ Tells s cause c c' := by
  have going : Running c := ⟨h.ended, h.handler⟩
  have still (outbound : c'.progress.outbound = c.progress.outbound) : False := h.outbound (outbound ▸ ended)
  cases advance with
  | concluded e rest outcome next news drained reported concludes =>
    exact ⟨_, .returned e rest outcome going next news drained reported, concludes.tells⟩
  | gaveUp e d fails tried givenUp => exact ⟨_, .failed e going fails, givenUp.tells tried⟩
  | spoke batch rest ps next speaks => exact absurd ended speaks.goesOn
  | noted e rest next news same => exact (still (by rw [same])).elim
  | applied id setting rest idle orders same => exact (still (by rw [same])).elim
  | started p m rest deadline vs takes idle same => exact (still (by rw [same])).elim
  | cutOff p m rest takes cut crashes => exact (still crashes.outbound).elim
  | delivered p data m rest x es takes receiving decoded silent same => exact (still (by rw [same])).elim
  | closed p rest es takes receiving silent same => exact (still (by rw [same])).elim
  | writable b rest idle orders inbox same =>
    refine (still ?_).elim
    rw [same]
    split
    · rw [withWriter_eq]
    · rfl
  | noticed idle orders inbox handles unnoticed whole same => exact (still (by rw [same])).elim

/-! ## ends -/

/-- The end of a response, with its status and trailers: as it was told of its cause, or as the interceptors replaced
it. -/
inductive Judged (s : Setup σ Out In) (c : Call σ Out In W) (cause : Cause) : Status → Metadata → Prop
  | passed (d : Call σ Out In W) (x : σ) (tried : Tried c d) :
      Judged s c cause (cause.tell s x).1 (d.closing (cause.tell s x).2)
  | rejected (d : Call σ Out In W) (x : σ) (r : Status) (tried : Tried c d)
      (rejects : s.pipeline.RejectsEnd (cause.tell s x).1 (d.closing (cause.tell s x).2) r) : Judged s c cause r {}

/-- An end that was not rejected is a success only if its handler returned well. -/
theorem Judged.isOk {status : Status} {trailers : Metadata} (h : Judged s c cause status trailers) :
    (status.isOk = true ↔ cause = .returned none) ∨ ∃ told m, s.pipeline.RejectsEnd told m status := by
  cases h with
  | passed d x tried => exact .inl (cause.isOk_tell s x)
  | rejected d x r tried rejects => exact .inr ⟨_, _, rejects⟩

theorem Tells.judged (h : Tells s cause c c') (leaves : s.pipeline.RewritesNoResponses) :
    ∃ ps status trailers, c'.sent = ps ++ [.close status trailers] ∧ Judged s c cause status trailers := by
  obtain ⟨d, x, q, tried, sent, emerges⟩ := h.sent
  rcases emerges.cases_of_leaves leaves with rfl | ⟨status, trailers, r, told, rejects, rfl⟩
  · exact ⟨_, _, _, sent, .passed d x tried⟩
  · injection told with told told'
    subst told told'
    exact ⟨_, _, _, sent, .rejected d x r tried rejects⟩

section Runs

variable [DecidableEq W]

/-- **Every cause ends the response.** -/
theorem judged_of_endsFor (leaves : s.pipeline.RewritesNoResponses) (x : σ) {early : List (Act Out W)} {now : Instant}
    (ends : EndsFor s now (run (step s) (new s x) early) cause) (late : List (Act Out W)) :
    ∃ ps status trailers, (run (step s) (new s x) (early ++ .turn now :: late)).sent = ps ++ [.close status trailers] ∧
      Judged s (run (step s) (new s x) early) cause status trailers := by
  obtain ⟨said, done, ledger⟩ := ledger_after s x early
  obtain ⟨c', turn, tells⟩ := tells_of_endsFor (ledger.live_of_running ends.going) ends
  obtain ⟨ps, status, trailers, sent, judged⟩ := tells.judged leaves
  have mem : .close status trailers ∈ (run (step s) (new s x) (early ++ .turn now :: late)).sent := by
    have step : (run (step s) (new s x) early).step s (.turn now) = c' := by simp [step, turn]
    obtain ⟨said', done', ledger'⟩ := ledger_after s x (early ++ [.turn now])
    rw [run_append, run_cons, run_nil, step] at ledger'
    rw [run_append, run_cons, step]
    exact (sent_after ledger' late).subset (by simp [sent])
  -- The end was sent by this turn and is kept; nothing comes behind it, so it is the last part of the whole run.
  obtain ⟨_, _, whole⟩ := ledger_after s x (early ++ .turn now :: late)
  obtain ⟨⟨ps', last⟩, -⟩ := whole.close_last leaves.keepsResponseKinds mem
  exact ⟨ps', status, trailers, last, judged⟩

/-- **Every end has a cause.** -/
theorem exists_cause_of_sent (leaves : s.pipeline.RewritesNoResponses) (x : σ) {acts : List (Act Out W)}
    {status : Status} {trailers : Metadata} (mem : .close status trailers ∈ (run (step s) (new s x) acts).sent) :
    ∃ early now late cause, acts = early ++ .turn now :: late ∧ EndsFor s now (run (step s) (new s x) early) cause ∧
      Judged s (run (step s) (new s x) early) cause status trailers := by
  obtain ⟨early, a, late, rfl, unsent, sent⟩ := exists_step_of_sent x mem
  obtain ⟨said, done, ledger⟩ := ledger_after s x early
  obtain ⟨said', done', behind⟩ := ledger_step ledger a
  obtain ⟨⟨ps, whole⟩, ended⟩ := behind.close_last leaves.keepsResponseKinds sent
  by_cases turns : ∃ now, a = .turn now
  · obtain ⟨now, rfl⟩ := turns
    cases turn : (run (step s) (new s x) early).turn s now with
    | none => simp [step, turn, unsent] at sent
    | some c' =>
      obtain ⟨live, -⟩ := ledger.live_of_turn turn
      have same : (run (step s) (new s x) early).step s (.turn now) = c' := by simp [step, turn]
      rw [same] at ended whole
      obtain ⟨cause, ends, tells⟩ := (advance live turn).endsFor live ended
      obtain ⟨qs, status', trailers', last, judged⟩ := tells.judged leaves
      -- The end is the last part that the turn sent.
      have told := List.singleton_inj.mp (List.append_inj' (whole.symm.trans last) rfl).2
      injection told with told told'
      subst told told'
      exact ⟨early, now, late, cause, rfl, ends, judged⟩
  · have told := told_step s ledger.sound fun now e => turns ⟨now, e⟩
    rw [told.frame.sent_eq] at sent
    exact absurd sent unsent

omit [DecidableEq W] in
theorem EndsFor.reported {ends : List (Option Failure)} (course : Course c ends) {now : Instant}
    {outcome : Option Failure} (h : EndsFor s now c (.returned outcome)) : outcome ∈ ends := by
  cases h with
  | returned e rest outcome going next news drained reported =>
    refine course.outcome going outcome ?_
    rw [next]
    cases e <;> simp_all [HandlerEvent.outcome?]

/-- If a response ends with its handler, all that was accepted was sent. -/
theorem whole_of_endsFor (leaves : s.pipeline.RewritesNoResponses) (x : σ) {early : List (Act Out W)} {now : Instant}
    {outcome : Option Failure} (h : EndsFor s now (run (step s) (new s x) early) (.returned outcome))
    (late : List (Act Out W)) :
    List.Forall₂ s.codec.Encodes ((new s x).accepted s (early ++ .turn now :: late))
      (payloads (run (step s) (new s x) (early ++ .turn now :: late)).sent) := by
  obtain ⟨said, done, ledger⟩ := ledger_after s x early
  have live := ledger.live_of_running h.going
  obtain ⟨c', turn, tells⟩ := tells_of_endsFor live h
  have ends : HandlerEnds s now (run (step s) (new s x) early) := by
    cases h with
    | returned e rest outcome going next news drained reported =>
      exact ⟨e, rest, next, news, c', turn, live.outbound, tells.ended⟩
  obtain ⟨⟨said, emerged, codes⟩, status, trailers, q, last, sent⟩ := whole_of_handlerEnds s x ends late
  have nothing : payloads [q] = [] := payloads_of_leaves leaves (.cons last .nil)
  rwa [sent, payloads_append, nothing, List.append_nil, payloads_of_leaves leaves emerged]

/-- **A response that tells a success**, where the interceptors only watch, holds all messages that the writer accepted,
and its handler returned well. -/
theorem success_of_sent (watches : s.pipeline.OnlyWatches) (x : σ) {acts : List (Act Out W)} {status : Status}
    {trailers : Metadata} (mem : .close status trailers ∈ (run (step s) (new s x) acts).sent) (ok : status.isOk = true)
      :
    none ∈ (new s x).reported s acts ∧
    ∃ ps, (run (step s) (new s x) acts).sent = ps ++ [.close status trailers] ∧
      List.Forall₂ s.codec.Encodes ((new s x).accepted s acts) (payloads ps) := by
  have leaves := watches.rewritesNoResponses
  obtain ⟨said, done, ledger⟩ := ledger_after s x acts
  obtain ⟨⟨ps, whole⟩, -⟩ := ledger.close_last leaves.keepsResponseKinds mem
  obtain ⟨early, now, late, cause, rfl, ends, judged⟩ := exists_cause_of_sent leaves x mem
  obtain rfl : cause = .returned none := by
    rcases judged.isOk with only | ⟨told, m, rejects⟩
    · exact only.mp ok
    · exact absurd rejects (watches.not_rejectsEnd told m status)
  have codes := whole_of_endsFor leaves x ends late
  rw [whole, payloads_append, payloads_close, List.append_nil] at codes
  exact ⟨(gather_sub (step s) reports (new s x) early (.turn now :: late)).subset
    (ends.reported (course_after s x early)), ps, whole, codes⟩

/-- **A call in which nothing fails**, and whose handler returned well, ends with a success, once all that was told of
the handler is noted and its messages were taken by the transport. -/
theorem success_of_returned (leaves : s.pipeline.RewritesNoResponses) (x : σ) {acts : List (Act Out W)}
    (isOver : (new s x).reported s acts ≠ []) (well : ∀ outcome ∈ (new s x).reported s acts, outcome = none)
    (unfailed : ∀ early now late e, acts = early ++ .turn now :: late →
      ¬ EndsFor s now (run (step s) (new s x) early) (.failed e))
    (uncut : ¬ WasCutOff s (new s x) acts) (idle : (run (step s) (new s x) acts).events = [])
    (written : (run (step s) (new s x) acts).writer.pending = []) :
    ∃ status trailers, .close status trailers ∈ (run (step s) (new s x) acts).sent ∧
      (status = Status.of .ok "" ∨ ∃ m, s.pipeline.RejectsEnd (Status.of .ok "") m status) := by
  obtain ⟨said, done, ledger⟩ := ledger_after s x acts
  cases ledger.standing with
  | live live => exact absurd written ((course_after s x acts).waits live idle isOver).2
  | cut outbound ended crashed sub => exact absurd ((crashed_after_iff s x acts).mp crashed) uncut
  | closed outbound handler whole sub =>
    obtain ⟨-, ps, q, told, m, sent, emerges⟩ := ledger.endSent outbound
    obtain ⟨status, trailers, rfl⟩ : ∃ status trailers, q = .close status trailers := by
      rcases emerges.cases_of_leaves leaves with rfl | ⟨_, _, r, -, -, rfl⟩ <;> exact ⟨_, _, rfl⟩
    have mem : .close status trailers ∈ (run (step s) (new s x) acts).sent := by simp [sent]
    refine ⟨status, trailers, mem, ?_⟩
    obtain ⟨early, now, late, cause, rfl, ends, judged⟩ := exists_cause_of_sent leaves x mem
    cases cause with
    | failed e => exact absurd ends (unfailed early now late e rfl)
    | returned outcome =>
      have reported := ends.reported (course_after s x early)
      obtain rfl := well outcome ((gather_sub (step s) reports (new s x) early (.turn now :: late)).subset reported)
      cases judged with
      | passed d y tried => exact .inl rfl
      | rejected d y r tried rejects => exact .inr ⟨_, rejects⟩

/-- **The verdict on every run**, where the interceptors let response parts pass as they are or reject them.

Each cause to end the response ends it, and the end tells that cause: of a handler that failed what the delegate makes
of its error, of any other failure what the delegate makes of that, but never a success. Each end has such a cause; if
that is the end of the handler, then the handler said so, and all that was accepted was sent. Only an end that is itself
rejected is replaced by the rejection, whatever it says.

If the handler returns well and nothing fails, the end is sent and tells a success, once all that was told of the
handler is noted and its messages were taken by the transport. -/
theorem verdict_of_run (s : Setup σ Out In) (leaves : s.pipeline.RewritesNoResponses) (x : σ)
    (acts : List (Act Out W)) :
    let start : Call σ Out In W := new s x
    let c := run (step s) start acts
    (∀ early now late cause, acts = early ++ .turn now :: late → EndsFor s now (run (step s) start early) cause →
      ∃ ps status trailers, c.sent = ps ++ [.close status trailers] ∧
        Judged s (run (step s) start early) cause status trailers) ∧
    (∀ status trailers, .close status trailers ∈ c.sent →
      ∃ early now late cause, acts = early ++ .turn now :: late ∧ EndsFor s now (run (step s) start early) cause ∧
        Judged s (run (step s) start early) cause status trailers ∧
        ((status.isOk = true ↔ cause = .returned none) ∨ ∃ told m, s.pipeline.RejectsEnd told m status) ∧
        ∀ outcome, cause = .returned outcome → outcome ∈ start.reported s early ∧
          List.Forall₂ s.codec.Encodes (start.accepted s acts) (payloads c.sent)) ∧
    (start.reported s acts ≠ [] → (∀ outcome ∈ start.reported s acts, outcome = none) →
      (∀ early now late e, acts = early ++ .turn now :: late → ¬ EndsFor s now (run (step s) start early) (.failed e)) →
      ¬ WasCutOff s start acts → c.events = [] → c.writer.pending = [] →
      ∃ status trailers, .close status trailers ∈ c.sent ∧
        (status = Status.of .ok "" ∨ ∃ m, s.pipeline.RejectsEnd (Status.of .ok "") m status)) := by
  intro start c
  refine ⟨?_, ?_, fun isOver well unfailed uncut idle written =>
    success_of_returned leaves x isOver well unfailed uncut idle written⟩
  · rintro early now late cause rfl ends
    exact judged_of_endsFor leaves x ends late
  · intro status trailers mem
    obtain ⟨early, now, late, cause, rfl, ends, judged⟩ := exists_cause_of_sent leaves x mem
    refine ⟨early, now, late, cause, rfl, ends, judged, judged.isOk, ?_⟩
    rintro outcome rfl
    exact ⟨ends.reported (course_after s x early), whole_of_endsFor leaves x ends late⟩

end Runs

/-- A handler starts and returns well, and the loop runs to its end. -/
def oneReturn : List (Act Bytes Nat) :=
  [.submit (.part (.metadata {})), .turn 0, .deed (.returned none), .turn 0, .turn 0]

/-- The message of one call is rejected; the handler of another returns well. -/
theorem verdict_of_mute :
    let early := run (step mute) (new mute ()) (oneWrite.take 3)
    let c := run (step mute) (new mute ()) oneWrite
    let rejection : Failure := .status (Status.of .permissionDenied "no messages")
    mute.pipeline.RewritesNoResponses ∧ EndsFor mute 0 early (.failed rejection) ∧
    (∃ ps status trailers, c.sent = ps ++ [.close status trailers] ∧
      Judged mute early (.failed rejection) status trailers) ∧
    (∃ now before late cause, oneWrite = before ++ .turn now :: late ∧
      EndsFor mute now (run (step mute) (new mute ()) before) cause) ∧
    ∃ status trailers, .close status trailers ∈ (run (step plain) (new plain ()) oneReturn).sent ∧
      (status = Status.of .ok "" ∨ ∃ m, plain.pipeline.RejectsEnd (Status.of .ok "") m status) := by
  intro early c rejection
  have leaves : mute.pipeline.RewritesNoResponses := by
    intro i hi look hl p x _
    obtain rfl := List.mem_singleton.mp hi
    obtain rfl := Option.some.inj hl
    rfl
  have ends : EndsFor mute 0 early (.failed rejection) :=
    .failed rejection ⟨rfl, by decide⟩ (.unsaid [⟨[1], .inherit⟩] [] rejection rfl rfl)
  obtain ⟨told, caused, -⟩ := verdict_of_run mute leaves () oneWrite
  have sent : .close (Status.of .permissionDenied "no messages") {} ∈ c.sent := .tail _ (.head _)
  obtain ⟨before, now, late, cause, split, why, -⟩ := caused _ _ sent
  have silent : plain.pipeline.RewritesNoResponses := fun i mem => by cases mem
  obtain ⟨told', -, well⟩ := verdict_of_run plain silent () oneReturn
  refine ⟨leaves, ends, told _ 0 [.conclude] _ rfl ends, ⟨now, before, late, cause, split, why⟩,
    well (by decide) (by decide) ?_ ?_ rfl rfl⟩
  · intro early now late e split fails
    obtain ⟨ps, status, trailers, sent, judged⟩ := told' early now late _ split fails
    have alone : (run (step plain) (new plain ()) oneReturn).sent = [] ++ [.close (Status.of .ok "") {}] := rfl
    injection List.singleton_inj.mp (List.append_inj' (alone.symm.trans sent) rfl).2 with good
    subst good
    rcases judged.isOk with only | ⟨_, _, x, rejected⟩
    · cases only.mp rfl
    · cases rejected
  · exact fun cut => by cases (crashed_after_iff plain () oneReturn).mpr cut

/-- A server that rejects every end, with a success. -/
def lenient : Setup Unit Bytes Bytes where
  config := {}
  codec := .bytes
  pipeline := [{ name := "lenient", request := none, response := some fun p x =>
    ((p, if p.kind = .close then some (Status.of .ok "fine") else none), x) }]
  delegate := .plain

-- A success is told of a handler that never returned.
example :
    (run (step lenient) (new lenient ()) ([.submit (.part (.metadata {})), .turn 0, .deed .lost, .turn 0, .turn 0] :
    List (Act Bytes Nat))).sent = [.close (Status.of .ok "fine") {}] := rfl

end Call

end CallLifecycle.Server
