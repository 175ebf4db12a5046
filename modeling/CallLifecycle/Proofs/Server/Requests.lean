import CallLifecycle.Proofs.Server.Intake

/-!
# The messages of a request

* `Cut`, `cut_after` — a call that was given up stays so, and its handler has been cancelled;
* `mem_handed`, `handed_prefix`, `close_of_received` — what is received was handed in by the transport;
* `read_of_received` — **in every run** the handler reads the first of the messages that were received, it reads a
  clean end only behind all of them and behind the end of the request, and once the call was given up it reads nothing
  but errors.
-/

namespace CallLifecycle.Server

def submittedParts {Out W : Type} (acts : List (Act Out W)) : List RequestPart :=
  acts.filterMap fun
    | .submit (.part p) => some p
    | _ => none

@[simp] theorem submittedParts_append {Out W : Type} (acts more : List (Act Out W)) :
    submittedParts (acts ++ more) = submittedParts acts ++ submittedParts more := by
  simp [submittedParts]

namespace Call

variable {σ Out In W : Type} {s : Setup σ Out In} {c c' : Call σ Out In W}

/-! ## calls that were given up -/

/-- A call that was given up: its handler, if it was started, has been cancelled. -/
structure Cut (c : Call σ Out In W) : Prop where
  handler : c.progress.handler = .completed
  raised : c.hasStarted = true → c.cancellation.raised = true

/-- A call that is given up cancels its handler. -/
theorem cut_of_givenUp {handed looked received : List RequestPart} {got : List In} {ends : List (Option Failure)}
    (h : Intake s c handed looked received got ends) (live : Live c) {d : Call σ Out In W} {e : Failure}
    (tried : Tried c d) (givenUp : GivenUp s e d c') : Cut c' := by
  refine ⟨by rw [givenUp.same], fun started => ?_⟩
  have active := live.started.mp (by rwa [givenUp.hasStarted, tried.hasStarted] at started)
  rw [givenUp.same, tried.same]
  simp [h.engaged active, Token.raise, h.uncut ⟨live.ended, live.handler⟩]

section Steps

variable [DecidableEq W]

theorem Cut.step (h : Cut c) (sound : c.writer.Sound) (a : Act Out W) : Cut (c.step s a) := by
  by_cases turns : ∃ now, a = .turn now
  · obtain ⟨now, rfl⟩ := turns
    have nothing : c.turn s now = none := by simp [Call.turn, Progress.isCompleted, h.handler]
    simpa [Call.step, nothing] using h
  · have fetched := fetched_step s sound (c := c) fun now e => turns ⟨now, e⟩
    refine ⟨?_, fun started => ?_⟩
    · rcases fetched.handler with same | same
      · exact same.trans h.handler
      · exact same
    · rcases fetched.raised with same | ⟨-, raised⟩
      · exact same.trans (h.raised (fetched.hasStarted ▸ started))
      · exact raised

theorem cut_after {x : σ} {early : List (Act Out W)} (h : Cut (run (step s) (new s x) early))
    (late : List (Act Out W)) : Cut (run (step s) (new s x) (early ++ late)) := by
  rw [run_append]
  refine run_induction h fun more a cut => ?_
  obtain ⟨said, done, ledger⟩ := ledger_after s x (early ++ more)
  rw [run_append] at ledger
  exact cut.step ledger.sound a

/-- A handler that has been cancelled reads nothing but errors. -/
theorem Cut.reads (h : Cut c) (started : c.hasStarted = true) (w : W) :
    ∃ status, (c.readRequest w).2 = .ready (.error status) := by
  refine ⟨c.requests.failure.getD callWasCancelled, ?_⟩
  simp [readRequest, readMessage, Token.poll, h.raised started]

/-! ## what was handed in -/

theorem mem_partsOf {p : RequestPart} {is : List Inbound} (h : p ∈ partsOf is) : .part p ∈ is := by
  obtain ⟨i, mem, part⟩ := List.mem_filterMap.mp h
  cases i <;> simp_all

theorem mem_handed {p : RequestPart} {acts : List (Act Out W)} (h : p ∈ c.handed s acts) :
    .submit (.part p) ∈ acts := by
  induction acts generalizing c with
  | nil => simp [handed, gather] at h
  | cons a acts ih =>
    rw [handed, gather, List.mem_append] at h
    rcases h with h | h
    · cases a with
      | submit i =>
        simp only [hands] at h
        split at h
        · simp at h
        · obtain rfl := List.mem_singleton.mp (mem_partsOf h)
          simp
      | _ => simp [hands] at h
    · exact List.mem_cons_of_mem _ (ih h)

/-- A call that takes nothing more from its transport. -/
def Deaf (c : Call σ Out In W) : Prop := c.ended = true ∨ c.handles = false

omit [DecidableEq W] in
theorem Deaf.advance (h : Deaf c) (live : Live c) {now : Instant} (advance : Advance s now c c') : Deaf c' := by
  have handles : c.handles = false := h.resolve_left (by simp [live.ended])
  cases advance with
  | spoke batch rest ps next speaks =>
    rw [speaks.same]
    exact .inr handles
  | noted e rest next news same =>
    rw [same]
    exact .inr handles
  | concluded e rest outcome next news drained reported concludes =>
    rw [concludes.same]
    exact .inr handles
  | gaveUp e d fails tried givenUp =>
    rw [givenUp.same, tried.same]
    exact .inr handles
  | cutOff p m rest takes cut crashes => exact .inl crashes.ended
  | applied id setting rest idle orders same =>
    rw [same]
    exact .inr handles
  | started p m rest deadline vs takes idle same =>
    rw [same]
    exact .inr handles
  | delivered p data m rest x es takes receiving decoded silent same =>
    rw [same]
    exact .inr handles
  | closed p rest es takes receiving silent same =>
    rw [same]
    exact .inr handles
  | writable b rest idle orders inbox same =>
    rw [same]
    split
    · rw [withWriter_eq]
      exact .inr handles
    · exact .inr handles
  | noticed idle orders inbox gone unnoticed whole same =>
    rw [same]
    exact .inr handles

theorem handles_perform (c : Call σ Out In W) (d : Deed Out W) : (c.perform d).handles = c.handles := by
  cases d with
  | write m => simp only [perform, write, withWriter_eq]
  | finish => simp only [perform, finishResponses, withWriter_eq]
  | returned outcome => simp only [perform, returned, report, finishResponses, closeRequests_eq, tell_eq, withWriter_eq]
  | lost => simp only [perform, lost, report, finishResponses, closeRequests_eq, tell_eq, withWriter_eq]
  | set setting =>
    simp only [perform, issue]
    split <;> rfl
  | abort reason =>
    simp only [perform, abort]
    split <;> rfl
  | awaitReply id w =>
    simp only [perform, pollReply]
    split
    · rfl
    · split <;> rfl
  | awaitWrite | awaitDrained | read | awaitCancelled => rfl

theorem Deaf.step (h : Deaf c) {taken done : List (Outbound Out)} {said : List ResponsePart}
    (ledger : Ledger s c taken said done) (a : Act Out W) : Deaf (c.step s a) := by
  by_cases turns : ∃ now, a = .turn now
  · obtain ⟨now, rfl⟩ := turns
    cases turn : c.turn s now with
    | none => simpa [Call.step, turn] using h
    | some c' =>
      obtain ⟨live, -⟩ := ledger.live_of_turn turn
      simpa [Call.step, turn] using h.advance live (Call.advance live turn)
  · rcases h with ended | handles
    · refine .inl ?_
      by_contra going
      have before := (fetched_step s ledger.sound fun now e => turns ⟨now, e⟩).ended (by simpa using going)
      simp [ended] at before
    · refine .inr ?_
      cases a with
      | submit i =>
        simp only [Call.step, submit]
        split <;> exact handles
      | hangUp => simp [Call.step, hangUp, handles]
      | awaitEnd w =>
        simp only [Call.step, pollCompleted]
        split <;> exact handles
      | deed d =>
        simp only [Call.step]
        split
        · exact (handles_perform c d).trans handles
        · exact handles
      | turn now => exact absurd ⟨now, rfl⟩ turns
      | conclude =>
        simp only [Call.step, conclude]
        split
        · exact handles
        · simp only [emit]
          split <;> exact handles

theorem handed_prefix (s : Setup σ Out In) (x : σ) (acts : List (Act Out W)) :
    (new s x).handed s acts <+: submittedParts acts ∧
      (¬ Deaf (run (step s) (new s x) acts) → (new s x).handed s acts = submittedParts acts) := by
  induction acts using List.reverseRecOn with
  | nil => exact ⟨List.prefix_rfl, fun _ => rfl⟩
  | append_singleton acts a ih =>
    obtain ⟨said, done, ledger⟩ := ledger_after s x acts
    unfold handed at ih ⊢
    rw [gather_snoc, submittedParts_append, run_append]
    by_cases deaf : Deaf (run (step s) (new s x) acts)
    · have nothing : (run (step s) (new s x) acts).hands a = [] := by
        cases a with
        | submit i => rcases deaf with ended | handles <;> simp [hands, *]
        | _ => rfl
      rw [nothing, List.append_nil]
      exact ⟨ih.1.trans (List.prefix_append _ _), fun listens => absurd (deaf.step ledger a) listens⟩
    · have same : (run (step s) (new s x) acts).hands a = submittedParts [a] := by
        obtain ⟨going, held⟩ := not_or.mp deaf
        cases a with
        | submit i => cases i <;> simp [hands, going, held, partsOf, submittedParts]
        | _ => rfl
      rw [ih.2 deaf, same]
      exact ⟨List.prefix_rfl, fun _ => rfl⟩

theorem close_of_received (keeps : s.pipeline.KeepsRequestKinds) (x : σ) {acts : List (Act Out W)}
    (h : .close ∈ (new s x).received s acts) : .submit (.part .close) ∈ acts := by
  have intake := intake_after s x acts
  obtain ⟨first, rest, split, passed, -⟩ := intake.passed
  have kind : PartKind.close ∈ first.map RequestPart.kind := by
    rw [← kinds_of_comes keeps passed]
    exact List.mem_map.mpr ⟨_, h, rfl⟩
  obtain ⟨p, mem, close⟩ := List.mem_map.mp kind
  obtain rfl : p = .close := by cases p <;> simp_all [RequestPart.kind]
  exact mem_handed (intake.sub.subset (split ▸ List.mem_append_left _ mem))

/-! ## what the handler reads -/

theorem read_sub_received (s : Setup σ Out In) (x : σ) (acts : List (Act Out W)) :
    ∃ first, first <+: requestPayloads ((new s x).received s acts) ∧
      List.Forall₂ s.codec.Decodes first ((new s x).read s acts) := by
  obtain ⟨first, sub, decodes⟩ := (intake_after s x acts).decoded
  exact ⟨_, (List.take_prefix _ _).trans sub, List.forall₂_take_append _ _ _ decodes⟩

/-- A clean end is read behind the end of the request, and behind all its messages. -/
theorem whole_of_clean {handed looked received : List RequestPart} {got : List In}
    (h : Intake s c handed looked received got []) (started : c.hasStarted = true) {w : W}
    (clean : (c.readRequest w).2 = .ready (.ok none)) :
    .close ∈ received ∧ List.Forall₂ s.codec.Decodes (requestPayloads received) got := by
  have reading := reading c.cancellation c.requests w
  unfold readRequest at clean
  generalize readMessage c.cancellation c.requests w = r at reading clean
  obtain ⟨t, ch, r⟩ := r
  obtain rfl : r = .ready (.ok none) := clean
  cases reading with
  | ended ws uncut queue terminal =>
    obtain ⟨whole, live | ⟨-, -, close⟩⟩ := h.whole started rfl uncut
    · simp [terminal] at live
    · exact ⟨close, by simpa [queue] using whole⟩

/-- **What the handler reads in every run.** The messages that it reads are the first of those that were received. It
reads a clean end only once the end of the request was received, and behind all messages. Once the call was given up,
it reads nothing but errors. -/
theorem read_of_received (s : Setup σ Out In) (x : σ) (acts : List (Act Out W)) :
    (∃ first, first <+: requestPayloads ((new s x).received s acts) ∧
      List.Forall₂ s.codec.Decodes first ((new s x).read s acts)) ∧
    (∀ w, (run (step s) (new s x) acts).hasStarted = true → (new s x).reported s acts = [] →
      ((run (step s) (new s x) acts).readRequest w).2 = .ready (.ok none) →
      .close ∈ (new s x).received s acts ∧
      (s.pipeline.KeepsRequestKinds → .submit (.part .close) ∈ acts) ∧
      List.Forall₂ s.codec.Decodes (requestPayloads ((new s x).received s acts)) ((new s x).read s acts)) ∧
    (∀ early now late e, acts = early ++ .turn now :: late → Running (run (step s) (new s x) early) →
      GivesUp s now (run (step s) (new s x) early) e → (run (step s) (new s x) acts).hasStarted = true →
      ∀ w, ∃ status, ((run (step s) (new s x) acts).readRequest w).2 = .ready (.error status)) := by
  have intake := intake_after s x acts
  refine ⟨read_sub_received s x acts, fun w started going clean => ?_, ?_⟩
  · rw [going] at intake
    obtain ⟨close, whole⟩ := whole_of_clean intake started clean
    exact ⟨close, fun keeps => close_of_received keeps x close, whole⟩
  · rintro early now late e rfl running why started w
    obtain ⟨said, done, ledger⟩ := ledger_after s x early
    have live := ledger.live_of_running running
    obtain ⟨c', d, e', turn, tried, givenUp⟩ := givenUp_of_givesUp live why
    have cut : Cut (run (step s) (new s x) (early ++ [.turn now])) := by
      simpa [Call.step, turn] using cut_of_givenUp (intake_after s x early) live tried givenUp
    have past := cut_after cut late
    rw [List.append_assoc, List.singleton_append] at past
    exact past.reads started w

end Steps

def plain : Setup Unit Bytes Bytes where
  config := {}
  codec := .bytes
  pipeline := []
  delegate := .plain

/-- A request of one message that the handler reads. -/
def oneRequest : List (Act Bytes Nat) :=
  [.submit (.part (.metadata {})), .submit (.part (.message [1])), .turn 0, .turn 0, .deed (.read 0)]

/-- The request is whole; another is finished by its transport while a message of it waits. -/
theorem read_of_oneRequest :
    let whole : List (Act Bytes Nat) := oneRequest ++ [.submit (.part .close), .turn 0]
    let early : List (Act Bytes Nat) := oneRequest ++ [.submit (.part (.message [2])), .turn 0, .submit .finish]
    ((run (step plain) (new plain ()) whole).readRequest 0).2 = .ready (.ok none) ∧
    .close ∈ (new plain ()).received plain whole ∧
    List.Forall₂ plain.codec.Decodes (requestPayloads ((new plain ()).received plain whole))
      ((new plain ()).read plain whole) ∧
    GivesUp plain 0 (run (step plain) (new plain ()) early) finishedByTransport ∧
    ∃ status, ((run (step plain) (new plain ()) (early ++ [.turn 0])).readRequest 0).2 = .ready (.error status) := by
  intro whole early
  have clean : ((run (step plain) (new plain ()) whole).readRequest 0).2 = .ready (.ok none) := rfl
  have why : GivesUp plain 0 (run (step plain) (new plain ()) early) finishedByTransport := .finished [] rfl rfl rfl
  obtain ⟨-, reads, -⟩ := read_of_received plain () whole
  obtain ⟨-, -, cut⟩ := read_of_received plain () (early ++ [.turn 0])
  obtain ⟨close, -, decodes⟩ := reads 0 rfl rfl clean
  exact ⟨clean, close, decodes, why, cut early 0 [] _ rfl ⟨rfl, by decide⟩ why rfl 0⟩

end Call

end CallLifecycle.Server
