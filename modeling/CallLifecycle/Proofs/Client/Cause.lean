import CallLifecycle.Proofs.Client.Reading

/-!
# Why a client call ends

* `Call.sending`, `Refused` — what becomes of what a step sends, and why it may fail;
* `Brings`, `ending?_eq_some_iff` — **all the reasons** for which a call ends, and the ending that each brings;
* `pollStatus_eq_ready_iff` — the status of a call is known just behind its first ending, and is that of the ending.
-/

namespace CallLifecycle.Client

/-- Whether a step takes place on the client's side: no part is handed over, and the transport fails nothing. -/
def Act.isLocal {Out W : Type} : Act Out W → Bool
  | .routed (.part _) | .routed (.failure _) | .refused _ => false
  | _ => true

namespace Call

variable {σ Out In W : Type} {s : Setup σ Out In} {c : Call σ Out In W}

/-! ## what a step sends -/

/-- What becomes of what a step sends: the surroundings that it leaves, or the failure that stops it. -/
def sending (s : Setup σ Out In) (c : Call σ Out In W) : Act Out W → Except Status σ
  | .sendMetadata => s.sendPart c.surroundings (.metadata (requestMetadata s.options (timeout s)))
  | .sendMessage m => s.sendMessages c.surroundings [{ message := m }]
  | .sendEnd => s.sendPart c.surroundings .close
  | a => s.sendEvents c.surroundings (c.handsOver a)

/-- The interceptors rejected a request part with this status, or the codec refused a message with it. -/
inductive Refused (s : Setup σ Out In) (status : Status) : Prop
  | rejected (p : RequestPart) (x : σ) (rejection : (s.pipeline.request p x).1.rejection = some status)
  | unencodable (m : Out) (x : σ) (fails : (s.codec.encode m x).1 = .error status)

theorem error_of_bind {α β : Type} {first : Except Status α} {next : α → Except Status β} {status : Status}
    (h : first >>= next = .error status) : first = .error status ∨ ∃ a, next a = .error status := by
  cases first with
  | error r =>
    obtain rfl : r = status := Except.error.inj h
    exact .inl rfl
  | ok a => exact .inr ⟨a, h⟩

theorem refused_of_sendPart {x : σ} {p : RequestPart} {status : Status} (h : s.sendPart x p = .error status) :
    Refused s status := by
  unfold Setup.sendPart at h
  split at h
  · rename_i r rejection
    obtain rfl := Except.error.inj h
    exact .rejected p x rejection
  · cases h

theorem refused_of_sendMessages {x : σ} {batch : List (Outbound Out)} {status : Status}
    (h : s.sendMessages x batch = .error status) : Refused s status := by
  induction batch generalizing x with
  | nil => cases h
  | cons m rest ih =>
    rw [Setup.sendMessages] at h
    split at h
    · rename_i r y encoded
      obtain rfl := Except.error.inj h
      exact .unencodable m.message x (by rw [encoded])
    · rcases error_of_bind h with part | ⟨z, others⟩
      · exact refused_of_sendPart part
      · exact ih others

theorem refused_of_sendEvents {x : σ} {es : List (WriterEvent (Outbound Out) Failure)} {status : Status}
    (h : s.sendEvents x es = .error status) : Refused s status := by
  induction es generalizing x with
  | nil => cases h
  | cons e rest ih =>
    rcases e with batch | _ | _ <;> rw [Setup.sendEvents] at h
    · rcases error_of_bind h with batch | ⟨y, others⟩
      · exact refused_of_sendMessages batch
      · exact ih others
    · rcases error_of_bind h with part | ⟨y, others⟩
      · exact refused_of_sendPart part
      · exact ih others
    · exact ih h

theorem refused_of_sending {a : Act Out W} {status : Status} (h : c.sending s a = .error status) :
    Refused s status := by
  unfold sending at h
  split at h
  · exact refused_of_sendPart h
  · exact refused_of_sendMessages h
  · exact refused_of_sendPart h
  · exact refused_of_sendEvents h

/-! ## the reasons for an end -/

/-- The reasons for which a step ends its call, and the endings that they bring. -/
inductive Brings (s : Setup σ Out In) (c : Call σ Out In W) : Act Out W → Ending → Prop
  /-- The end that the server sent came out of the interceptors. -/
  | closed (p : ResponsePart) (status : Status) (trailers : Metadata)
      (admitted : c.admitted? s p = some (.close status trailers)) :
      Brings s c (.routed (.part p)) (.closed status trailers)
  | rejected (p : ResponsePart) (r : Status)
      (rejection : (s.pipeline.response p c.surroundings).1.rejection = some r) :
      Brings s c (.routed (.part p)) (.terminated r)
  | violated (p : ResponsePart) (reason : String) (violates : c.violation? s p = some reason) :
      Brings s c (.routed (.part p)) (.ofViolation reason)
  | undecodable (p : ResponsePart) (data : Bytes) (o : SendOptions) (r : Status)
      (admitted : c.admitted? s p = some (.message data o)) (known : c.initial.isCompleted = true)
      (fails : (s.codec.decode data (c.beyond s p)).1 = .error r) : Brings s c (.routed (.part p)) (.terminated r)
  /-- The transport failed. -/
  | failed (e : Failure) : Brings s c (.routed (.failure e)) (.terminated (Status.ofFailure e))
  | unconnected (e : Failure) : Brings s c (.refused e) (.terminated (Status.ofFailure (.connect e)))
  /-- What the step sends was stopped. -/
  | unsent (a : Act Out W) (r : Status) (fails : c.sending s a = .error r) : Brings s c a (.terminated r)
  | cancelled : Brings s c .cancel (.terminated (Status.of .cancelled "call was cancelled by the client"))
  | expired : Brings s c .expire (.terminated (Status.ofFailure .deadlineExceeded))

theorem passed_of_admitted? {p q : ResponsePart} (h : c.admitted? s p = some q) :
    (s.pipeline.response p c.surroundings).1.rejection = none ∧ (s.pipeline.response p c.surroundings).1.part = q := by
  unfold admitted? at h
  split at h
  · cases h
  · exact ⟨‹_›, Option.some.inj h⟩

theorem brings_of_partEnding? (going : Going c) {p : ResponsePart} {e : Ending} (h : c.partEnding? s p = some e) :
    Brings s c (.routed (.part p)) e := by
  have open' : ¬ (!c.alive || c.finished) = true := by simp [going.1, going.2]
  have violated {reason : String} (violates : c.violation? s p = some reason) (same : .ofViolation reason = e) :
      Brings s c (.routed (.part p)) e := same ▸ .violated p reason violates
  unfold partEnding? at h
  cases rejection : (s.pipeline.response p c.surroundings).1.rejection with
  | some r =>
    rw [rejection] at h
    obtain rfl := Option.some.inj h
    exact .rejected p r rejection
  | none =>
    have admitted : c.admitted? s p = some (s.pipeline.response p c.surroundings).1.part := by
      simp only [admitted?, rejection]
    rw [rejection] at h
    simp only at h
    -- Both tell by the same tests, in the same order, what is wrong with a part: the cases below follow those of
    -- `partEnding?`.
    generalize (s.pipeline.response p c.surroundings).1.part = q at h admitted
    unfold violation? at violated
    simp only [if_neg open', admitted] at violated
    cases q with
    | metadata m =>
      simp only at h violated
      split at h
      · rw [if_pos ‹_›] at violated
        exact violated rfl (Option.some.inj h)
      · cases h
    | message data o =>
      simp only [messageEnding?] at h violated
      split at h
      · rw [if_pos ‹_›] at violated
        exact violated rfl (Option.some.inj h)
      · rename_i known
        rw [if_neg known] at violated
        split at h
        · rename_i r fails
          obtain rfl := Option.some.inj h
          exact .undecodable p data o r admitted (by simpa using known) fails
        · rename_i m decoded
          have decoded : (s.codec.decode data (c.beyond s p)).1 = .ok m := decoded
          simp only [decoded] at violated
          split at h
          · rw [if_pos ‹_›] at violated
            exact violated rfl (Option.some.inj h)
          · cases h
    | close status trailers =>
      obtain rfl := Option.some.inj h
      exact .closed p status trailers admitted

theorem partEnding?_of_brings {p : ResponsePart} {e : Ending} (h : Brings s c (.routed (.part p)) e) :
    c.partEnding? s p = some e := by
  unfold partEnding?
  cases h with
  | closed _ status trailers admitted =>
    obtain ⟨rejection, part⟩ := passed_of_admitted? admitted
    rw [rejection, part]
  | rejected _ r rejection => rw [rejection]
  | violated _ reason violates =>
    unfold violation? at violates
    split at violates
    · cases violates
    split at violates
    · rename_i m admitted
      obtain ⟨rejection, part⟩ := passed_of_admitted? admitted
      rw [rejection, part]
      split at violates
      · obtain rfl := Option.some.inj violates
        exact if_pos ‹_›
      · cases violates
    · rename_i data o admitted
      obtain ⟨rejection, part⟩ := passed_of_admitted? admitted
      rw [rejection, part]
      change c.messageEnding? s (c.beyond s p) data = _
      unfold messageEnding?
      split at violates
      · obtain rfl := Option.some.inj violates
        exact if_pos ‹_›
      · rw [if_neg ‹_›]
        cases decoded : (s.codec.decode data (c.beyond s p)).1 with
        | error r =>
          rw [decoded] at violates
          cases violates
        | ok m =>
          rw [decoded] at violates
          change (if _ then _ else _) = _ at violates
          split at violates
          · obtain rfl := Option.some.inj violates
            exact if_pos ‹_›
          · cases violates
    · cases violates
  | undecodable _ data o r admitted known fails =>
    obtain ⟨rejection, part⟩ := passed_of_admitted? admitted
    rw [rejection, part]
    change c.messageEnding? s (c.beyond s p) data = _
    rw [messageEnding?, if_neg (by simp [known]), fails]
  | unsent _ r fails => cases fails

/-- **Why a call ends.** -/
theorem ending?_eq_some_iff (going : Going c) (a : Act Out W) (e : Ending) :
    c.ending? s a = some e ↔ Brings s c a e := by
  -- A step that ends its call by nothing but by what it sends.
  have sends (other : Brings s c a e → ∃ r, c.sending s a = .error r ∧ e = .terminated r)
      (same : c.ending? s a = Ending.ofSending (c.sending s a)) : c.ending? s a = some e ↔ Brings s c a e := by
    rw [same]
    refine ⟨fun h => ?_, fun h => ?_⟩
    · cases fails : c.sending s a with
      | error r =>
        rw [fails] at h
        obtain rfl := Option.some.inj h
        exact .unsent a r fails
      | ok x =>
        rw [fails] at h
        cases h
    · obtain ⟨r, fails, rfl⟩ := other h
      rw [fails]
      rfl
  -- A step that ends its call in any case.
  have surely {e' : Ending} (brings : Brings s c a e') (only : Brings s c a e → e' = e)
      (same : c.ending? s a = some e') : c.ending? s a = some e ↔ Brings s c a e := by
    rw [same]
    exact ⟨fun h => Option.some.inj h ▸ brings, fun h => congrArg some (only h)⟩
  have alive : ¬ (!c.alive) = true := by simp [going.1]
  have unfolded := ending?.eq_def s c a
  rw [if_neg alive] at unfolded
  cases a with
  | routed r =>
    cases r with
    | part p =>
      rw [unfolded]
      exact ⟨brings_of_partEnding? going, partEnding?_of_brings⟩
    | failure f =>
      refine surely (.failed f) (fun h => ?_) unfolded
      cases h with
      | failed => rfl
      | unsent _ r fails => cases fails
    | writable b =>
      refine sends (fun h => ?_) unfolded
      cases h with
      | unsent _ r fails => exact ⟨r, fails, rfl⟩
  | refused f =>
    refine surely (.unconnected f) (fun h => ?_) unfolded
    cases h with
    | unconnected => rfl
    | unsent _ r fails => cases fails
  | cancel =>
    refine surely .cancelled (fun h => ?_) unfolded
    cases h with
    | cancelled => rfl
    | unsent _ r fails => cases fails
  | expire =>
    refine surely .expired (fun h => ?_) unfolded
    cases h with
    | expired => rfl
    | unsent _ r fails => cases fails
  | _ =>
    refine sends (fun h => ?_) unfolded
    cases h with
    | unsent _ r fails => exact ⟨r, fails, rfl⟩

/-- **What a client does by itself** ends its call locally: for a failure, or because a part that it sends was rejected
or a message refused. -/
theorem Brings.terminated_of_isLocal {a : Act Out W} {e : Ending} (h : Brings s c a e) (isLocal : a.isLocal = true) :
    ∃ status, e = .terminated status ∧ (status.isOk = false ∨ Refused s status) := by
  cases h with
  | closed | rejected | violated | undecodable | failed | unconnected => cases isLocal
  | unsent _ r fails => exact ⟨r, rfl, .inr (refused_of_sending fails)⟩
  | cancelled => exact ⟨_, rfl, .inl rfl⟩
  | expired => exact ⟨_, rfl, .inl Status.isOk_ofFailure_deadlineExceeded⟩

/-! ## the first ending of a run -/

theorem going_of_ending? (live : Live c) {a : Act Out W} {e : Ending} (h : c.ending? s a = some e) : Going c := by
  refine ⟨?_, live.finished⟩
  by_contra dropped
  simp [ending?, dropped] at h

variable [DecidableEq W]

/-- Behind its first ending the status of a call is that of the ending, whatever else happens. -/
theorem status_of_ended {shape : Shape} {runtime : Bool} {x : σ} {early : List (Act Out W)} {a : Act Out W}
    {e : Ending} (undecided : Undecided s (new s shape runtime x) early)
    (ends : (run (step s) (new s shape runtime x) early).ending? s a = some e) (late : List (Act Out W)) (w : W) :
    ((run (step s) ((run (step s) (new s shape runtime x) early).step s a) late).pollStatus w).2 = .ready e.status := by
  have goes := goes_step (s := s) (live_after (live_new s shape runtime x) undecided) a
  rw [ends] at goes
  have yields := (over_after (s := s) goes.past late).yields.status w
  rwa [(behindAll_fixed _ late).1] at yields

/-- **The status of a call** is known just behind its first ending, and is that of the ending. -/
theorem pollStatus_eq_ready_iff (s : Setup σ Out In) (shape : Shape) (runtime : Bool) (x : σ)
    (acts : List (Act Out W)) (w : W) (status : Status) :
    ((run (step s) (new s shape runtime x) acts).pollStatus w).2 = .ready status ↔
      ∃ early a late e, acts = early ++ a :: late ∧ Undecided s (new s shape runtime x) early ∧
        (run (step s) (new s shape runtime x) early).ending? s a = some e ∧ e.status = status := by
  constructor
  · intro known
    rcases undecided_or_ends s (new s shape runtime x) acts with
      undecided | ⟨early, a, late, e, rfl, undecided, ends⟩
    · have live := live_after (live_new s shape runtime x) undecided
      simp [pollStatus, Promise.poll, live.status, Poll.map] at known
    · refine ⟨early, a, late, e, rfl, undecided, ends, ?_⟩
      rw [run_append, run_cons, status_of_ended undecided ends] at known
      injection known
  · rintro ⟨early, a, late, e, rfl, undecided, ends, rfl⟩
    rw [run_append, run_cons, status_of_ended undecided ends]

end Call

end CallLifecycle.Client
