import CallLifecycle.Proofs.Client.Cause

/-!
# Client calls that end well

* `Grants`, `grants_of_brings` — the ways in which a step can end its call with an ok status: a deadline, a user who
  cancels, a stream that could not be opened and a server that breaks the order of the parts are none of them;
* `isOk_status_iff` — **the status of a call is ok** just if its first ending came in one of these ways;
* `Setup.IsStrict`, `closed_of_isStrict` — where nobody calls a failure ok, only the end of the server is a success.
-/

namespace CallLifecycle

namespace Client

/-- Nobody calls a failure ok: neither the interceptors, when they reject a part, nor the codec, when it refuses a
message. -/
structure Setup.IsStrict {σ Out In : Type} (s : Setup σ Out In) : Prop where
  requests : ∀ p x r, (s.pipeline.request p x).1.rejection = some r → r.isOk = false
  responses : ∀ p x r, (s.pipeline.response p x).1.rejection = some r → r.isOk = false
  encode : ∀ m x r, (s.codec.encode m x).1 = .error r → r.isOk = false
  decode : ∀ data x r, (s.codec.decode data x).1 = .error r → r.isOk = false

namespace Call

variable {σ Out In W : Type} {s : Setup σ Out In} {c : Call σ Out In W}

/-! ## the ways to an ok status -/

/-- The ways in which a step can end its call with an ok status. The first is a success; in the others a failure comes
with a status that somebody else chose, and the call takes it as it is. -/
inductive Grants (s : Setup σ Out In) (c : Call σ Out In W) : Act Out W → Status → Prop
  /-- The end that the server sent came out of the interceptors. -/
  | closed (p : ResponsePart) (status : Status) (trailers : Metadata)
      (admitted : c.admitted? s p = some (.close status trailers)) : Grants s c (.routed (.part p)) status
  | rejected (p : ResponsePart) (r : Status)
      (rejection : (s.pipeline.response p c.surroundings).1.rejection = some r) : Grants s c (.routed (.part p)) r
  | undecodable (p : ResponsePart) (data : Bytes) (o : SendOptions) (r : Status)
      (admitted : c.admitted? s p = some (.message data o)) (known : c.initial.isCompleted = true)
      (fails : (s.codec.decode data (c.beyond s p)).1 = .error r) : Grants s c (.routed (.part p)) r
  /-- The transport failed. -/
  | failed (e : Failure) : Grants s c (.routed (.failure e)) (Status.ofFailure e)
  /-- What the step sends was stopped. -/
  | unsent (a : Act Out W) (r : Status) (fails : c.sending s a = .error r) (why : Refused s r) : Grants s c a r

theorem grants_of_brings {a : Act Out W} {e : Ending} (h : Brings s c a e) (ok : e.status.isOk = true) :
    Grants s c a e.status := by
  cases h with
  | closed p status trailers admitted => exact .closed p status trailers admitted
  | rejected p r rejection => exact .rejected p r rejection
  | violated p reason => exact absurd ok (by simp [Ending.ofViolation, Ending.status, Status.isOk_ofFailure_violation])
  | undecodable p data o r admitted known fails => exact .undecodable p data o r admitted known fails
  | failed e => exact .failed e
  | unconnected e => exact absurd ok (by simp [Ending.status, Status.isOk_ofFailure_connect])
  | unsent _ r fails => exact .unsent a r fails (refused_of_sending fails)
  | cancelled => cases ok
  | expired => exact absurd ok (by simp [Ending.status, Status.isOk_ofFailure_deadlineExceeded])

theorem exists_brings_of_grants {a : Act Out W} {status : Status} (h : Grants s c a status) :
    ∃ e, Brings s c a e ∧ e.status = status := by
  cases h with
  | closed p _ trailers admitted => exact ⟨_, .closed p status trailers admitted, rfl⟩
  | rejected p _ rejection => exact ⟨_, .rejected p status rejection, rfl⟩
  | undecodable p data o _ admitted known fails => exact ⟨_, .undecodable p data o status admitted known fails, rfl⟩
  | failed e => exact ⟨_, .failed e, rfl⟩
  | unsent _ _ fails => exact ⟨_, .unsent a status fails, rfl⟩

variable [DecidableEq W]

/-- Behind an ok status lies a first ending that came in one of the ways. -/
theorem grants_of_isOk {shape : Shape} {runtime : Bool} {x : σ} {acts : List (Act Out W)} {w : W} {status : Status}
    (known : ((run (step s) (new s shape runtime x) acts).pollStatus w).2 = .ready status) (ok : status.isOk = true) :
    ∃ early a late, acts = early ++ a :: late ∧ Undecided s (new s shape runtime x) early ∧
      (run (step s) (new s shape runtime x) early).alive = true ∧
      Grants s (run (step s) (new s shape runtime x) early) a status := by
  obtain ⟨early, a, late, e, split, undecided, ends, rfl⟩ :=
    (pollStatus_eq_ready_iff s shape runtime x acts w status).mp known
  have going := going_of_ending? (live_after (live_new s shape runtime x) undecided) ends
  exact ⟨early, a, late, split, undecided, going.1, grants_of_brings ((ending?_eq_some_iff going a e).mp ends) ok⟩

/-- **The status of a call is ok** just if its first ending was brought by an ok end of the server, as it came out of
the interceptors, or by a failure that came with an ok status: a part that an interceptor rejected, a message that the
codec refused, or a failure of the transport. Nothing else ends a call with an ok status. -/
theorem isOk_status_iff (s : Setup σ Out In) (shape : Shape) (runtime : Bool) (x : σ) (acts : List (Act Out W)) (w : W)
    (status : Status) :
    ((run (step s) (new s shape runtime x) acts).pollStatus w).2 = .ready status ∧ status.isOk = true ↔
      status.isOk = true ∧ ∃ early a late, acts = early ++ a :: late ∧ Undecided s (new s shape runtime x) early ∧
        (run (step s) (new s shape runtime x) early).alive = true ∧
        Grants s (run (step s) (new s shape runtime x) early) a status := by
  constructor
  · rintro ⟨known, ok⟩
    exact ⟨ok, grants_of_isOk known ok⟩
  · rintro ⟨ok, early, a, late, split, undecided, alive, grants⟩
    obtain ⟨e, brings, same⟩ := exists_brings_of_grants grants
    have going : Going (run (step s) (new s shape runtime x) early) :=
      ⟨alive, (live_after (live_new s shape runtime x) undecided).finished⟩
    have ends := (ending?_eq_some_iff going a e).mpr brings
    exact ⟨(pollStatus_eq_ready_iff s shape runtime x acts w status).mpr
      ⟨early, a, late, e, split, undecided, ends, same⟩, ok⟩

/-- **Where nobody calls a failure ok**, an ok status is that of an end of the server, as it came out of the
interceptors. -/
theorem closed_of_isStrict (strict : s.IsStrict) {shape : Shape} {runtime : Bool} {x : σ} {acts : List (Act Out W)}
    (failures : ∀ e, .routed (.failure e) ∈ acts → (Status.ofFailure e).isOk = false) {w : W} {status : Status}
    (known : ((run (step s) (new s shape runtime x) acts).pollStatus w).2 = .ready status) (ok : status.isOk = true) :
    ∃ early p late trailers, acts = early ++ .routed (.part p) :: late ∧ Undecided s (new s shape runtime x) early ∧
      (run (step s) (new s shape runtime x) early).admitted? s p = some (.close status trailers) := by
  obtain ⟨early, a, late, rfl, undecided, -, grants⟩ := grants_of_isOk known ok
  cases grants with
  | closed p _ trailers admitted => exact ⟨early, p, late, trailers, rfl, undecided, admitted⟩
  | rejected p _ rejection => simp [strict.responses p _ status rejection] at ok
  | undecodable p data o _ admitted known fails => simp [strict.decode data _ status fails] at ok
  | failed e => simp [failures e (by simp)] at ok
  | unsent _ _ fails why =>
    cases why with
    | rejected p x rejection => simp [strict.requests p x status rejection] at ok
    | unencodable m x fails => simp [strict.encode m x status fails] at ok

/-- A transport that fails with an ok status makes a success of its failure. -/
example : ((run (step narrow) (new narrow .unary true ())
    (opening [] none ++ [.routed (.failure (.status { code := .ok })), .awaitStatus 0] :
      List (Act Bytes Nat))).pollStatus 0).2 = .ready { code := .ok } := rfl

end Call

end Client

end CallLifecycle
