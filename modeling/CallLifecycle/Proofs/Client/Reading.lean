import CallLifecycle.Proofs.Client.Responses

/-!
# Reads behind the end of a client call

* `read_behind` — what is read behind the end of a call, and what is left to read, was in the queue at its end;
* `read_of_ended` — the same of a whole run.
-/

namespace CallLifecycle.Client

theorem lastRead_ne {In : Type} (t : Terminal Status) (m : In) : lastRead t ≠ .ok (some m) := by
  cases t <;> simp [lastRead]

namespace Call

variable {σ Out In W : Type} {s : Setup σ Out In} {c c' : Call σ Out In W}

/-! ## reads behind the end -/

section Reads

variable [DecidableEq W]

theorem gets_behind {o : Outcome In} (h : Over c o) (stream : c.isStream = true) (last : ∀ m, o.last ≠ .ok (some m))
    (a : Act Out W) : c.gets a ++ (o.behind a).queue = o.queue := by
  cases a with
  | read w =>
    cases hr : c.responses with
    | single p => simp [isStream, hr] at stream
    | stream ch =>
      have yields := h.yields.stream ch hr w
      simp only [gets, yields]
      cases hq : o.queue with
      | nil =>
        cases hl : o.last with
        | error status => simp [Outcome.behind, hq]
        | ok m =>
          cases m with
          | none => simp [Outcome.behind, hq]
          | some m => exact absurd hl (last m)
      | cons m rest => simp [Outcome.behind, hq]
  | _ => rfl

omit [DecidableEq W] in
theorem last_behind (o : Outcome In) (a : Act Out W) : (o.behind a).last = o.last := by
  cases a <;> rfl

/-- **Behind the end** the messages in the queue are read one by one, whatever else happens. -/
theorem read_behind {o : Outcome In} (h : Over c o) (stream : c.isStream = true) (last : ∀ m, o.last ≠ .ok (some m))
    (late : List (Act Out W)) : c.read s late ++ (o.behindAll late).queue = o.queue := by
  induction late generalizing c o with
  | nil => rfl
  | cons a late ih =>
    have first := gets_behind h stream last a
    have others := ih (over_step (s := s) h a) ((isStream_step s c a).trans stream)
      fun m => last_behind o a ▸ last m
    unfold read at others ⊢
    rw [gather, List.append_assoc, ← first, ← others]
    rfl

omit [DecidableEq W] in
/-- Behind the end of a call its status stays, and so does what is read behind the last message. -/
theorem behindAll_fixed (o : Outcome In) (acts : List (Act Out W)) :
    (o.behindAll acts).status = o.status ∧ (o.behindAll acts).last = o.last := by
  induction acts generalizing o with
  | nil => exact ⟨rfl, rfl⟩
  | cons a acts ih =>
    obtain ⟨status, last⟩ := ih (o.behind a)
    refine ⟨status.trans ?_, last.trans (last_behind o a)⟩
    cases a <;> rfl

theorem gets_of_ending? {a : Act Out W} {e : Ending} (h : c.ending? s a = some e) : c.gets a = [] := by
  cases a with
  | read w =>
    rw [ending?_of_isQuiet rfl] at h
    cases h
  | _ => rfl

/-- **What is read of a call that has ended**, and behind it what is left to read, was read before its end or was in
the queue at its end. -/
theorem read_of_ended (shape : Shape) (runtime : Bool) (x : σ) (streams : shape.streamsResponses = true)
    {early : List (Act Out W)} {a : Act Out W} {e : Ending} (undecided : Undecided s (new s shape runtime x) early)
    (ends : (run (step s) (new s shape runtime x) early).ending? s a = some e) (late : List (Act Out W)) :
    Over (run (step s) (new s shape runtime x) (early ++ a :: late))
      ((e.outcome (run (step s) (new s shape runtime x) early)).behindAll late) ∧
    (new s shape runtime x).read s (early ++ a :: late) ++
        ((e.outcome (run (step s) (new s shape runtime x) early)).behindAll late).queue =
      (new s shape runtime x).read s early ++ (e.outcome (run (step s) (new s shape runtime x) early)).queue := by
  have stream : ((run (step s) (new s shape runtime x) early).step s a).isStream = true := by
    have same := isStream_after s shape runtime x (early ++ [a])
    rw [run_append] at same
    exact same.trans streams
  have nothing := gets_of_ending? ends
  have goes := goes_step (s := s) (live_after (live_new s shape runtime x) undecided) a
  rw [ends] at goes
  have behind := read_behind (s := s) goes.past stream (lastRead_ne e.terminal) late
  unfold read at behind ⊢
  rw [gather_append, gather, nothing, List.nil_append, List.append_assoc, behind, run_append, run_cons]
  exact ⟨over_after goes.past late, rfl⟩

omit [DecidableEq W] in
theorem queue_behindAll_read (o : Outcome In) (ws : List W) :
    (o.behindAll (ws.map .read : List (Act Out W))).queue = o.queue.drop ws.length := by
  induction ws generalizing o with
  | nil => rfl
  | cons w ws ih =>
    have first : o.behindAll ((w :: ws).map .read : List (Act Out W)) =
      { o with queue := o.queue.tail }.behindAll (ws.map .read : List (Act Out W)) := rfl
    rw [first, ih]
    simp

end Reads

end Call

end CallLifecycle.Client
