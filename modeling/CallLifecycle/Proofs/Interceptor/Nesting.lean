import CallLifecycle.Interceptor

/-!
# The way of a part, and groups of interceptors

* `Looks.standing`, `Looks.refusal?`, `Looks.called` — how a part stands ahead of each look, whether that look rejects
  it, and the visits up to it;
* `Looks.Course`, `passLooks_eq_iff` — a part passes all looks, or stops at the first one that rejects it, as that one
  left it;
* `Pipeline.Courses`, `passAll_eq_iff` — the ways of parts of either direction, one after the other;
* `passLooks_append`, `request_leaves`, `response_leaves` — a group is passed as its members are;
* `passage_of_parts` — **the ways of all parts** through a pipeline, and through any assembly: they are those through
  its leaves.
-/

namespace CallLifecycle

/-! ## the way of a part -/

namespace Looks

variable {σ P : Type}

/-- A part and the surroundings, as a look leaves them. -/
def behind (look : Look σ P × (P → Visit)) (x : P × σ) : P × σ := ((look.1 x.1 x.2).1.1, (look.1 x.1 x.2).2)

/-- A part and the surroundings, as the first `n` looks leave them. -/
def standing (looks : List (Look σ P × (P → Visit))) (x : P × σ) (n : Nat) : P × σ :=
  (looks.take n).foldl (fun x look => behind look x) x

/-- The rejection by the look number `n` of the part that comes to it. -/
def refusal? (looks : List (Look σ P × (P → Visit))) (x : P × σ) (n : Nat) : Option Status :=
  looks[n]?.bind fun look => (look.1 (standing looks x n).1 (standing looks x n).2).1.2

/-- The visits of the first `n` looks, each by the part that comes to it. -/
def called (looks : List (Look σ P × (P → Visit))) (x : P × σ) (n : Nat) : List Visit :=
  (looks.take n).mapIdx fun i look => look.2 (standing looks x i).1

/-- The way of a part: through all looks, or up to the first one that rejects it. -/
inductive Course (looks : List (Look σ P × (P → Visit))) (x : P × σ) : Passage P × σ → Prop
  | through (passed : ∀ i, refusal? looks x i = none) :
      Course looks x (⟨(standing looks x looks.length).1, none, called looks x looks.length⟩,
        (standing looks x looks.length).2)
  | stopped (i : Nat) (status : Status) (passed : ∀ j < i, refusal? looks x j = none)
      (refused : refusal? looks x i = some status) :
      Course looks x (⟨(standing looks x (i + 1)).1, some status, called looks x (i + 1)⟩,
        (standing looks x (i + 1)).2)

variable {look : Look σ P × (P → Visit)} {looks : List (Look σ P × (P → Visit))} {x : P × σ}

theorem standing_zero : standing looks x 0 = x := rfl

theorem standing_succ (n : Nat) : standing (look :: looks) x (n + 1) = standing looks (behind look x) n := rfl

theorem refusal?_zero : refusal? (look :: looks) x 0 = (look.1 x.1 x.2).1.2 := rfl

theorem called_zero : called looks x 0 = [] := rfl

theorem called_succ (n : Nat) :
    called (look :: looks) x (n + 1) = look.2 x.1 :: called looks (behind look x) n := by
  rw [called, List.take_succ_cons, List.mapIdx_cons]
  rfl

theorem Course.cons (passed : (look.1 x.1 x.2).1.2 = none) {r : Passage P × σ} (h : Course looks (behind look x) r) :
    Course (look :: looks) x ({ r.1 with visits := look.2 x.1 :: r.1.visits }, r.2) := by
  cases h with
  | through others =>
    rw [← called_succ, ← standing_succ]
    refine .through fun i => ?_
    cases i with
    | zero => exact passed
    | succ i => exact others i
  | stopped i status others refused =>
    rw [← called_succ, ← standing_succ]
    refine .stopped (i + 1) status (fun j before => ?_) refused
    cases j with
    | zero => exact passed
    | succ j => exact others j (Nat.lt_of_succ_lt_succ before)

theorem course_passLooks (looks : List (Look σ P × (P → Visit))) (p : P) (s : σ) :
    Course looks (p, s) (passLooks looks p s) := by
  induction looks generalizing p s with
  | nil => exact .through fun i => rfl
  | cons look looks ih =>
    rcases is : look.1 p s with ⟨⟨q, rejection⟩, t⟩
    cases rejection with
    | none =>
      have next : behind look (p, s) = (q, t) := by simp only [behind, is]
      have passed : (look.1 (p, s).1 (p, s).2).1.2 = none := by simp only [is]
      have way := Course.cons passed (next ▸ ih q t)
      simpa only [passLooks, is] using way
    | some status =>
      have refused : refusal? (look :: looks) (p, s) 0 = some status := by simp only [refusal?_zero, is]
      have way := Course.stopped 0 status (fun j before => absurd before (Nat.not_lt_zero j)) refused
      simpa only [passLooks, is, standing_succ, standing_zero, called_succ, called_zero, behind] using way

/-- There is one way only. -/
theorem Course.unique {r r' : Passage P × σ} (h : Course looks x r) (h' : Course looks x r') : r = r' := by
  cases h with
  | through passed =>
    cases h' with
    | through => rfl
    | stopped i status before refused => simp [passed i] at refused
  | stopped i status before refused =>
    cases h' with
    | through passed => simp [passed i] at refused
    | stopped j status' before' refused' =>
      rcases Nat.lt_trichotomy i j with earlier | rfl | later
      · simp [before' i earlier] at refused
      · obtain rfl := Option.some.inj (refused.symm.trans refused')
        rfl
      · simp [before j later] at refused'

theorem passLooks_eq_iff {p : P} {s : σ} {r : Passage P × σ} : passLooks looks p s = r ↔ Course looks (p, s) r :=
  ⟨fun same => same ▸ course_passLooks looks p s, fun course => (course_passLooks looks p s).unique course⟩

end Looks

/-! ## the ways of many parts -/

namespace Pipeline

variable {σ : Type} {l : Pipeline σ}

/-- The ways of parts through a pipeline, one after the other: a request part passes the interceptors in their order, a
response part passes them in reverse. -/
inductive Courses (l : Pipeline σ) : List AnyPart → σ → List (Passage AnyPart) → σ → Prop
  | nil (s : σ) : Courses l [] s [] s
  | request {p : RequestPart} {s t u : σ} {r : Passage RequestPart} {rest : List AnyPart} {rs : List (Passage AnyPart)}
      (course : Looks.Course (l.filterMap Interceptor.requestLook) (p, s) (r, t)) (others : Courses l rest t rs u) :
      Courses l (.request p :: rest) s (r.map .request :: rs) u
  | response {p : ResponsePart} {s t u : σ} {r : Passage ResponsePart} {rest : List AnyPart}
      {rs : List (Passage AnyPart)}
      (course : Looks.Course (l.reverse.filterMap Interceptor.responseLook) (p, s) (r, t))
      (others : Courses l rest t rs u) :
      Courses l (.response p :: rest) s (r.map .response :: rs) u

theorem courses_passAll (l : Pipeline σ) (parts : List AnyPart) (s : σ) :
    Courses l parts s (passAll l.pass parts s).1 (passAll l.pass parts s).2 := by
  induction parts generalizing s with
  | nil => exact .nil s
  | cons p rest ih =>
    cases p with
    | request p => exact .request (Looks.course_passLooks _ p s) (ih _)
    | response p => exact .response (Looks.course_passLooks _ p s) (ih _)

theorem passAll_cons {P : Type} (pass : P → σ → Passage P × σ) (p : P) (rest : List P) (s : σ) :
    passAll pass (p :: rest) s =
      ((pass p s).1 :: (passAll pass rest (pass p s).2).1, (passAll pass rest (pass p s).2).2) := rfl

theorem passAll_of_courses {parts : List AnyPart} {s u : σ} {rs : List (Passage AnyPart)}
    (h : Courses l parts s rs u) : passAll l.pass parts s = (rs, u) := by
  induction h with
  | nil s => rfl
  | @request p s t u r rest rs course others ih =>
    have first : l.request p s = (r, t) := Looks.passLooks_eq_iff.mpr course
    have passed : l.pass (.request p) s = (r.map .request, t) := by simp only [pass, passAny, first]
    rw [passAll_cons, passed, ih]
  | @response p s t u r rest rs course others ih =>
    have first : l.response p s = (r, t) := Looks.passLooks_eq_iff.mpr course
    have passed : l.pass (.response p) s = (r.map .response, t) := by simp only [pass, passAny, first]
    rw [passAll_cons, passed, ih]

theorem passAll_eq_iff {parts : List AnyPart} {s u : σ} {rs : List (Passage AnyPart)} :
    passAll l.pass parts s = (rs, u) ↔ Courses l parts s rs u := by
  refine ⟨fun same => ?_, passAll_of_courses⟩
  have courses := courses_passAll l parts s
  rwa [same] at courses

end Pipeline

/-! ## groups -/

namespace Assembly

variable {σ P : Type}

/-- Looks that follow others look at what those let pass. -/
theorem passLooks_append (looks more : List (Look σ P × (P → Visit))) (p : P) (s : σ) :
    passLooks (looks ++ more) p s = andThen (passLooks looks p s) (passLooks more) := by
  induction looks generalizing p s with
  | nil => rfl
  | cons look looks ih =>
    rcases is : look.1 p s with ⟨⟨q, _ | status⟩, t⟩
    · rw [List.cons_append]
      simp only [passLooks, is, ih]
      cases refused : (passLooks looks q t).1.rejection <;> simp [andThen, refused]
    · simp [passLooks, is, andThen]

theorem request_append (l more : Pipeline σ) (p : RequestPart) (s : σ) :
    (l ++ more).request p s = andThen (l.request p s) more.request := by
  rw [Pipeline.request, List.filterMap_append, passLooks_append]
  rfl

theorem response_append (l more : Pipeline σ) (p : ResponsePart) (s : σ) :
    (l ++ more).response p s = andThen (more.response p s) l.response := by
  rw [Pipeline.response, List.reverse_append, List.filterMap_append, passLooks_append]
  rfl

theorem request_single (i : Interceptor σ) (p : RequestPart) (s : σ) :
    Pipeline.request [i] p s = passLooks i.requestLook.toList p s := by
  cases looks : i.requestLook <;> simp [Pipeline.request, looks]

theorem response_single (i : Interceptor σ) (p : ResponsePart) (s : σ) :
    Pipeline.response [i] p s = passLooks i.responseLook.toList p s := by
  cases looks : i.responseLook <;> simp [Pipeline.response, looks]

mutual

theorem request_leaves : (a : Assembly σ) → ∀ p s, a.request p s = a.leaves.request p s
  | .single i => fun p s => (request_single i p s).symm
  | .shared a => request_leaves a
  | .group members => requestAll_leaves members

theorem requestAll_leaves :
    (members : List (Assembly σ)) → ∀ p s, requestAll members p s = (leavesAll members).request p s
  | [] => fun p s => rfl
  | a :: rest => fun p s => by
    have others : requestAll rest = (leavesAll rest).request := funext fun p => funext (requestAll_leaves rest p)
    rw [requestAll, leavesAll, request_append, request_leaves a, others]

end

mutual

/-- A response part passes an assembly as it passes the leaves. -/
theorem response_leaves : (a : Assembly σ) → ∀ p s, a.response p s = a.leaves.response p s
  | .single i => fun p s => (response_single i p s).symm
  | .shared a => response_leaves a
  | .group members => responseAll_leaves members

theorem responseAll_leaves :
    (members : List (Assembly σ)) → ∀ p s, responseAll members p s = (leavesAll members).response p s
  | [] => fun p s => rfl
  | a :: rest => fun p s => by
    have first : a.response = a.leaves.response := funext fun p => funext (response_leaves a p)
    rw [responseAll, leavesAll, response_append, responseAll_leaves rest, first]

end

/-- **The ways of all parts.** Whatever interceptors remember, rewrite, replace or reject: parts pass a pipeline one
after the other, each through its interceptors in the order of its direction and up to the first rejection, and in no
other way. They pass interceptors that are grouped at will as they pass the pipeline of all leaves, with the same
results, rewritten parts and visits, and leave the same behind. -/
theorem passage_of_parts (l : Pipeline σ) (a : Assembly σ) (parts : List AnyPart) (s : σ) :
    (∀ rs u, passAll l.pass parts s = (rs, u) ↔ l.Courses parts s rs u) ∧
      passAll a.pass parts s = passAll a.leaves.pass parts s := by
  have same : a.pass = a.leaves.pass := by
    funext p s
    cases p with
    | request p => simp only [pass, Pipeline.pass, passAny, request_leaves]
    | response p => simp only [pass, Pipeline.pass, passAny, response_leaves]
  exact ⟨fun rs u => Pipeline.passAll_eq_iff, by rw [same]⟩

-- Of a group within a group, a response visits the last member first.
example (p : ResponsePart) :
    let watcher (name : String) : Assembly Unit := .single ⟨name, none, some fun p s => ((p, none), s)⟩
    let nested : Assembly Unit := .group [watcher "a", .group [watcher "b", watcher "c"]]
    (nested.response p ()).1.visits.map Visit.name = ["c", "b", "a"] := rfl

end Assembly

end CallLifecycle
