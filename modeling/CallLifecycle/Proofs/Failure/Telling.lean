import CallLifecycle.Failure

/-!
# What a failure is told as

* `Status.bare` — the code, the message, the details and the metadata of a status;
* `Failure.isKnown`, `Failure.StandsFor` — the failures that stand for a status on their own, and for which;
* `Failure.within` — a failure behind layers of which nothing is known but their texts and their cause;
* `Failure.Foremost`, `told_of_foremost` — the first known failure of a chain decides alone what the chain is told as;
* `Telling`, `telling_of_failure` — **what every failure is told as**, however long its chain is.
-/

namespace CallLifecycle

/-- A status without its cause: the code, the message, the details and the metadata. -/
def Status.bare (s : Status) : Status := { s with source := none }

namespace Failure

/-- The kinds of failures that stand for a status on their own. -/
def isKnown : Failure → Bool
  | status _ | violation _ | write _ | deadlineExceeded | connect _ | system .. => true
  | foreign .. => false

/-- The status that a known failure stands for: a status for all that it holds but its cause, and any other for its
text, under a code of its kind. -/
inductive StandsFor : Failure → Status → Prop
  | status (s : Status) : StandsFor (.status s) s.bare
  | violation (reason : String) : StandsFor (.violation reason) (.of .internal ("protocol violation: " ++ reason))
  | write (fault : WriteFailure) : StandsFor (.write fault) (.of fault.code fault.message)
  | deadlineExceeded :
    StandsFor .deadlineExceeded (.of .deadlineExceeded "deadline exceeded before the call completed")
  | connect (inner : Failure) : StandsFor (.connect inner) (.of .unavailable inner.display)
  | plain (fault : SystemFault) : StandsFor (.system fault none) (.of fault.code fault.message)
  | system (fault : SystemFault) (inner : Failure) :
    StandsFor (.system fault (some inner)) (.of fault.code inner.display)

/-- A failure behind layers of which nothing is known. The outermost layer, with its two texts, comes first. -/
def within (e : Failure) : List (String × String) → Failure
  | [] => e
  | layer :: layers => .foreign layer.1 layer.2 (some (within e layers))

theorem isSome_recognised (e : Failure) : e.recognised.isSome = e.isKnown := by cases e <;> rfl

theorem recognised_of_unknown {e : Failure} (h : e.isKnown = false) : e.recognised = none := by
  rw [← Option.not_isSome_iff_eq_none, isSome_recognised, h]
  nofun

theorem exists_standsFor {e : Failure} (h : e.isKnown = true) : ∃ s, StandsFor e s ∧ e.recognised = some s := by
  cases e with
  | status s => exact ⟨_, .status s, rfl⟩
  | violation reason => exact ⟨_, .violation reason, rfl⟩
  | write fault => exact ⟨_, .write fault, rfl⟩
  | deadlineExceeded => exact ⟨_, .deadlineExceeded, rfl⟩
  | connect inner => exact ⟨_, .connect inner, rfl⟩
  | system fault inner =>
    cases inner with
    | none => exact ⟨_, .plain fault, rfl⟩
    | some inner => exact ⟨_, .system fault inner, rfl⟩
  | foreign => cases h

/-! ## chains -/

theorem chain_eq (e : Failure) : ∃ rest, e.chain = e :: rest := by
  rw [chain]
  exact ⟨_, rfl⟩

/-- The first known failure of a chain. -/
structure Foremost (e f : Failure) : Prop where
  split : ∃ before after, e.chain = before ++ f :: after ∧ ∀ g ∈ before, g.isKnown = false
  known : f.isKnown = true

theorem exists_foremost {e : Failure} (h : ∃ f ∈ e.chain, f.isKnown = true) : ∃ f, Foremost e f := by
  obtain ⟨f, found⟩ := Option.isSome_iff_exists.mp (List.find?_isSome.mpr h)
  obtain ⟨known, before, after, split, unknown⟩ := List.find?_eq_some_iff_append.mp found
  exact ⟨f, ⟨before, after, split, by simpa using unknown⟩, known⟩

theorem told_of_foremost {e f : Failure} (h : Foremost e f) : ∃ s, StandsFor f s ∧ e.told = some s := by
  obtain ⟨⟨before, after, split, unknown⟩, known⟩ := h
  have silent : before.findSome? recognised = none :=
    List.findSome?_eq_none_iff.mpr fun g mem => recognised_of_unknown (unknown g mem)
  obtain ⟨s, stands, is⟩ := exists_standsFor known
  exact ⟨s, stands, by rw [told, split, List.findSome?_append, silent, Option.none_or, List.findSome?_cons, is]⟩

theorem told_of_unknown {e : Failure} (h : ∀ f ∈ e.chain, f.isKnown = false) : e.told = none :=
  List.findSome?_eq_none_iff.mpr fun f mem => recognised_of_unknown (h f mem)

/-- A chain behind layers of which nothing is known is told as it is without them. -/
theorem told_within (e : Failure) (layers : List (String × String)) : (e.within layers).told = e.told := by
  induction layers with
  | nil => rfl
  | cons layer layers ih =>
    rw [told, within, chain_of_source_some (s := e.within layers) rfl, List.findSome?_cons]
    exact ih

end Failure

/-! ## statuses -/

namespace Status

open Failure

theorem ofFailure_status (s : Status) : ofFailure (.status s) = s := rfl

variable {e : Failure}

theorem tryOfFailure_eq (other : ∀ s, e ≠ .status s) :
    tryOfFailure e = match e.told with
      | some s => .ok { s with source := some e }
      | none => .error e := by
  cases e with
  | status s => exact absurd rfl (other s)
  | _ => rfl

theorem source_ofFailure (other : ∀ s, e ≠ .status s) : (ofFailure e).source = some e := by
  rw [ofFailure, tryOfFailure_eq other]
  cases e.told <;> rfl

/-- Apart from the cause, a failure is told what its chain is told as, also if it is a status. -/
theorem bare_ofFailure {s : Status} (told : e.told = some s) : (ofFailure e).bare = s.bare := by
  cases e with
  | status r =>
    rw [Failure.told, chain, List.findSome?_cons] at told
    obtain rfl := Option.some.inj told
    rfl
  | _ =>
    simp only [ofFailure, tryOfFailure, told]
    rfl

/-- What becomes of a failure that is to be told. -/
structure Telling (e : Failure) : Prop where
  /-- A status is told as it is, its cause included. -/
  status : ∀ s, e = .status s → tryOfFailure e = .ok s ∧ ofFailure e = s
  /-- Any other failure is told what the first known failure of its chain stands for alone, and is the cause of that. -/
  known : (∀ s, e ≠ .status s) → (∃ f ∈ e.chain, f.isKnown = true) → ∃ f s, Foremost e f ∧ StandsFor f s ∧
    tryOfFailure e = .ok { s with source := some e } ∧ ofFailure e = { s with source := some e }
  /-- If none is known, it is given back, or told by its text. -/
  unknown : (∀ f ∈ e.chain, f.isKnown = false) →
    tryOfFailure e = .error e ∧ ofFailure e = { code := .unknown, message := e.display, source := some e }
  /-- The causes of its status are the failure and its chain. -/
  causes : (∀ s, e ≠ .status s) → (ofFailure e).causes = e.chain
  /-- Layers of which nothing is known change nothing else, if something in the chain is known. -/
  layered : (∃ f ∈ e.chain, f.isKnown = true) → ∀ layers, (ofFailure (e.within layers)).bare = (ofFailure e).bare
  /-- Told again, its status stays as it is. -/
  again : tryOfFailure (.status (ofFailure e)) = .ok (ofFailure e) ∧ ofFailure (.status (ofFailure e)) = ofFailure e

/-- **What every failure is told as.** A status is told as it is. Of any other failure the first one of its chain that
is known decides the status, and the failure with all its causes becomes the cause of that; where none is known it is
given back, or told by its text. So nothing is changed by layers around a failure, nor by telling it twice. -/
theorem telling_of_failure (e : Failure) : Telling e where
  status := by
    rintro s rfl
    exact ⟨rfl, ofFailure_status s⟩
  known := by
    intro other known
    obtain ⟨f, foremost⟩ := exists_foremost known
    obtain ⟨s, stands, told⟩ := told_of_foremost foremost
    have found : tryOfFailure e = .ok { s with source := some e } := by rw [tryOfFailure_eq other, told]
    exact ⟨f, s, foremost, stands, found, by rw [ofFailure, found]⟩
  unknown := by
    intro unknown
    have other : ∀ s, e ≠ .status s := by
      rintro s rfl
      obtain ⟨rest, chain⟩ := chain_eq (.status s)
      exact absurd (unknown (.status s) (by simp [chain])) (by simp [isKnown])
    have kept : tryOfFailure e = .error e := by rw [tryOfFailure_eq other, told_of_unknown unknown]
    exact ⟨kept, by rw [ofFailure, kept]⟩
  causes := by
    intro other
    have source : (Failure.status (ofFailure e)).source = some e := source_ofFailure other
    rw [causes, chain_of_source_some source, List.tail_cons]
  layered := by
    intro known layers
    obtain ⟨f, foremost⟩ := exists_foremost known
    obtain ⟨s, -, told⟩ := told_of_foremost foremost
    rw [bare_ofFailure told, bare_ofFailure ((told_within e layers).trans told)]
  again := ⟨rfl, ofFailure_status _⟩

-- A fault of the operating system hides the status that it was made of.
example (s : Status) : (ofFailure (.system .timedOut (some (.status s)))).code = .deadlineExceeded := by
  rw [ofFailure_of_recognised rfl (by simp)]
  rfl

end Status

end CallLifecycle
