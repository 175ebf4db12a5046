import Mathlib.Data.List.Induction

/-!
# Runs

What many steps make of a state, and what they yield. Calls, writers and channels go on in steps, each of its own kind;
what is said here holds of all of them.

* `run` — many steps, one behind the other;
* `run_induction` — what every step keeps, a run keeps;
* `gather` — what the steps of a run yield, in order;
* `mem_gather` — what is gathered was yielded by one of the steps, in the state behind those ahead of it.
-/

namespace CallLifecycle

variable {S A α : Type}

/-- Many steps. -/
def run (step : S → A → S) (x : S) (acts : List A) : S := acts.foldl step x

/-- What is gathered in a run, step by step. -/
def gather (step : S → A → S) (f : S → A → List α) (x : S) : List A → List α
  | [] => []
  | a :: rest => f x a ++ gather step f (step x a) rest

section

variable (step : S → A → S) (f : S → A → List α) (x : S) (acts more : List A) (a : A)

@[simp] theorem run_nil : run step x [] = x := rfl

@[simp] theorem run_cons : run step x (a :: acts) = run step (step x a) acts := rfl

@[simp] theorem run_append : run step x (acts ++ more) = run step (run step x acts) more := List.foldl_append

theorem run_snoc : run step x (acts ++ [a]) = step (run step x acts) a := by rw [run_append, run_cons, run_nil]

variable {step x acts} in
/-- What holds at the start and is kept by each step, holds behind all of them. A step may use what is known of the run
that led to it. -/
theorem run_induction {P : S → Prop} (start : P x)
    (kept : ∀ early a, P (run step x early) → P (step (run step x early) a)) : P (run step x acts) := by
  induction acts using List.reverseRecOn with
  | nil => exact start
  | append_singleton early a ih =>
    rw [run_snoc]
    exact kept early a ih

theorem gather_append :
    gather step f x (acts ++ more) = gather step f x acts ++ gather step f (run step x acts) more := by
  induction acts generalizing x with
  | nil => rfl
  | cons a acts ih => rw [List.cons_append, gather, gather, ih, run_cons, List.append_assoc]

theorem gather_snoc : gather step f x (acts ++ [a]) = gather step f x acts ++ f (run step x acts) a := by
  rw [gather_append, gather, gather, List.append_nil]

theorem gather_sub : gather step f x acts <+: gather step f x (acts ++ more) :=
  ⟨_, (gather_append step f x acts more).symm⟩

end

theorem mem_gather {step : S → A → S} {f : S → A → List α} {x : S} {acts : List A} {y : α} :
    y ∈ gather step f x acts ↔ ∃ early a late, acts = early ++ a :: late ∧ y ∈ f (run step x early) a := by
  induction acts generalizing x with
  | nil => simp [gather]
  | cons b acts ih =>
    rw [gather, List.mem_append, ih]
    constructor
    · rintro (mem | ⟨early, a, late, rfl, mem⟩)
      · exact ⟨[], b, acts, rfl, mem⟩
      · exact ⟨b :: early, a, late, rfl, mem⟩
    · rintro ⟨early, a, late, split, mem⟩
      cases early with
      | nil =>
        obtain ⟨rfl, rfl⟩ := List.cons.inj split
        exact .inl mem
      | cons c early =>
        obtain ⟨rfl, rfl⟩ := List.cons.inj split
        exact .inr ⟨early, a, late, rfl, mem⟩

end CallLifecycle
