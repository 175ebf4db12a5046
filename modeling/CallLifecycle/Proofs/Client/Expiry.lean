import CallLifecycle.Client.Deadline
import CallLifecycle.Proofs.Client.Outcome
import CallLifecycle.Proofs.Client.Stepping
import Mathlib.Data.List.Induction

/-!
# Calls whose time ran out

The task of a deadline runs beside its call. When it runs for the first time it sets its alarm; whenever it runs again
it looks whether the call is over, and then whether the alarm went off.

* `Watched`, `Tick` — a call with the task of its deadline, and the steps of both;
* `Watches`, `watches` — **all that a run of the task does**;
* `Sleeps`, `sleeps_after` — the alarm stays set as long as the call goes on;
* `Unended`, `live_or_expired` — a call that nothing else ends goes on or has expired;
* `over_of_elapsed` — **the time bounds every call**: when it elapsed and the task ran, the call is over, and if nothing
  ended it before it has expired;
* `WasSet`, `wasSet_of_ends` — **no call expires too soon**: the task set its alarm before, and it went off.
-/

namespace CallLifecycle.Client

/-- A call and the task of its deadline. -/
structure Watched (σ Out In W : Type) where
  call : Call σ Out In W
  task : DeadlineTask := .idle

inductive Tick (Out W : Type) where
  | act (a : Act Out W)
  /-- The task of the deadline runs. -/
  | watch (now : Instant) (w : W)

namespace Call

variable {σ Out In W : Type} {s : Setup σ Out In} {c : Call σ Out In W}

/-- The time behind which a task is to end the call that is started by a step. -/
def arming (s : Setup σ Out In) (c : Call σ Out In W) : Act Out W → Option Duration
  | .arm => if c.runtime then timeout s else none
  | _ => none

variable [DecidableEq W]

/-- All that a run of the task does. -/
inductive Watches (s : Setup σ Out In) (now : Instant) (w : W) (c : Call σ Out In W) (t : DeadlineTask) :
    Call σ Out In W × DeadlineTask → Prop
  /-- There is no task. -/
  | none (unset : t.alarm? now = none) : Watches s now w c t (c, .idle)
  /-- It ends with its call. -/
  | wasOver (alarm : Instant) (set : t.alarm? now = some alarm) (raised : c.done.raised = true) :
      Watches s now w c t (c.step s (.awaitDone w), .idle)
  | wentOff (alarm : Instant) (set : t.alarm? now = some alarm) (calm : c.done.raised = false) (due : alarm ≤ now) :
      Watches s now w c t ((c.step s (.awaitDone w)).step s .expire, .idle)
  | sleeps (alarm : Instant) (set : t.alarm? now = some alarm) (calm : c.done.raised = false) (ahead : ¬ alarm ≤ now) :
      Watches s now w c t (c.step s (.awaitDone w), .sleeping alarm)

theorem watches (s : Setup σ Out In) (now : Instant) (w : W) (c : Call σ Out In W) (t : DeadlineTask) :
    Watches s now w c t (c.watch now w t) := by
  unfold watch
  cases set : t.alarm? now with
  | none => exact .none set
  | some alarm =>
    cases raised : c.done.raised with
    | true =>
      have told : (c.pollDone w).2 = true := by simp [pollDone, Token.poll, raised]
      simp only [told, if_true]
      exact .wasOver alarm set raised
    | false =>
      have untold : (c.pollDone w).2 = false := by simp [pollDone, Token.poll, raised]
      simp only [untold, Bool.false_eq_true, if_false]
      split
      · exact .wentOff alarm set raised ‹_›
      · exact .sleeps alarm set raised ‹_›

end Call

namespace Watched

open Call

variable {σ Out In W : Type} {s : Setup σ Out In} {x : Watched σ Out In W} [DecidableEq W]

def step (s : Setup σ Out In) (x : Watched σ Out In W) : Tick Out W → Watched σ Out In W
  | .act a => { call := x.call.step s a, task := (x.call.arming s a).elim x.task .armed }
  | .watch now w => { call := (x.call.watch now w x.task).1, task := (x.call.watch now w x.task).2 }

def new (s : Setup σ Out In) (shape : Shape) (runtime : Bool) (surroundings : σ) : Watched σ Out In W :=
  { call := Call.new s shape runtime surroundings }

/-! ## what a step keeps -/

theorem exists_acts (s : Setup σ Out In) (x : Watched σ Out In W) (t : Tick Out W) :
    ∃ acts, (x.step s t).call = run (Call.step s) x.call acts := by
  cases t with
  | act a => exact ⟨[a], rfl⟩
  | watch now w =>
    show ∃ acts, (x.call.watch now w x.task).1 = run (Call.step s) x.call acts
    have watches := watches s now w x.call x.task
    generalize x.call.watch now w x.task = y at watches ⊢
    cases watches with
    | none => exact ⟨[], rfl⟩
    | wasOver | sleeps => exact ⟨[.awaitDone w], rfl⟩
    | wentOff => exact ⟨[.awaitDone w, .expire], rfl⟩

theorem exists_acts_after (s : Setup σ Out In) (x : Watched σ Out In W) (ticks : List (Tick Out W)) :
    ∃ acts, (run (step s) x ticks).call = run (Call.step s) x.call acts := by
  induction ticks generalizing x with
  | nil => exact ⟨[], rfl⟩
  | cons t ticks ih =>
    obtain ⟨acts, first⟩ := exists_acts s x t
    obtain ⟨more, rest⟩ := ih (x.step s t)
    exact ⟨acts ++ more, by rw [run_cons, rest, first, run_append]⟩

theorem going_of_step {t : Tick Out W} (going : Going (x.step s t).call) : Going x.call := by
  obtain ⟨acts, same⟩ := exists_acts s x t
  exact Call.going_of_after (same ▸ going)

theorem going_of_after {ticks : List (Tick Out W)} (going : Going (run (step s) x ticks).call) : Going x.call := by
  obtain ⟨acts, same⟩ := exists_acts_after s x ticks
  exact Call.going_of_after (same ▸ going)

theorem runtime_of_going {ticks : List (Tick Out W)} (going : Going (run (step s) x ticks).call) :
    (run (step s) x ticks).call.runtime = x.call.runtime := by
  obtain ⟨acts, same⟩ := exists_acts_after s x ticks
  rw [same] at going ⊢
  exact (keeps_after going).runtime

omit [DecidableEq W] in
/-- The task is told that its call is over only if it is. -/
def Heralds (x : Watched σ Out In W) : Prop := x.call.done.raised = true → ¬ Going x.call

theorem heralds_after (s : Setup σ Out In) (shape : Shape) (runtime : Bool) (surroundings : σ)
    (ticks : List (Tick Out W)) : Heralds (run (step s) (new s shape runtime surroundings) ticks) := by
  obtain ⟨acts, same⟩ := exists_acts_after s (new s shape runtime surroundings) ticks
  intro raised going
  rw [same] at raised going
  rw [(keeps_after going).raised] at raised
  cases raised

/-! ## the alarm stays set -/

/-- The task waits for its alarm as long as the call goes on. -/
def Sleeps (alarm : Instant) (x : Watched σ Out In W) : Prop := Going x.call → x.task = .sleeping alarm

theorem not_going_expire (s : Setup σ Out In) (c : Call σ Out In W) : ¬ Going (c.step s .expire) := by
  show ¬ Going c.expire
  unfold expire
  split
  · exact not_going_of_finished (finished_terminate _ _ _)
  · rintro ⟨alive, -⟩
    contradiction

section Alarm

variable {alarm : Instant}

/-- A run of the task leaves it asleep if the call goes on, and ends the call if the alarm went off. -/
theorem sleeps_watch (heralds : Heralds x) {now : Instant} (w : W)
    (set : Going x.call → x.task.alarm? now = some alarm) :
    Sleeps alarm (x.step s (.watch now w)) ∧ (alarm ≤ now → ¬ Going (x.step s (.watch now w)).call) := by
  -- A call that was over before the run stays so; only of one that went on the task has to look at the clock.
  by_cases before : Going x.call
  · have watches := watches s now w x.call x.task
    show (Going (x.call.watch now w x.task).1 → (x.call.watch now w x.task).2 = .sleeping alarm) ∧
      (alarm ≤ now → ¬ Going (x.call.watch now w x.task).1)
    generalize x.call.watch now w x.task = y at watches ⊢
    cases watches with
    | none unset => simp [set before] at unset
    | wasOver _ _ raised => exact absurd before (heralds raised)
    | wentOff =>
      have isOver := not_going_expire s (x.call.step s (.awaitDone w))
      exact ⟨fun going => absurd going isOver, fun _ => isOver⟩
    | sleeps alarm' set' calm ahead =>
      obtain rfl := Option.some.inj ((set before).symm.trans set')
      exact ⟨fun _ => rfl, fun due => absurd due ahead⟩
  · exact ⟨fun going => absurd (going_of_step going) before, fun _ going => before (going_of_step going)⟩

omit [DecidableEq W] in
theorem arming_of_ne (c : Call σ Out In W) {a : Act Out W} (other : a ≠ .arm) : c.arming s a = none := by
  cases a with
  | arm => exact absurd rfl other
  | _ => rfl

theorem sleeps_step (heralds : Heralds x) (sleeps : Sleeps alarm x) {t : Tick Out W} (other : t ≠ .act .arm) :
    Sleeps alarm (x.step s t) := by
  cases t with
  | act a =>
    intro going
    have none := arming_of_ne (s := s) x.call fun e : a = .arm => other (congrArg Tick.act e)
    show (x.call.arming s a).elim x.task .armed = .sleeping alarm
    rw [none]
    exact sleeps (going_of_step going)
  | watch now w =>
    refine (sleeps_watch heralds w ?_).1
    intro going
    rw [sleeps going]
    rfl

end Alarm

/-- The alarm is set by the first run of the task, and stays set as long as the call goes on. -/
theorem sleeps_after (s : Setup σ Out In) (shape : Shape) (runtime : Bool) (surroundings : σ)
    {early late : List (Tick Out W)} {started : Instant} {w : W} {d : Duration}
    (armed : Going (run (step s) (new s shape runtime surroundings) early).call →
      (run (step s) (new s shape runtime surroundings) early).task = .armed d)
    (once : .act .arm ∉ late) :
    Sleeps (started.alarmAfter d)
      (run (step s) (new s shape runtime surroundings) (early ++ .watch started w :: late)) := by
  induction late using List.reverseRecOn with
  | nil =>
    rw [run_append, run_cons, run_nil]
    refine (sleeps_watch (heralds_after s shape runtime surroundings early) w ?_).1
    intro going
    rw [armed going]
    rfl
  | append_singleton late t ih =>
    rw [List.mem_append, List.mem_singleton, not_or] at once
    have heralds := heralds_after s shape runtime surroundings (early ++ .watch started w :: late)
    have step := sleeps_step (s := s) heralds (ih once.1) (Ne.symm once.2)
    simpa using step

theorem armed_after {d : Duration} (armed : x.task = .armed d) {calm : List (Act Out W)} (once : .arm ∉ calm) :
    (run (step s) x (calm.map .act)).task = .armed d := by
  induction calm generalizing x with
  | nil => exact armed
  | cons a calm ih =>
    rw [List.mem_cons, not_or] at once
    apply ih _ once.2
    show (x.call.arming s a).elim x.task .armed = .armed d
    rw [arming_of_ne x.call (Ne.symm once.1)]
    exact armed

/-- A call that goes on behind the start of its task on a runtime is watched by it. -/
theorem armed_of_arm {shape : Shape} {surroundings : σ} {d : Duration} (timeout : timeout s = some d)
    {early : List (Tick Out W)} {calm : List (Act Out W)} (once : .arm ∉ calm)
    (going : Going (run (step s) (new s shape true surroundings) (early ++ .act .arm :: calm.map .act)).call) :
    (run (step s) (new s shape true surroundings) (early ++ .act .arm :: calm.map .act)).task = .armed d := by
  rw [run_append, run_cons] at going ⊢
  apply armed_after _ once
  have before := going_of_step (going_of_after going)
  show (((run (step s) (new s shape true surroundings) early).call.arming s .arm).elim _ .armed) = DeadlineTask.armed d
  rw [arming, runtime_of_going before]
  show (Call.timeout s).elim _ DeadlineTask.armed = .armed d
  rw [timeout]
  rfl

/-! ## calls that nothing else ends -/

/-- No step of a run ends the call, but for the task of its deadline. -/
def Unended (s : Setup σ Out In) : Watched σ Out In W → List (Tick Out W) → Prop
  | _, [] => True
  | x, .act a :: ticks => (Going x.call → x.call.ending? s a = none) ∧ Unended s (x.step s (.act a)) ticks
  | x, .watch now w :: ticks => Unended s (x.step s (.watch now w)) ticks

omit [DecidableEq W] in
def Expired (c : Call σ Out In W) : Prop := ∃ o, Over c o ∧ o.status = Status.ofFailure .deadlineExceeded

theorem expired_act {c : Call σ Out In W} (h : Expired c) (s : Setup σ Out In) (a : Act Out W) :
    Expired (c.step s a) := by
  obtain ⟨o, isOver, status⟩ := h
  refine ⟨o.behind a, over_step isOver a, ?_⟩
  cases a <;> exact status

theorem live_or_expired_watch (h : Live x.call ∨ Expired x.call) (now : Instant) (w : W) :
    Live (x.step s (.watch now w)).call ∨ Expired (x.step s (.watch now w)).call := by
  have looked : Live (x.call.step s (.awaitDone w)) ∨ Expired (x.call.step s (.awaitDone w)) := by
    rcases h with live | expired
    · exact .inl (live_step_of_isQuiet live rfl)
    · exact .inr (expired_act expired s _)
  have watches := watches s now w x.call x.task
  show Live (x.call.watch now w x.task).1 ∨ Expired (x.call.watch now w x.task).1
  generalize x.call.watch now w x.task = y at watches ⊢
  cases watches with
  | none => exact h
  | wasOver | sleeps => exact looked
  | wentOff =>
    rcases looked with live | expired
    · have goes := goes_step (s := s) live .expire
      by_cases alive : (x.call.step s (.awaitDone w)).alive = true
      · have ends : (x.call.step s (.awaitDone w)).ending? s .expire =
            some (.terminated (Status.ofFailure .deadlineExceeded)) := by simp [ending?, alive]
        rw [ends] at goes
        exact .inr ⟨_, goes.past, rfl⟩
      · have stays : (x.call.step s (.awaitDone w)).ending? s .expire = none := by simp [ending?, alive]
        rw [stays] at goes
        exact .inl goes
    · exact .inr (expired_act expired s .expire)

theorem live_or_expired_act (h : Live x.call ∨ Expired x.call) {a : Act Out W}
    (unended : Going x.call → x.call.ending? s a = none) :
    Live (x.step s (.act a)).call ∨ Expired (x.step s (.act a)).call := by
  rcases h with live | expired
  · left
    have goes := goes_step (s := s) live a
    have stays : x.call.ending? s a = none := by
      by_cases alive : x.call.alive = true
      · exact unended ⟨alive, live.finished⟩
      · simp [ending?, alive]
    rwa [stays] at goes
  · exact .inr (expired_act expired s a)

theorem live_or_expired {ticks : List (Tick Out W)} (h : Live x.call ∨ Expired x.call)
    (unended : Unended s x ticks) : Live (run (step s) x ticks).call ∨ Expired (run (step s) x ticks).call := by
  induction ticks generalizing x with
  | nil => exact h
  | cons t ticks ih =>
    cases t with
    | act a => exact ih (live_or_expired_act h unended.1) unended.2
    | watch now w => exact ih (live_or_expired_watch h now w) unended

/-! ## the time bounds every call -/

/-- **The time bounds every call.** When it elapsed behind the first run of the task that was started for it, and the
task runs, the call is over if somebody holds it; and if nothing ended it before it has expired. -/
theorem over_of_elapsed (s : Setup σ Out In) (shape : Shape) (surroundings : σ) {d : Duration}
    (timeout : timeout s = some d) {early late : List (Tick Out W)} {calm : List (Act Out W)} {started now : Instant}
    {v w : W} (once : .arm ∉ calm ∧ .act .arm ∉ late) (elapsed : started + d.nanos ≤ now)
    (tellable : now ≤ Instant.latest) :
    let ticks := early ++ .act .arm :: calm.map .act ++ .watch started v :: late ++ [.watch now w]
    let c := (run (step s) (new s shape true surroundings) ticks).call
    c.alive = true → c.finished = true ∧
      (Unended s (new s shape true surroundings) ticks →
        ∀ k, (c.pollStatus k).2 = .ready (Status.ofFailure .deadlineExceeded)) := by
  intro ticks c alive
  -- The alarm goes off no later than the time elapses, as long as the clock can tell that instant.
  have due : started.alarmAfter d ≤ now :=
    Nat.le_trans (Instant.alarmAfter_le (Nat.le_trans elapsed tellable)) elapsed
  have isOver : ¬ Going c := by
    have heralds := heralds_after s shape true surroundings
      (early ++ .act .arm :: calm.map .act ++ .watch started v :: late)
    have sleeps : Sleeps (started.alarmAfter d) (run (step s) (new s shape true surroundings)
        (early ++ .act .arm :: calm.map .act ++ .watch started v :: late)) :=
      sleeps_after s shape true surroundings (armed_of_arm timeout once.1) once.2
    show ¬ Going (run (step s) (new s shape true surroundings)
      (early ++ .act .arm :: calm.map .act ++ .watch started v :: late ++ [.watch now w])).call
    rw [run_append, run_cons, run_nil]
    refine (sleeps_watch (s := s) heralds w ?_).2 due
    intro going
    rw [sleeps going]
    rfl
  have finished : c.finished = true := by
    by_contra unfinished
    exact isOver ⟨alive, by simpa using unfinished⟩
  refine ⟨finished, fun unended k => ?_⟩
  rcases live_or_expired (.inl (live_new s shape true surroundings)) unended with live | ⟨o, past, status⟩
  · exact absurd (live.finished.symm.trans finished) nofun
  · rw [← status]
    exact past.yields.status k

/-! ## nothing expires too soon -/

theorem exists_arm_of_armed (s : Setup σ Out In) (shape : Shape) (runtime : Bool) (surroundings : σ)
    {ticks : List (Tick Out W)} {d : Duration}
    (armed : (run (step s) (new s shape runtime surroundings) ticks).task = .armed d) :
    timeout s = some d ∧ .act .arm ∈ ticks := by
  induction ticks using List.reverseRecOn with
  | nil => cases armed
  | append_singleton ticks t ih =>
    rw [run_append, run_cons, run_nil] at armed
    generalize run (step s) (new s shape runtime surroundings) ticks = x at ih armed
    have before (same : x.task = .armed d) : timeout s = some d ∧ .act .arm ∈ ticks ++ [t] := by
      obtain ⟨timeout, mem⟩ := ih same
      exact ⟨timeout, by simp [mem]⟩
    cases t with
    | watch now w =>
      change (x.call.watch now w x.task).2 = .armed d at armed
      have watches := watches s now w x.call x.task
      generalize x.call.watch now w x.task = y at watches armed
      cases watches <;> cases armed
    | act a =>
      change (x.call.arming s a).elim x.task .armed = .armed d at armed
      -- Only the step that starts the task makes it armed; before that it was as the induction hypothesis tells.
      by_cases arms : a = .arm
      · subst arms
        cases starts : x.call.arming s .arm with
        | none =>
          rw [starts] at armed
          exact before armed
        | some d' =>
          rw [starts] at armed
          cases armed
          change (if x.call.runtime = true then timeout s else none) = some d at starts
          split at starts
          · exact ⟨starts, by simp⟩
          · cases starts
      · rw [arming_of_ne x.call arms] at armed
        exact before armed

/-- A task was started in a run, and set its alarm when it ran for the first time. -/
inductive WasSet (s : Setup σ Out In) (ticks : List (Tick Out W)) (alarm : Instant) : Prop
  | mk (early : List (Tick Out W)) (started : Instant) (w : W) (late : List (Tick Out W)) (d : Duration)
      (split : ticks = early ++ .watch started w :: late) (timeout : timeout s = some d) (arms : .act .arm ∈ early)
      (sets : alarm = started.alarmAfter d) : WasSet s ticks alarm

omit [DecidableEq W] in
theorem WasSet.more {ticks : List (Tick Out W)} {alarm : Instant} (h : WasSet s ticks alarm)
    (more : List (Tick Out W)) : WasSet s (ticks ++ more) alarm := by
  obtain ⟨early, started, w, late, d, rfl, timeout, arms, sets⟩ := h
  exact ⟨early, started, w, late ++ more, d, by simp, timeout, arms, sets⟩

/-- The alarm that the task looks at when it runs was set before, or is set now. -/
theorem wasSet_of_alarm? (s : Setup σ Out In) (shape : Shape) (runtime : Bool) (surroundings : σ)
    {ticks : List (Tick Out W)} {alarm now : Instant} (w : W)
    (before : (run (step s) (new s shape runtime surroundings) ticks).task = .sleeping alarm → WasSet s ticks alarm)
    (set : (run (step s) (new s shape runtime surroundings) ticks).task.alarm? now = some alarm) :
    WasSet s (ticks ++ [.watch now w]) alarm := by
  have armed (d : Duration) (is : (run (step s) (new s shape runtime surroundings) ticks).task = .armed d) :
      timeout s = some d ∧ .act .arm ∈ ticks := exists_arm_of_armed s shape runtime surroundings is
  generalize (run (step s) (new s shape runtime surroundings) ticks).task = t at armed before set
  cases t with
  | idle => cases set
  | armed d =>
    obtain ⟨timeout, arms⟩ := armed d rfl
    exact ⟨ticks, now, w, [], d, rfl, timeout, arms, (Option.some.inj set).symm⟩
  | sleeping alarm' =>
    obtain rfl : alarm' = alarm := Option.some.inj set
    exact (before rfl).more _

theorem wasSet_of_sleeping (s : Setup σ Out In) (shape : Shape) (runtime : Bool) (surroundings : σ)
    {ticks : List (Tick Out W)} {alarm : Instant}
    (sleeps : (run (step s) (new s shape runtime surroundings) ticks).task = .sleeping alarm) :
      WasSet s ticks alarm := by
  induction ticks using List.reverseRecOn with
  | nil => cases sleeps
  | append_singleton ticks t ih =>
    have set (now : Instant) (w : W)
        (looked : (run (step s) (new s shape runtime surroundings) ticks).task.alarm? now = some alarm) :
        WasSet s (ticks ++ [.watch now w]) alarm := wasSet_of_alarm? s shape runtime surroundings w ih looked
    rw [run_append, run_cons, run_nil] at sleeps
    generalize run (step s) (new s shape runtime surroundings) ticks = x at ih set sleeps
    cases t with
    | act a =>
      change (x.call.arming s a).elim x.task .armed = .sleeping alarm at sleeps
      cases starts : x.call.arming s a with
      | none =>
        rw [starts] at sleeps
        exact (ih sleeps).more _
      | some d =>
        rw [starts] at sleeps
        cases sleeps
    | watch now w =>
      change (x.call.watch now w x.task).2 = .sleeping alarm at sleeps
      have watches := watches s now w x.call x.task
      generalize x.call.watch now w x.task = y at watches sleeps
      cases watches with
      | none | wasOver | wentOff => cases sleeps
      | sleeps alarm' looked =>
        cases sleeps
        exact set now w looked

/-- **No call expires too soon**: a run of the task that ends the call comes no sooner than its alarm, which was set by
the first run of the task. -/
theorem wasSet_of_ends (s : Setup σ Out In) (shape : Shape) (runtime : Bool) (surroundings : σ)
    {ticks : List (Tick Out W)} {now : Instant} {w : W}
    (going : Going (run (step s) (new s shape runtime surroundings) ticks).call)
    (ends : ¬ Going (run (step s) (new s shape runtime surroundings) (ticks ++ [.watch now w])).call) :
    ∃ alarm, WasSet s (ticks ++ [.watch now w]) alarm ∧ alarm ≤ now := by
  have set (alarm : Instant)
      (looked : (run (step s) (new s shape runtime surroundings) ticks).task.alarm? now = some alarm) :
      WasSet s (ticks ++ [.watch now w]) alarm :=
    wasSet_of_alarm? s shape runtime surroundings w (wasSet_of_sleeping s shape runtime surroundings) looked
  rw [run_append, run_cons, run_nil] at ends
  generalize run (step s) (new s shape runtime surroundings) ticks = x at going ends set
  change ¬ Going (x.call.watch now w x.task).1 at ends
  have watches := watches s now w x.call x.task
  generalize x.call.watch now w x.task = y at watches ends
  cases watches with
  | wentOff alarm looked calm due => exact ⟨alarm, set alarm looked, due⟩
  | none | wasOver | sleeps => exact absurd going ends

end Watched

end CallLifecycle.Client
