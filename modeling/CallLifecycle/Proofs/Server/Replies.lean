import CallLifecycle.Proofs.Server.Release
import Mathlib.Data.List.Nodup

/-!
# The settings of a handler and their answers

A handler orders settings, which the loop carries out or refuses one by one, and awaits their answers.

* `Settlement`, `settlements` — the settings that the loop carried out or refused in a run;
* `issued` — the settings that the handler ordered, with the numbers of their answers;
* `Docketed`, `docketed_after` — **in every run** the settings are taken up in the order in which they were issued, and
  each is answered once, under its number;
* `pollReply_eq_ok_iff` — the handler finds a setting answered well just if the loop carried it out.
-/

namespace CallLifecycle.Server

/-- A setting that the loop carried out or refused, with the number of the answer. -/
structure Settlement where
  number : Nat
  setting : Setting
  answer : Except Status Unit

def Settlement.order (y : Settlement) : Nat × Setting := (y.number, y.setting)

def Settlement.reply (y : Settlement) : Nat × Except Status Unit := (y.number, y.answer)

def Command.order? : Command → Option (Nat × Setting)
  | .set number setting => some (number, setting)
  | .abort _ => none

namespace Call

variable {σ Out In W : Type} {s : Setup σ Out In} {c c' : Call σ Out In W}

/-- The setting that the loop carries out or refuses at a step. -/
def settles (c : Call σ Out In W) : Act Out W → List Settlement
  | .turn _ =>
    if c.ended || c.progress.isCompleted then []
    else
      match c.events, c.commands with
      | [], .set number setting :: _ => [⟨number, setting, (c.apply setting).2⟩]
      | _, _ => []
  | _ => []

def issues (c : Call σ Out In W) : Act Out W → List (Nat × Setting)
  | .deed (.set setting) => if c.hasStarted && !c.ended then [(c.nextReply, setting)] else []
  | _ => []

section Runs

variable [DecidableEq W]

def settlements (s : Setup σ Out In) (c : Call σ Out In W) (acts : List (Act Out W)) : List Settlement :=
  gather (step s) settles c acts

def issued (s : Setup σ Out In) (c : Call σ Out In W) (acts : List (Act Out W)) : List (Nat × Setting) :=
  gather (step s) issues c acts

end Runs

/-! ## turns that take up a setting -/

theorem settles_of_set (going : Running c) (now : Instant) (idle : c.events = []) {number : Nat} {setting : Setting}
    {rest : List Command} (orders : c.commands = .set number setting :: rest) :
    c.settles (.turn now : Act Out W) = [⟨number, setting, (c.apply setting).2⟩] := by
  simp [settles, going.1, Progress.isCompleted, going.2, idle, orders]

theorem settles_eq_cons {a : Act Out W} {y : Settlement} {ys : List Settlement} (h : c.settles a = y :: ys) :
    (∃ now, a = .turn now) ∧ Running c ∧ c.events = [] ∧ ys = [] ∧ y.answer = (c.apply y.setting).2 ∧
      ∃ rest, c.commands = .set y.number y.setting :: rest := by
  unfold settles at h
  split at h
  · rename_i now
    split at h
    · cases h
    · rename_i going
      simp only [Bool.or_eq_true, not_or, Bool.not_eq_true] at going
      split at h
      · rename_i number setting rest idle orders
        obtain ⟨rfl, rfl⟩ := List.cons.inj h
        exact ⟨⟨now, rfl⟩, ⟨going.1, by simpa [Progress.isCompleted] using going.2⟩, idle, rfl, rfl, rest, orders⟩
      · cases h
  · cases h

theorem settles_of_not_running (isOver : ¬ Running c) (a : Act Out W) : c.settles a = [] := by
  cases h : c.settles a with
  | nil => rfl
  | cons y ys => exact absurd (settles_eq_cons h).2.1 isOver

theorem apply_of_commands (c : Call σ Out In W) (commands : List Command) (setting : Setting) :
    { c with commands }.apply setting = ({ (c.apply setting).1 with commands }, (c.apply setting).2) := by
  unfold apply
  split
  · rfl
  · cases setting <;> simp only
    split <;> rfl

/-- A turn that takes a setting up carries it out or refuses it, answers, and does nothing else. -/
theorem turn_of_settles {now : Instant} {y : Settlement} (h : c.settles (.turn now : Act Out W) = [y]) :
    ∃ rest, c.commands = .set y.number y.setting :: rest ∧
      c.turn s now = some { (c.apply y.setting).1 with
        commands := rest, replies := c.replies ++ [y.reply], replyWaiters := [],
        trace := c.trace ++ c.replyWaiters.map .woke } := by
  obtain ⟨-, going, idle, -, answer, rest, orders⟩ := settles_eq_cons h
  obtain ⟨headers, trailers, compressionDefault, e⟩ := apply_eq c y.setting
  refine ⟨rest, orders, ?_⟩
  have turn : c.turn s now = some ({ c with commands := rest }.onCommand s (.set y.number y.setting)) := by
    simp [Call.turn, going.1, Progress.isCompleted, going.2, idle, orders]
  rw [turn]
  simp only [onCommand, apply_of_commands, e, emit_eq, Settlement.reply, answer]

theorem settles_of_turn {now : Instant} (turn : c.turn s now = none) : c.settles (.turn now : Act Out W) = [] := by
  cases settles : c.settles (.turn now : Act Out W) with
  | nil => rfl
  | cons y ys =>
    obtain rfl := (settles_eq_cons settles).2.2.2.1
    obtain ⟨rest, -, taken⟩ := turn_of_settles (s := s) settles
    cases turn.symm.trans taken

theorem settles_of_other {a : Act Out W} (other : ∀ now, a ≠ .turn now) : c.settles a = [] := by
  cases a with
  | turn now => exact absurd rfl (other now)
  | _ => rfl

theorem apply_eq_ok_iff (going : Running c) (setting : Setting) :
    (c.apply setting).2 = .ok () ↔
      ((∃ m, setting = .headers m) → c.progress.outbound = .headersPending) := by
  have handler : c.progress.isCompleted = false := by simpa [Progress.isCompleted] using going.2
  cases setting with
  | headers m => by_cases pending : c.progress.outbound = .headersPending <;> simp [apply, handler, pending]
  | trailers m => simp [apply, handler]
  | compression enabled => simp [apply, handler]

theorem apply_of_refused {setting : Setting} {e : Status} (refused : (c.apply setting).2 = .error e) :
    (c.apply setting).1 = c := by
  unfold apply at refused ⊢
  split at refused
  · rename_i completed
    rw [if_pos completed]
  · rename_i going
    rw [if_neg going]
    cases setting with
    | headers m =>
      simp only at refused ⊢
      split at refused
      · cases refused
      · rename_i late
        rw [if_neg late]
    | trailers m => cases refused
    | compression enabled => cases refused

/-! ## the docket of a run -/

/-- The docket of a call: of the settings that were `issued`, some were `settled`. -/
structure Docketed (c : Call σ Out In W) (issued : List (Nat × Setting)) (settled : List Settlement) : Prop where
  replies : c.replies = settled.map Settlement.reply
  numbers : issued.map Prod.fst = List.range c.nextReply
  sub : settled.map Settlement.order <+: issued
  queue : c.ended = false → issued = settled.map Settlement.order ++ c.commands.filterMap Command.order?

theorem docketed_new (s : Setup σ Out In) (x : σ) : Docketed (new s x : Call σ Out In W) [] [] :=
  ⟨rfl, rfl, List.prefix_rfl, fun _ => rfl⟩

section Step

variable {issued : List (Nat × Setting)} {settled : List Settlement}

theorem Docketed.of_same (h : Docketed c issued settled) (ended : c'.ended = false → c.ended = false)
    (replies : c'.replies = c.replies) (nextReply : c'.nextReply = c.nextReply)
    (commands : c'.ended = false → c'.commands.filterMap Command.order? = c.commands.filterMap Command.order?) :
    Docketed c' issued settled :=
  ⟨replies.trans h.replies, nextReply ▸ h.numbers, h.sub, fun going => by rw [commands going, h.queue (ended going)]⟩

theorem Docketed.of_docket (h : Docketed c issued settled) (ended : c'.ended = false → c.ended = false)
    (same : c'.docket = c.docket) : Docketed c' issued settled := by
  simp only [docket, Prod.mk.injEq] at same
  obtain ⟨replies, commands, nextReply⟩ := same
  exact h.of_same ended replies nextReply fun _ => by rw [commands]

/-- A loop that is cut off forgets what waits, but not what was answered. -/
theorem replies_of_cutsOff (live : Live c) {now : Instant} (cut : CutsOff s now c) (turn : c.turn s now = some c') :
    c'.ended = true ∧ c'.replies = c.replies ∧ c'.nextReply = c.nextReply := by
  obtain ⟨-, idle, orders, p, rest, m, inbox, admits, overruns⟩ := cut
  have part := onPart_of_admits (s := s) (c := { c with inbox := rest }) (live.of_queues c.events c.commands rest id)
    now ⟨admits.idle, admits.passed, admits.part⟩
  rw [turn_of_inbox live now idle orders inbox, onInbound, part, startHandler_of_overruns overruns] at turn
  obtain rfl := Option.some.inj turn
  simp only [crash, release]
  split <;> exact ⟨rfl, rfl, rfl⟩

theorem Docketed.settle (h : Docketed c issued settled) {y : Settlement} {rest : List Command}
    (orders : c.commands = .set y.number y.setting :: rest) (going : c.ended = false)
    (docket : c'.docket = (c.replies ++ [y.reply], rest, c.nextReply)) : Docketed c' issued (settled ++ [y]) := by
  simp only [Call.docket, Prod.mk.injEq] at docket
  obtain ⟨replies, commands, nextReply⟩ := docket
  have queue : issued = (settled ++ [y]).map Settlement.order ++ c'.commands.filterMap Command.order? := by
    rw [h.queue going, orders, commands]
    simp [Command.order?, Settlement.order]
  refine ⟨?_, nextReply ▸ h.numbers, ?_, fun _ => queue⟩
  · rw [replies, h.replies, List.map_append]
    rfl
  · rw [queue]
    exact List.prefix_append _ _

theorem Docketed.turn (h : Docketed c issued settled) (live : Live c) {now : Instant} (turn : c.turn s now = some c') :
    Docketed c' issued (settled ++ c.settles (.turn now : Act Out W)) := by
  have going : Running c := ⟨live.ended, live.handler⟩
  cases settles : c.settles (.turn now : Act Out W) with
  | cons y ys =>
    obtain ⟨-, -, idle, rfl, answer, -⟩ := settles_eq_cons settles
    obtain ⟨rest, orders, same⟩ := turn_of_settles (s := s) settles
    obtain ⟨headers, trailers, compressionDefault, e⟩ := apply_eq c y.setting
    obtain rfl := Option.some.inj (turn.symm.trans same)
    exact h.settle orders live.ended (by rw [e]; rfl)
  | nil =>
    rw [List.append_nil]
    rcases (Call.turned live turn).crashed_eq with whole | cut
    · -- A turn that cuts the loop off shows in `crashed`; any other leaves the loop open.
      have open' : c'.ended = false := by
        by_contra stopped
        have crashes := crashes_of_turn live turn (by simpa using stopped)
        simp [crashes.crashed, live.crashed] at whole
      rcases docket_turn turn open' with same | ⟨o, rest, idle, orders, rfl⟩
      · exact h.of_docket (fun _ => live.ended) same
      · cases o with
        | set number setting => simp [settles_of_set going now idle orders] at settles
        | abort reason =>
          have same := kept_docket.cancel s { c with commands := rest } (.violation reason)
          simp only [docket, Prod.mk.injEq] at same
          obtain ⟨replies, commands, nextReply⟩ := same
          refine h.of_same (fun _ => live.ended) replies nextReply fun _ => ?_
          rw [onCommand, commands, orders]
          rfl
    · obtain ⟨stopped, replies, nextReply⟩ := replies_of_cutsOff live cut turn
      exact h.of_same (fun going => by simp [stopped] at going) replies nextReply fun going => by
        simp [stopped] at going

variable [DecidableEq W]

theorem Docketed.perform (h : Docketed c issued settled) (started : c.hasStarted = true) (d : Deed Out W) :
    Docketed (c.perform d) (issued ++ c.issues (.deed d)) settled := by
  by_cases sets : ∃ setting, d = .set setting
  · obtain ⟨setting, rfl⟩ := sets
    cases ended : c.ended with
    | true => simpa [Call.perform, issue, issues, ended] using h
    | false =>
      simp only [Call.perform, issue, issues, started, ended, Bool.not_false, Bool.and_self, if_true, emit_eq,
        Bool.false_eq_true, if_false]
      refine ⟨h.replies, ?_, h.sub.trans (List.prefix_append _ _), fun _ => ?_⟩
      · rw [List.map_append, h.numbers, List.range_succ]
        rfl
      · rw [h.queue ended, List.filterMap_append, List.append_assoc]
        rfl
  · have nothing : c.issues (.deed d) = [] := by
      cases d with
      | set setting => exact absurd ⟨setting, rfl⟩ sets
      | _ => rfl
    rw [nothing, List.append_nil]
    by_cases aborts : ∃ reason, d = .abort reason
    · obtain ⟨reason, rfl⟩ := aborts
      simp only [Call.perform, Call.abort]
      split
      · exact h
      · refine h.of_same id rfl rfl fun _ => ?_
        simp [emit_eq, Command.order?]
    · obtain ⟨ended, docket⟩ := docket_perform c (fun setting e => sets ⟨setting, e⟩) fun reason e => aborts ⟨reason, e⟩
      exact h.of_docket (fun going => ended ▸ going) docket

theorem Docketed.step (h : Docketed c issued settled) {taken done : List (Outbound Out)} {said : List ResponsePart}
    (ledger : Ledger s c taken said done) (a : Act Out W) :
    Docketed (c.step s a) (issued ++ c.issues a) (settled ++ c.settles a) := by
  cases outside : a.isOutside with
  | true =>
    obtain ⟨inbox, handles, completionWaiters, es, -, same⟩ := step_of_outside s c outside
    have nothing : c.issues a = [] ∧ c.settles a = [] := by
      cases a with
      | turn | conclude | deed => cases outside
      | _ => exact ⟨rfl, rfl⟩
    rw [nothing.1, nothing.2, List.append_nil, List.append_nil, same]
    exact h.of_same id rfl rfl fun _ => rfl
  | false =>
    cases a with
    | turn now =>
      have unissued : c.issues (.turn now : Act Out W) = [] := rfl
      rw [unissued, List.append_nil]
      cases turn : c.turn s now with
      | some c' =>
        simp only [Call.step, turn, Option.getD_some]
        exact h.turn (ledger.live_of_turn turn).1 turn
      | none => simpa [Call.step, turn, settles_of_turn turn] using h
    | conclude =>
      have nothing : c.issues (.conclude : Act Out W) = [] ∧ c.settles (.conclude : Act Out W) = [] := ⟨rfl, rfl⟩
      rw [nothing.1, nothing.2, List.append_nil, List.append_nil]
      rcases concluded_conclude c with same | ⟨-, completed, before, ended, -⟩
      · simpa only [Call.step, same] using h
      · rw [Call.step]
        refine h.of_same (fun going => by simp [ended] at going) ?_ ?_ fun going => by simp [ended] at going
        · rw [conclude_eq before completed]
        · rw [conclude_eq before completed]
    | deed d =>
      have unsettled : c.settles (.deed d) = [] := rfl
      rw [unsettled, List.append_nil, Call.step]
      split
      · rename_i started
        exact h.perform started d
      · rename_i unstarted
        have nothing : c.issues (.deed d) = [] := by cases d <;> simp [issues, unstarted]
        simpa [nothing] using h
    | _ => cases outside

/-- **The docket of every run.** -/
theorem docketed_after (s : Setup σ Out In) (x : σ) (acts : List (Act Out W)) :
    Docketed (run (step s) (new s x) acts) ((new s x : Call σ Out In W).issued s acts)
      ((new s x).settlements s acts) := by
  induction acts using List.reverseRecOn with
  | nil => exact docketed_new s x
  | append_singleton acts a ih =>
    obtain ⟨said, done, ledger⟩ := ledger_after s x acts
    rw [Call.issued, settlements, gather_snoc, gather_snoc, run_append]
    exact ih.step ledger a

omit [DecidableEq W] in
theorem Docketed.nodup (h : Docketed c issued settled) : (issued.map Prod.fst).Nodup := by
  rw [h.numbers]
  exact List.nodup_range

/-- The handler finds a setting answered well just if the loop carried it out. -/
theorem Docketed.pollReply_eq_ok_iff (h : Docketed c issued settled) {number : Nat} {setting : Setting}
    (mem : (number, setting) ∈ issued) (w : W) :
    (c.pollReply number w).2 = .ready (.ok ()) ↔ ⟨number, setting, .ok ()⟩ ∈ settled := by
  -- No two settings have one number, so a number tells its setting.
  have own {y : Settlement} (among : y ∈ settled) (same : y.number = number) : y.setting = setting := by
    have ordered : (number, y.setting) ∈ issued := same ▸ h.sub.subset (List.mem_map_of_mem among)
    exact (Prod.mk.inj (List.inj_on_of_nodup_map h.nodup ordered mem rfl)).2
  have distinct : (c.replies.map Prod.fst).Nodup := by
    have sub := h.nodup.sublist (h.sub.sublist.map Prod.fst)
    rw [h.replies]
    rwa [List.map_map] at sub ⊢
  have answered : (number, .ok ()) ∈ c.replies ↔ ⟨number, setting, .ok ()⟩ ∈ settled := by
    rw [h.replies, List.mem_map]
    constructor
    · rintro ⟨⟨n, setting', answer⟩, among, same⟩
      obtain ⟨rfl, rfl⟩ := Prod.mk.inj same
      obtain rfl := own among rfl
      exact among
    · exact fun among => ⟨_, among, rfl⟩
  rw [← answered]
  constructor
  · intro found
    cases look : c.replies.find? (fun r => r.1 = number) with
    | none =>
      simp only [pollReply, look] at found
      split at found <;> cases found
    | some r =>
      obtain ⟨n, answer⟩ := r
      obtain rfl : n = number := by simpa using List.find?_some look
      obtain rfl : answer = .ok () := by simpa [pollReply, look] using found
      exact List.mem_of_find?_eq_some look
  · intro among
    cases look : c.replies.find? (fun r => r.1 = number) with
    | none => simpa using List.find?_eq_none.mp look _ among
    | some r =>
      have same : r.1 = number := by simpa using List.find?_some look
      have own := List.inj_on_of_nodup_map distinct (List.mem_of_find?_eq_some look) among same
      simp [pollReply, look, own]

end Step

end Call

end CallLifecycle.Server
