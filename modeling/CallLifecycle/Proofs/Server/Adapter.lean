import CallLifecycle.Proofs.Server.Rest
import CallLifecycle.Proofs.Server.Waking
import CallLifecycle.Server.Adapter

/-!
# Calls whose handler is given its request by an adapter

* `Tied`, `tied_after` — **in every run** a handler that was neither told an end nor cancelled belongs to a call that
  goes on;
* `orders_step` — only the handler orders something, and only turns take orders up;
* `deeds`, `Adapts`, `adapts` — **all that an adapter does next**;
* `Adapted`, `Move` — a call with its adapter, and the steps of both;
* `Adapted.trail`, `Adapted.invocations` — what happens to the call in a run, and the requests that its handler is
  invoked with;
* `call_after`, `exists_moves_of_turn` — a run with an adapter is a run of its call.
-/

namespace CallLifecycle.Server

namespace Call

variable {σ Out In W : Type} {s : Setup σ Out In} {c c' : Call σ Out In W}

/-! ## calls that go on -/

/-- How a call is tied to the streams of its handler, which received some parts and said how it ended. -/
structure Tied (c : Call σ Out In W) (received : List RequestPart) (ends : List (Option Failure)) : Prop where
  going : c.hasStarted = true → ends = [] → c.cancellation.raised = false → Running c
  shut : Running c → c.progress.inbound = .closed → c.requests.terminal ≠ .live
  crashed : c.crashed = true → ∃ header, received = [.metadata header]

theorem tied_new (s : Setup σ Out In) (x : σ) : Tied (new s x : Call σ Out In W) [] [] :=
  ⟨fun started => by simp [new, hasStarted] at started, fun _ closed => by simp [new] at closed,
    fun crashed => by simp [new] at crashed⟩

theorem Tied.fetched {received more : List RequestPart} {got : List In} {ends ends' : List (Option Failure)}
    (h : Tied c received ends) (fetched : Fetched c c' more got ends') (runs : Running c → Running c')
    (back : Running c' → Running c) (crashed : c'.crashed = c.crashed) : Tied c' received (ends ++ ends') := by
  refine ⟨fun started isOver uncut => ?_, fun running closed live => ?_, fun cut => h.crashed (crashed ▸ cut)⟩
  · have before := fetched.raised.resolve_right fun past => by simp [uncut] at past
    rw [List.append_eq_nil_iff] at isOver
    exact runs (h.going (fetched.hasStarted ▸ started) isOver.1 (before ▸ uncut))
  · exact h.shut (back running) (fetched.inbound ▸ closed) (fetched.open' live).2

/-- A turn of a call that goes on, behind which it goes on unless it says so. -/
theorem Tied.advance {handed looked received : List RequestPart} {got : List In} {ends : List (Option Failure)}
    (h : Tied c received ends) (intake : Intake s c handed looked received got ends) (course : Course c ends)
    (live : Live c) {now : Instant} (advance : Advance s now c c') :
    Tied c' (received ++ c.receives s (.turn now : Act Out W)) ends := by
  have running : Running c := ⟨live.ended, live.handler⟩
  have uncrashed (same : c'.crashed = c.crashed) (k : c'.crashed = true) : False := by
    simp [same, live.crashed] at k
  cases advance with
  | gaveUp e d fails tried givenUp =>
    have cut := cut_of_givenUp intake live tried givenUp
    refine ⟨fun started _ uncut => ?_, fun k => absurd cut.handler k.2, fun k => (uncrashed ?_ k).elim⟩
    · rw [cut.raised started] at uncut
      cases uncut
    · rw [givenUp.same, tried.same]
  | concluded e rest outcome next news drained reported concludes =>
    refine ⟨fun _ unended _ => ?_, fun k => absurd (by rw [concludes.same]) k.2, fun k => (uncrashed ?_ k).elim⟩
    · subst unended
      -- The turn knew how the handler ended, so that was reported before.
      refine absurd (course.outcome running outcome ?_) List.not_mem_nil
      rw [next]
      cases e <;> simp_all [HandlerEvent.outcome?]
    · rw [concludes.same]
  | cutOff p m rest takes cut crashes =>
    obtain ⟨unstarted, nothing, -⟩ := intake.fresh running crashes.idle
    refine ⟨fun started => ?_, fun k => ?_, fun _ => ⟨m, by simp [nothing, takes.receives live]⟩⟩
    · simp [crashes.hasStarted, unstarted] at started
    · simp [Running, crashes.ended] at k
  | spoke batch rest ps next speaks =>
    rw [speaks.same] at uncrashed ⊢
    exact ⟨fun _ _ _ => running, fun _ => h.shut running, fun k => (uncrashed rfl k).elim⟩
  | noted e rest next news same | applied id setting rest idle orders same
  | noticed idle orders inbox handles unnoticed whole same =>
    rw [same] at uncrashed ⊢
    exact ⟨fun _ _ _ => running, fun _ => h.shut running, fun k => (uncrashed rfl k).elim⟩
  | started p m rest deadline vs takes idle same =>
    rw [same] at uncrashed ⊢
    refine ⟨fun _ _ _ => ⟨live.ended, by simp⟩, fun _ closed => ?_, fun k => (uncrashed rfl k).elim⟩
    simp at closed
  | delivered p data m rest x es takes receiving decoded silent same =>
    rw [same] at uncrashed ⊢
    refine ⟨fun _ _ _ => running, fun _ closed => ?_, fun k => (uncrashed rfl k).elim⟩
    cases receiving.symm.trans closed
  | closed p rest es takes receiving silent same =>
    have active := live.active_of_inbound (by simp [receiving])
    rw [same] at uncrashed ⊢
    refine ⟨fun _ _ _ => running, fun _ _ => ?_, fun k => (uncrashed rfl k).elim⟩
    simpa [intake.engaged active] using Channel.terminal_terminate_ne (t := Terminal.finished) (by simp)
  | writable b rest idle orders inbox same =>
    rw [same] at uncrashed ⊢
    split at uncrashed <;> rename_i engaged
    · rw [if_pos engaged, withWriter_eq]
      rw [withWriter_eq] at uncrashed
      exact ⟨fun _ _ _ => running, fun _ => h.shut running, fun k => (uncrashed rfl k).elim⟩
    · rw [if_neg engaged]
      exact ⟨fun _ _ _ => running, fun _ => h.shut running, fun k => (uncrashed rfl k).elim⟩

section Steps

variable [DecidableEq W]

theorem running_step (sound : c.writer.Sound) (going : Running c) {a : Act Out W} (other : ∀ now, a ≠ .turn now) :
    Running (c.step s a) := by
  cases stepped s sound a with
  | turned now turns => exact absurd turns (other now)
  | worked started worked | waited nothing worked =>
    exact ⟨worked.ended.trans going.1, by rw [worked.frame.progress]; exact going.2⟩
  | concluded nothing concluded =>
    have completed := concluded.completed
    exact absurd (by simpa [Progress.isCompleted] using completed) going.2

theorem Tied.step {handed looked received : List RequestPart} {got : List In} {ends : List (Option Failure)}
    (h : Tied c received ends) (intake : Intake s c handed looked received got ends) (course : Course c ends)
    {taken done : List (Outbound Out)} {said : List ResponsePart} (ledger : Ledger s c taken said done)
    (a : Act Out W) : Tied (c.step s a) (received ++ c.receives s a) (ends ++ c.reports a) := by
  by_cases turns : ∃ now, a = .turn now
  · obtain ⟨now, rfl⟩ := turns
    cases turn : c.turn s now with
    | none =>
      have nothing : c.upcoming = [] := upcoming_of_turn turn
      simpa [Call.step, turn, reports, receives, looks, nothing] using h
    | some c' =>
      obtain ⟨live, -⟩ := ledger.live_of_turn turn
      simpa [Call.step, turn, reports] using h.advance intake course live (Call.advance live turn)
  · have other (now : Instant) : a ≠ .turn now := fun e => turns ⟨now, e⟩
    have told := told_step s ledger.sound other
    have nothing : c.receives s a = [] := by
      cases a with
      | turn now => exact absurd rfl (other now)
      | _ => rfl
    rw [nothing, List.append_nil]
    refine h.fetched (fetched_step s ledger.sound other) (fun going => running_step ledger.sound going other) ?_
      told.frame.crashed
    intro going
    exact ⟨told.ended going.1, by rw [← told.frame.progress]; exact going.2⟩

theorem tied_after (s : Setup σ Out In) (x : σ) (acts : List (Act Out W)) :
    Tied (run (Call.step s) (new s x) acts) ((new s x).received s acts) ((new s x).reported s acts) := by
  induction acts using List.reverseRecOn with
  | nil => exact tied_new s x
  | append_singleton acts a ih =>
    obtain ⟨said, done, ledger⟩ := ledger_after s x acts
    have intake := intake_after s x acts
    have course := course_after s x acts
    unfold received reported at ih intake course ⊢
    rw [gather_snoc, gather_snoc, run_append]
    exact ih.step intake course ledger a

/-! ## orders -/

omit [DecidableEq W] in
/-- A turn takes up a setting, or leaves all orders where they are, unless it ends the call. -/
theorem orders_of_advance {now : Instant} (advance : Advance s now c c') (going : Running c') :
    c'.commands = c.commands ∨ ∃ id setting, c.commands = .set id setting :: c'.commands := by
  cases advance with
  | gaveUp e d fails tried givenUp => exact absurd (by rw [givenUp.same]) going.2
  | concluded e rest outcome next news drained reported concludes => exact absurd (by rw [concludes.same]) going.2
  | cutOff p m rest takes cut crashes => simp [Running, crashes.ended] at going
  | applied id setting rest idle orders same =>
    rw [same]
    exact .inr ⟨id, setting, orders⟩
  | spoke batch rest ps next speaks =>
    rw [speaks.same]
    exact .inl rfl
  | noted e rest next news same | started p m rest deadline vs takes idle same
  | delivered p data m rest x es takes receiving decoded silent same | closed p rest es takes receiving silent same
  | noticed idle orders inbox handles unnoticed whole same =>
    rw [same]
    exact .inl rfl
  | writable b rest idle orders inbox same =>
    left
    rw [same]
    split
    · rw [withWriter_eq]
    · rfl

/-- Only the handler orders something. Any other step leaves the orders as they are or takes up a setting, unless it
ends the call. -/
theorem orders_step {taken done : List (Outbound Out)} {said : List ResponsePart} (ledger : Ledger s c taken said done)
    {a : Act Out W} (beside : a.isDeed = false) (going : Running (c.step s a)) :
    (c.step s a).commands = c.commands ∨ ∃ id setting, c.commands = .set id setting :: (c.step s a).commands := by
  cases outside : a.isOutside with
  | true =>
    obtain ⟨inbox, handles, completionWaiters, es, -, same⟩ := step_of_outside s c outside
    left
    rw [same]
  | false =>
    cases a with
    | deed d => cases beside
    | turn now =>
      cases turn : c.turn s now with
      | none => exact .inl (by simp [Call.step, turn])
      | some c' =>
        obtain ⟨live, -⟩ := ledger.live_of_turn turn
        have step : c.step s (.turn now) = c' := by simp [Call.step, turn]
        rw [step] at going ⊢
        exact orders_of_advance (Call.advance live turn) going
    | conclude =>
      rcases concluded_conclude c with same | concluded
      · exact .inl (by simp [Call.step, same])
      · have ended : (c.step s .conclude).ended = true := concluded.ended
        simp [Running, ended] at going
    | _ => cases outside

/-! ## what an adapter does -/

/-- What an adapter does when it is run. -/
def deeds (c : Call σ Out In W) (w : W) : Adapter In → List (Deed Out W)
  | .reading q =>
    .read w :: match (c.readRequest w).2 with
      | .pending => []
      | .ready r =>
        match q.onRead r with
        | .failed status => [.returned (some (.status status))]
        | .violated reason => if c.ended then [.returned (some (.violation reason))] else [.abort reason]
        | _ => []
  | .aborting reason =>
    .awaitCancelled w :: if c.cancellation.raised then [.returned (some (.violation reason))] else []
  | .invoked _ => []
  | .ended => []

/-- **All that an adapter does next.** -/
inductive Adapts (c : Call σ Out In W) (w : W) : Adapter In → List (Deed Out W) → Poll (Adapter In) → Prop
  | waits (q : SingleRequest In) (nothing : (c.readRequest w).2 = .pending) :
      Adapts c w (.reading q) [.read w] .pending
  | first (m : In) (next : (c.readRequest w).2 = .ready (.ok (some m))) :
      Adapts c w (.reading .first) [.read w] (.ready (.reading (.second m)))
  | accepted (m : In) (clean : (c.readRequest w).2 = .ready (.ok none)) :
      Adapts c w (.reading (.second m)) [.read w] (.ready (.invoked m))
  | failed (q : SingleRequest In) (status : Status) (fails : (c.readRequest w).2 = .ready (.error status)) :
      Adapts c w (.reading q) [.read w, .returned (some (.status status))] (.ready .ended)
  /-- It orders the end of the call. -/
  | violated (q : SingleRequest In) (r : Option In) (reason : String) (reads : (c.readRequest w).2 = .ready (.ok r))
      (breach : q.onRead (.ok r) = .violated reason) (going : c.ended = false) :
      Adapts c w (.reading q) [.read w, .abort reason] (.ready (.aborting reason))
  /-- Nobody takes its order. -/
  | unheard (q : SingleRequest In) (r : Option In) (reason : String) (reads : (c.readRequest w).2 = .ready (.ok r))
      (breach : q.onRead (.ok r) = .violated reason) (ended : c.ended = true) :
      Adapts c w (.reading q) [.read w, .returned (some (.violation reason))] (.ready .ended)
  | awaits (reason : String) (uncut : c.cancellation.raised = false) :
      Adapts c w (.aborting reason) [.awaitCancelled w] .pending
  | cut (reason : String) (raised : c.cancellation.raised = true) :
      Adapts c w (.aborting reason) [.awaitCancelled w, .returned (some (.violation reason))] (.ready .ended)
  | invoked (m : In) : Adapts c w (.invoked m) [] .pending
  | ended : Adapts c w .ended [] .pending

theorem adapts_of_violated {w : W} {q : SingleRequest In} {r : Option In} {reason : String}
    (reads : (c.readRequest w).2 = .ready (.ok r)) (breach : q.onRead (.ok r) = .violated reason) :
    Adapts c w (.reading q) (c.deeds w (.reading q)) (c.adapt w (.reading q)).2 := by
  obtain ⟨c', read, same⟩ : ∃ c', c.readRequest w = (c', .ready (.ok r)) ∧ c'.ended = c.ended :=
    ⟨_, Prod.ext rfl reads, rfl⟩
  cases going : c.ended with
  | false => simpa [deeds, adapt, abort, read, breach, same, going] using Adapts.violated q r reason reads breach going
  | true => simpa [deeds, adapt, abort, read, breach, same, going] using Adapts.unheard q r reason reads breach going

theorem adapts (c : Call σ Out In W) (w : W) (q : Adapter In) : Adapts c w q (c.deeds w q) (c.adapt w q).2 := by
  cases q with
  | reading q =>
    rcases read : c.readRequest w with ⟨c', _ | status | _ | m⟩ <;> have reads := congrArg Prod.snd read
    · simpa [deeds, adapt, read] using Adapts.waits q reads
    · have next := Adapts.failed q status reads
      cases q <;> simpa [deeds, adapt, read, SingleRequest.onRead] using next
    · cases q with
      | first => exact adapts_of_violated reads rfl
      | second m => simpa [deeds, adapt, read, SingleRequest.onRead] using Adapts.accepted m reads
    · cases q with
      | first => simpa [deeds, adapt, read, SingleRequest.onRead] using Adapts.first m reads
      | second n => exact adapts_of_violated reads rfl
  | aborting reason =>
    cases raised : c.cancellation.raised with
    | false => simpa [deeds, adapt, pollCancelled, Token.poll, raised] using Adapts.awaits reason raised
    | true => simpa [deeds, adapt, pollCancelled, Token.poll, raised] using Adapts.cut reason raised
  | invoked m => exact .invoked m
  | ended => exact .ended

theorem adapt_eq (s : Setup σ Out In) (started : c.hasStarted = true) (w : W) (q : Adapter In) :
    (c.adapt w q).1 = run (Call.step s) c ((c.deeds w q).map .deed) := by
  cases q with
  | reading q =>
    obtain ⟨c', r, read, begun, same⟩ : ∃ c' r, c.readRequest w = (c', r) ∧ c'.hasStarted = true ∧ c'.ended = c.ended :=
      ⟨_, _, rfl, started, rfl⟩
    rcases r with _ | status | _ | m <;> cases q <;> cases going : c.ended <;>
      simp [adapt, deeds, SingleRequest.onRead, Call.step, started, perform, read, begun, abort, same, going]
  | aborting reason =>
    have awaits : (c.pollCancelled w).1.hasStarted = true := started
    cases raised : c.cancellation.raised <;>
      simp_all [adapt, deeds, Call.step, perform, pollCancelled, Token.poll]
  | invoked m => rfl
  | ended => rfl

end Steps

end Call

/-! ## runs with an adapter -/

/-- A call, and how far the adapter of its handler is. -/
structure Adapted (σ Out In W : Type) where
  call : Call σ Out In W
  adapter : Adapter In := .reading .first

inductive Move (Out W : Type) where
  | adapter (w : W)
  | dropped
  | other (a : Act Out W)

def Adapter.request? {In : Type} : Adapter In → Option In
  | .invoked m => some m
  | _ => none

def Adapter.isPreparing {In : Type} : Adapter In → Bool
  | .reading _ | .aborting _ => true
  | _ => false

def Adapter.behind {In : Type} (q : Adapter In) : Poll (Adapter In) → Adapter In
  | .pending => q
  | .ready q => q

namespace Adapted

variable {σ Out In W : Type}

def begin (s : Setup σ Out In) (x : σ) : Adapted σ Out In W := { call := .new s x }

/-- Whether there is an adapter that can be dropped: it was started, and has not invoked the handler. -/
def isPending (p : Adapted σ Out In W) : Bool := p.call.hasStarted && p.adapter.isPreparing

/-- Whether something happens that is up to the handler alone, while it was not invoked. -/
def forestalls (p : Adapted σ Out In W) (a : Act Out W) : Bool := a.isDeed && p.adapter.request?.isNone

section Steps

variable [DecidableEq W]

/-- One step. Before the call starts its handler there is no adapter to run, and before the adapter invokes the handler
that does nothing. -/
def step (s : Setup σ Out In) (p : Adapted σ Out In W) : Move Out W → Adapted σ Out In W
  | .adapter w =>
    if p.call.hasStarted then
      { call := (p.call.adapt w p.adapter).1, adapter := p.adapter.behind (p.call.adapt w p.adapter).2 }
    else p
  | .dropped => if p.isPending then { call := p.call.lost, adapter := .ended } else p
  | .other a => if p.forestalls a then p else { p with call := p.call.step s a }

def acts (p : Adapted σ Out In W) : Move Out W → List (Act Out W)
  | .adapter w => if p.call.hasStarted then (p.call.deeds w p.adapter).map .deed else []
  | .dropped => if p.isPending then [.deed .lost] else []
  | .other a => if p.forestalls a then [] else [a]

def trail (s : Setup σ Out In) (p : Adapted σ Out In W) (moves : List (Move Out W)) : List (Act Out W) :=
  gather (step s) acts p moves

def invokes (p : Adapted σ Out In W) : Move Out W → List In
  | .adapter w =>
    match p.call.hasStarted, (p.call.adapt w p.adapter).2 with
    | true, .ready (.invoked m) => [m]
    | _, _ => []
  | _ => []

/-- The requests that the handler is invoked with in a run, in order. -/
def invocations (s : Setup σ Out In) (p : Adapted σ Out In W) (moves : List (Move Out W)) : List In :=
  gather (step s) invokes p moves

theorem call_step (s : Setup σ Out In) (p : Adapted σ Out In W) (k : Move Out W) :
    (p.step s k).call = run (Call.step s) p.call (p.acts k) := by
  cases k with
  | adapter w =>
    cases started : p.call.hasStarted with
    | false => simp [step, acts, started]
    | true => simpa [step, acts, started] using Call.adapt_eq s started w p.adapter
  | dropped =>
    by_cases pending : p.isPending = true
    · have started : p.call.hasStarted = true := by simp_all [isPending]
      simp [step, acts, pending, Call.step, started, Call.perform]
    · simp [step, acts, pending]
  | other a => by_cases early : p.forestalls a = true <;> simp [step, acts, early]

/-- **A run with an adapter is a run of its call.** -/
theorem call_after (s : Setup σ Out In) (p : Adapted σ Out In W) (moves : List (Move Out W)) :
    (run (step s) p moves).call = run (Call.step s) p.call (p.trail s moves) := by
  induction moves generalizing p with
  | nil => rfl
  | cons k moves ih =>
    calc (run (step s) (p.step s k) moves).call
      _ = run (Call.step s) (p.step s k).call ((p.step s k).trail s moves) := ih _
      _ = run (Call.step s) (run (Call.step s) p.call (p.acts k)) ((p.step s k).trail s moves) := by rw [call_step]
      _ = run (Call.step s) p.call (p.acts k ++ (p.step s k).trail s moves) := (run_append ..).symm

theorem call_begin (s : Setup σ Out In) (x : σ) (moves : List (Move Out W)) :
    (run (step s) (begin s x) moves).call = run (Call.step s) (Call.new s x) ((begin s x).trail s moves) :=
  call_after s (begin s x) moves

theorem eq_nil_of_acts {p : Adapted σ Out In W} {k : Move Out W} {early late : List (Act Out W)} {now : Instant}
    (split : p.acts k = early ++ .turn now :: late) : early = [] := by
  have mem : .turn now ∈ p.acts k := by simp [split]
  cases k with
  | adapter w =>
    simp only [acts] at mem
    split at mem <;> simp at mem
  | dropped =>
    simp only [acts] at mem
    split at mem <;> simp at mem
  | other a =>
    simp only [acts] at split
    split at split
    · simp at split
    · exact (List.append_eq_singleton_iff.mp split.symm).elim And.left fun both => by simp at both

/-- A turn of the call is a step of the run. -/
theorem exists_moves_of_turn {s : Setup σ Out In} {p : Adapted σ Out In W} {moves : List (Move Out W)}
    {early late : List (Act Out W)} {now : Instant} (split : p.trail s moves = early ++ .turn now :: late) :
    ∃ first, first <+: moves ∧ early = p.trail s first := by
  induction moves generalizing p early with
  | nil => simp [trail, gather] at split
  | cons k moves ih =>
    have before {first : List (Move Out W)} (sub : first <+: moves) : k :: first <+: k :: moves :=
      List.cons_prefix_cons.mpr ⟨rfl, sub⟩
    rcases List.append_eq_append_iff.mp split with ⟨tail, rfl, rest⟩ | ⟨tail, whole, rest⟩
    · obtain ⟨first, sub, rfl⟩ := ih rest
      exact ⟨k :: first, before sub, rfl⟩
    · cases tail with
      | nil =>
        have next : (p.step s k).trail s moves = [] ++ .turn now :: late := rest.symm
        obtain ⟨first, sub, nothing⟩ := ih next
        exact ⟨k :: first, before sub, by rw [trail, gather, ← trail, ← nothing, whole]; simp⟩
      | cons a tail =>
        obtain ⟨rfl, rfl⟩ := List.cons.inj rest
        exact ⟨[], List.nil_prefix, eq_nil_of_acts whole⟩

end Steps

end Adapted

end CallLifecycle.Server
