import CallLifecycle.Proofs.Server.Rest

/-!
# A transport that is not writable

* `heeds`, `heeded` — the signals of the transport that the loop carries out;
* `Paused` — a call that knows its transport not to be writable: its writer keeps what it accepts, and nothing that
  it handed over before is still to be said;
* `Paused.turn`, `Paused.step` — such a call stays so until the transport is writable again; it says nothing but the
  end;
* `gap_of_unwritable` — **in every run** nothing but the end is said between the signal that the transport is not
  writable and the next one that it is;
* `gap_of_parting` — only interceptors may send a message then, in the place of the end.
-/

namespace CallLifecycle

namespace Writer

variable {α ε W : Type} {w : Writer α ε W}

theorem events_offer (h : w.writable = false) (a : α) : (w.offer a).2.2 = [] := by
  rcases offer_cases w a with ⟨why, e⟩ | ⟨-, writable, e⟩ | ⟨-, -, adm, -, e⟩
  · rw [e]
  · simp [h] at writable
  · rw [e]

theorem isEnd_of_finish (w : Writer α ε W) (r : Option ε) : ∀ e ∈ (w.finish r).2.1, e.isEnd = true := by
  intro e mem
  unfold finish at mem
  split at mem
  · simp at mem
  · split at mem
    · obtain rfl := List.mem_singleton.mp mem
      rfl
    · simp at mem

end Writer

namespace Server.Call

variable {σ Out In W : Type} {s : Setup σ Out In} {c c' : Call σ Out In W}

def heeds (c : Call σ Out In W) : Act Out W → List Bool
  | .turn _ =>
    if c.ended || c.progress.isCompleted then []
    else
      match c.events, c.commands, c.inbox with
      | [], [], .writable b :: _ => [b]
      | _, _, _ => []
  | _ => []

/-- The signals of the transport that were carried out, in order. -/
def heeded [DecidableEq W] (s : Setup σ Out In) (c : Call σ Out In W) (acts : List (Act Out W)) : List Bool :=
  gather (step s) heeds c acts

theorem heeds_of_inbox (live : Live c) {b : Bool} {rest : List Inbound} (idle : c.events = [])
    (orders : c.commands = []) (inbox : c.inbox = .writable b :: rest) (now : Instant) :
    c.heeds (.turn now) = [b] := by
  rw [heeds, if_neg live.going, idle, orders, inbox]

theorem inbox_of_heeds {b : Bool} {now : Instant} (h : c.heeds (.turn now) = [b]) :
    Running c ∧ c.events = [] ∧ c.commands = [] ∧ ∃ rest, c.inbox = .writable b :: rest := by
  simp only [heeds] at h
  split at h
  · cases h
  · rename_i going
    have running : Running c := by
      simp only [Bool.or_eq_true, not_or, Bool.not_eq_true] at going
      exact ⟨going.1, fun completed => by simp [Progress.isCompleted, completed] at going⟩
    split at h
    · rename_i idle orders inbox
      obtain rfl := List.singleton_inj.mp h
      exact ⟨running, idle, orders, _, inbox⟩
    · cases h

/-! ## calls that say nothing -/

/-- A call that knows its transport not to be writable. -/
structure Paused (c : Call σ Out In W) : Prop where
  unwritable : c.writable = false
  /-- Nothing that its writer handed over is still to be said. -/
  quiet : ∀ e ∈ c.events, e.isYielded = false
  writer : c.hasStarted = true → c.writer.writable = false

theorem isYielded_ofWriterEvent (e : WriterEvent (Outbound Out) Failure) : (ofWriterEvent e).isYielded = !e.isEnd := by
  cases e <;> rfl

theorem Paused.of_same (h : Paused c) (writable : c'.writable = c.writable) (events : c'.events = c.events)
    (writer : c'.writer.writable = c.writer.writable) (hasStarted : c'.hasStarted = c.hasStarted) : Paused c' :=
  ⟨writable.trans h.unwritable, events ▸ h.quiet, fun started => writer.trans (h.writer (hasStarted ▸ started))⟩

theorem Paused.withWriter (h : Paused c)
    {r : Writer (Outbound Out) Failure W × List (WriterEvent (Outbound Out) Failure) × List W}
    (unwritable : r.1.writable = false) (ends : ∀ e ∈ r.2.1, e.isEnd = true) : Paused (c.withWriter r) := by
  have frame := undisturbed_withWriter c r
  refine ⟨frame.writable.trans h.unwritable, ?_, fun _ => by rw [withWriter_eq]; exact unwritable⟩
  rw [withWriter_eq]
  intro e mem
  simp only at mem
  split at mem
  · exact h.quiet e mem
  · rcases List.mem_append.mp mem with mem | mem
    · exact h.quiet e mem
    · obtain ⟨f, told, rfl⟩ := List.mem_map.mp mem
      rw [isYielded_ofWriterEvent, ends f told]
      rfl

theorem Paused.tell (h : Paused c) (outcome : Option Failure) : Paused (c.tell (.returned outcome)) := by
  have started : (c.tell (.returned outcome)).hasStarted = c.hasStarted := by
    unfold Call.tell
    split
    · rfl
    · simp [emit, hasStarted, Effect.isStart]
  refine ⟨?_, ?_, fun k => ?_⟩
  · rw [tell_eq]
    exact h.unwritable
  · rw [tell_eq]
    intro e mem
    simp only at mem
    split at mem
    · exact h.quiet e mem
    · rcases List.mem_append.mp mem with mem | mem
      · exact h.quiet e mem
      · obtain rfl := List.mem_singleton.mp mem
        rfl
  · rw [tell_eq]
    exact h.writer (started ▸ k)

theorem Paused.closeRequests (h : Paused c) (t : Terminal Status) : Paused (c.closeRequests t) :=
  h.of_same rfl rfl rfl (undisturbed_closeRequests c t).hasStarted_eq

theorem Paused.report (h : Paused c) (started : c.hasStarted = true) (outcome : Option Failure) :
    Paused (c.report outcome) := by
  refine (h.withWriter ?_ ?_).tell outcome
  · rw [Writer.writable_finish]
    exact h.writer started
  · exact Writer.isEnd_of_finish c.writer none

section Steps

variable [DecidableEq W]

theorem Paused.perform (h : Paused c) (sound : c.writer.Sound) (started : c.hasStarted = true) (d : Deed Out W) :
    Paused (c.perform d) := by
  have unwritable := h.writer started
  have hasStarted := (worked_perform sound d).frame.hasStarted_eq
  have writable := (worked_perform sound d).frame.writable
  cases d with
  | write m =>
    refine h.withWriter (r := ((c.writer.offer m).1, (c.writer.offer m).2.2, [])) ?_ ?_
    · rw [Writer.writable_offer]
      exact unwritable
    · rw [Writer.events_offer unwritable]
      simp
  | finish =>
    refine h.withWriter ?_ ?_
    · rw [Writer.writable_finish]
      exact unwritable
    · exact Writer.isEnd_of_finish c.writer none
  | returned outcome => exact (h.report started outcome).closeRequests .finished
  | lost =>
    refine (h.closeRequests .finished).report ?_ _
    exact (undisturbed_closeRequests c .finished).hasStarted_eq.trans started
  | awaitWrite w => exact h.of_same writable rfl (Writer.writable_pollCapacity c.writer w) hasStarted
  | awaitDrained w => exact h.of_same writable rfl (Writer.writable_pollDrained c.writer w) hasStarted
  | set setting =>
    refine h.of_same writable ?_ ?_ hasStarted <;> simp only [Call.perform, issue] <;> split <;> rfl
  | abort reason =>
    refine h.of_same writable ?_ ?_ hasStarted <;> simp only [Call.perform, abort] <;> split <;> rfl
  | awaitReply id w =>
    refine h.of_same writable ?_ ?_ hasStarted <;> simp only [Call.perform, pollReply] <;> split <;> try split
    all_goals rfl
  | read w => exact h.of_same writable rfl rfl hasStarted
  | awaitCancelled w => exact h.of_same writable rfl rfl hasStarted

end Steps

/-- What a turn sends that says nothing but the end. -/
def Parts (s : Setup σ Out In) (c c' : Call σ Out In W) : Prop :=
  ∃ status trailers q, Emerges s.pipeline (.close status trailers) q ∧ c'.sent = c.sent ++ [q]

theorem Closes.parts (h : Closes s c [] c') : Parts s c c' := by
  obtain ⟨status, trailers, qs, sent, emerges⟩ := h.sent
  obtain ⟨q, others, emerged, nothing, rfl⟩ := List.forall₂_cons_left_iff.mp emerges
  obtain rfl := List.forall₂_nil_left_iff.mp nothing
  exact ⟨status, trailers, q, emerged, sent⟩

theorem sent_of_idle (live : Live c) (idle : c.events = []) {now : Instant} (turn : c.turn s now = some c') :
    c'.sent = c.sent ∨ Parts s c c' := by
  rcases idle_cases live idle turn with handled | starts | ⟨crashes, -⟩ | closes
  · exact .inl handled.sent
  · exact .inl starts.sent
  · exact .inl crashes.sent
  · exact .inr closes.parts

/-- A turn of a call that knows its transport not to be writable: it stays so, or is over. Nothing is said but the
end. -/
theorem Paused.turn (h : Paused c) (live : Live c) {now : Instant} (turn : c.turn s now = some c')
    (unheeded : true ∉ c.heeds (.turn now)) :
    (Paused c' ∧ c'.sent = c.sent) ∨ (¬ Running c' ∧ (c'.sent = c.sent ∨ Parts s c c')) := by
  have isOver (completed : c'.progress.handler = .completed) : ¬ Running c' := fun k => k.2 completed
  have same {es : List (Effect W)} (silent : Silent es) (trace : c'.trace = c.trace ++ es) :
      c'.hasStarted = c.hasStarted ∧ c'.sent = c.sent := by
    constructor
    · simp [hasStarted, trace, silent.any_eq]
    · simp [Call.sent_eq, trace, silent.filterMap_eq]
  -- Messages are handed over by events of the writer, and none of them waits: a turn that would say some contradicts
  -- `h.quiet`.
  cases advance live turn with
  | spoke batch rest ps next => simpa [HandlerEvent.isYielded] using h.quiet (.yielded batch) (by simp [next])
  | noted e rest next news noted =>
    left
    rw [noted]
    exact ⟨⟨h.unwritable, fun f mem => h.quiet f (by simp [next, mem]), h.writer⟩, rfl⟩
  | concluded e rest outcome next news drained reported concludes =>
    right
    obtain ⟨q, sent, emerges⟩ := concludes.sent
    refine ⟨isOver ?_, .inr ⟨_, _, q, emerges, sent⟩⟩
    rw [concludes.same]
  | gaveUp e d fails tried givenUp =>
    right
    constructor
    · apply isOver
      rw [givenUp.same]
    · cases fails with
      | unsaid batch rest e next => simpa [HandlerEvent.isYielded] using h.quiet (.yielded batch) (by simp [next])
      | other e idle => exact sent_of_idle live idle turn
  | cutOff p m rest takes cut crashes =>
    right
    exact ⟨fun k => Bool.false_ne_true (k.1.symm.trans crashes.ended), .inl crashes.sent⟩
  | applied id setting rest idle orders applied =>
    obtain ⟨started, sent⟩ := same (silent_woke _) (by rw [applied])
    refine .inl ⟨h.of_same ?_ ?_ ?_ started, sent⟩ <;> rw [applied]
  | started p m rest deadline vs takes idle starts =>
    left
    rw [starts]
    refine ⟨⟨h.unwritable, h.quiet, fun _ => ?_⟩, ?_⟩
    · simp [h.unwritable, Writer.setWritable]
    · simp [Call.sent_eq, (silent_visited vs).filterMap_eq, Effect.part?]
  | delivered p data m rest x es takes receiving decoded silent delivered =>
    obtain ⟨started, sent⟩ := same silent (by rw [delivered])
    refine .inl ⟨h.of_same ?_ ?_ ?_ started, sent⟩ <;> rw [delivered]
  | closed p rest es takes receiving silent closed =>
    obtain ⟨started, sent⟩ := same silent (by rw [closed])
    refine .inl ⟨h.of_same ?_ ?_ ?_ started, sent⟩ <;> rw [closed]
  | writable b rest idle orders inbox signalled =>
    left
    rw [heeds_of_inbox live idle orders inbox, List.mem_singleton] at unheeded
    obtain rfl : b = false := by simpa using unheeded
    have frame : Undisturbed { c with inbox := rest, writable := false } c' := by
      rw [signalled]
      split
      · exact undisturbed_withWriter _ _
      · exact .refl _
    refine ⟨?_, frame.sent_eq⟩
    have paused : Paused { c with inbox := rest, writable := false } := ⟨rfl, h.quiet, h.writer⟩
    rw [signalled]
    split
    · exact paused.withWriter rfl (by simp [Writer.setWritable])
    · exact paused
  | noticed idle orders inbox handles unnoticed whole noticed =>
    left
    rw [noticed]
    exact ⟨⟨h.unwritable, h.quiet, h.writer⟩, rfl⟩

theorem paused_of_heeds (live : Live c) (engages : c.progress.handler = .active → c.engaged = true) {now : Instant}
    (heeds : c.heeds (.turn now) = [false]) (turn : c.turn s now = some c') : Paused c' ∧ c'.sent = c.sent := by
  obtain ⟨-, idle, orders, rest, inbox⟩ := inbox_of_heeds heeds
  rw [turn_of_inbox live now idle orders inbox] at turn
  obtain rfl := Option.some.inj turn
  have nothing : ∀ e ∈ c.events, e.isYielded = false := by simp [idle]
  simp only [onInbound]
  split
  · refine ⟨⟨(undisturbed_withWriter _ _).writable, ?_, fun _ => ?_⟩, (undisturbed_withWriter _ _).sent_eq⟩ <;>
      rw [withWriter_eq]
    · simpa [Writer.setWritable] using nothing
    · rfl
  · rename_i unengaged
    refine ⟨⟨rfl, nothing, fun started => ?_⟩, rfl⟩
    exact absurd (engages (live.started.mp started)) unengaged

/-! ## from a signal to the next -/

section Steps

variable [DecidableEq W]

theorem Paused.step (h : Paused c) {taken done : List (Outbound Out)} {said : List ResponsePart}
    (ledger : Ledger s c taken said done) (a : Act Out W) (unheeded : true ∉ c.heeds a) :
    (Paused (c.step s a) ∧ (c.step s a).sent = c.sent) ∨
      (¬ Running (c.step s a) ∧ ((c.step s a).sent = c.sent ∨ Parts s c (c.step s a))) := by
  by_cases turns : ∃ now, a = .turn now
  · obtain ⟨now, rfl⟩ := turns
    cases turn : c.turn s now with
    | none => exact .inl (by simpa [Call.step, turn] using h)
    | some c' =>
      obtain ⟨live, -⟩ := ledger.live_of_turn turn
      have step : c.step s (.turn now) = c' := by simp [Call.step, turn]
      rw [step]
      exact h.turn live turn unheeded
  · left
    have told := told_step s ledger.sound fun now e => turns ⟨now, e⟩
    refine ⟨?_, told.frame.sent_eq⟩
    have hasStarted := told.frame.hasStarted_eq
    have writable := told.frame.writable
    cases a with
    | turn now => exact absurd ⟨now, rfl⟩ turns
    | deed d =>
      by_cases started : c.hasStarted = true
      · simpa [Call.step, started] using h.perform ledger.sound started d
      · simpa [Call.step, started] using h
    | conclude =>
      rcases concluded_conclude c with same | concluded
      · simpa [Call.step, same] using h
      · have events : c.conclude.events = [] := by
          have going := concluded.before
          have completed := concluded.completed
          simp [Call.conclude, going, completed, emit]
        refine ⟨writable.trans h.unwritable, ?_, fun started => ?_⟩
        · simp [Call.step, events]
        · simpa [Call.step, concluded.writer] using h.writer (hasStarted ▸ started)
    | submit i => refine h.of_same writable ?_ ?_ hasStarted <;> simp only [Call.step, submit] <;> split <;> rfl
    | hangUp =>
      refine h.of_same writable ?_ ?_ hasStarted <;> simp only [Call.step, Call.hangUp] <;> split <;> try split
      all_goals rfl
    | awaitEnd w =>
      refine h.of_same writable ?_ ?_ hasStarted <;> simp only [Call.step, pollCompleted] <;> split <;> rfl

/-- Until the transport is writable again nothing is said but the end. -/
theorem Paused.after (h : Paused c) {taken done : List (Outbound Out)} {said : List ResponsePart}
    (ledger : Ledger s c taken said done) (acts : List (Act Out W)) (unheeded : true ∉ c.heeded s acts) :
    (run (Call.step s) c acts).sent = c.sent ∨ Parts s c (run (Call.step s) c acts) := by
  induction acts generalizing c taken said done with
  | nil => exact .inl rfl
  | cons a acts ih =>
    rw [heeded, gather, List.mem_append, not_or] at unheeded
    obtain ⟨now, later⟩ := unheeded
    obtain ⟨said', done', behind⟩ := ledger_step ledger a
    rw [run_cons]
    rcases h.step ledger a now with ⟨paused, sent⟩ | ⟨isOver, sent⟩
    · have rest := ih paused behind later
      unfold Parts at rest ⊢
      rwa [sent] at rest
    · unfold Parts at sent ⊢
      rwa [(unsent_after behind isOver acts).2]

/-- **While the transport is not writable**, from the signal that says so to the next one that it is writable again,
a call sends at most one part, in every run: what the interceptors make of its end. So it is the end, wherever they
keep the kinds of parts. The signal may come before the request does. -/
theorem gap_of_unwritable (s : Setup σ Out In) (x : σ) {early late : List (Act Out W)} {now : Instant}
    (paused : (run (step s) (new s x) early).heeds (.turn now) = [false])
    (meanwhile : true ∉ (run (step s) (new s x) (early ++ [.turn now])).heeded s late) :
    ∃ gap, (run (step s) (new s x) (early ++ .turn now :: late)).sent = (run (step s) (new s x) early).sent ++ gap ∧
      (gap = [] ∨ ∃ status trailers q, Emerges s.pipeline (.close status trailers) q ∧ gap = [q]) ∧
      (s.pipeline.KeepsResponseKinds → ∀ p ∈ gap, p.kind = .close) := by
  obtain ⟨said, done, ledger⟩ := ledger_after s x early
  have live := ledger.live_of_running (inbox_of_heeds paused).1
  obtain ⟨-, idle, orders, rest, inbox⟩ := inbox_of_heeds paused
  have turn := turn_of_inbox (s := s) live now idle orders inbox
  obtain ⟨quiet, same⟩ := paused_of_heeds live (intake_after s x early).engaged paused turn
  obtain ⟨said', done', behind⟩ := ledger_after s x (early ++ [.turn now])
  have turned : run (step s) (new s x) (early ++ [.turn now]) =
      { run (step s) (new s x) early with inbox := rest }.onInbound s now (.writable false) := by
    simp [Call.step, turn]
  have whole : run (step s) (new s x) (early ++ .turn now :: late) =
      run (step s) (run (step s) (new s x) (early ++ [.turn now])) late := by simp
  rw [← turned] at quiet same
  rw [whole]
  rcases quiet.after behind late meanwhile with sent | ⟨status, trailers, q, emerges, sent⟩
  · refine ⟨[], ?_, .inl rfl, by simp⟩
    rw [sent, same, List.append_nil]
  · refine ⟨[q], ?_, .inr ⟨status, trailers, q, emerges, rfl⟩, fun keeps p mem => ?_⟩
    · rw [sent, same]
    · obtain rfl := List.mem_singleton.mp mem
      exact emerges.kind_eq keeps

/-- A handler that writes before it is cut off; the transport was not writable from the start. -/
def unheard : List (Act Bytes Nat) :=
  [.submit (.part (.metadata {})), .turn 0, .deed (.write ⟨[1], .inherit⟩), .deed .finish, .submit .finish, .turn 0]

/-- The message of the handler is kept, and the call sends nothing but the end that the transport asked for. -/
theorem gap_of_unheard :
    let signal : List (Act Bytes Nat) := [.submit (.writable false)]
    (run (step plain) (new plain ()) signal).heeds (.turn 0) = [false] ∧
    true ∉ (run (step plain) (new plain ()) (signal ++ [.turn 0])).heeded plain unheard ∧
    ((new plain ()).accepted plain (signal ++ .turn 0 :: unheard)).length = 1 ∧
    ∃ gap, (run (step plain) (new plain ()) (signal ++ .turn 0 :: unheard)).sent = [] ++ gap ∧
      ∀ p ∈ gap, p.kind = .close := by
  intro signal
  have paused : (run (step plain) (new plain ()) signal).heeds (.turn 0) = [false] := rfl
  have meanwhile : true ∉ (run (step plain) (new plain ()) (signal ++ [.turn 0])).heeded plain unheard := by decide
  obtain ⟨gap, sent, -, kinds⟩ := gap_of_unwritable plain () paused meanwhile
  exact ⟨paused, meanwhile, rfl, gap, sent, kinds fun i mem => by cases mem⟩

/-- A server that sends a message in the place of the end. -/
def parting : Setup Unit Bytes Bytes where
  config := {}
  codec := .bytes
  pipeline := [{ name := "parting", request := none, response := some fun p x =>
    ((if p.kind = .close then .message [7] {} else p, none), x) }]
  delegate := .plain

/-- Interceptors may send a message while the transport is not writable, in the place of the end. -/
theorem gap_of_parting :
    let signal : List (Act Bytes Nat) := [.submit (.writable false)]
    (run (step parting) (new parting ()) signal).heeds (.turn 0) = [false] ∧
    true ∉ (run (step parting) (new parting ()) (signal ++ [.turn 0])).heeded parting unheard ∧
    (run (step parting) (new parting ()) signal).sent = [] ∧
    (run (step parting) (new parting ()) (signal ++ .turn 0 :: unheard)).sent = [.message [7] {}] ∧
    ¬ ∀ p ∈ (run (step parting) (new parting ()) (signal ++ .turn 0 :: unheard)).sent, p.kind = .close :=
  ⟨rfl, by decide, rfl, rfl, fun ends => nomatch ends (.message [7] {}) (List.mem_singleton.mpr rfl)⟩

end Steps

end Server.Call

end CallLifecycle
