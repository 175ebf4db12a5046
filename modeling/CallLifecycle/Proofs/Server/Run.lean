import CallLifecycle.Proofs.Runs
import CallLifecycle.Proofs.Writer.Sound
import CallLifecycle.Server.Call

/-!
# Runs of a server call

A run is any order of steps of the transport, the handler, the loop and the clock.

* `Deed`, `Act` — what a handler does, and a step of a run;
* `Call.step` — one step;
* `Call.accepted` — the messages that the writer of the call accepted in a run;
* `Undisturbed` — what every step but a turn of the loop leaves as it was;
* `tell_eq`, `withWriter_eq`, … — what the helpers of the loop change;
* `stepped` — all that a step can do.
-/

namespace CallLifecycle.Server

/-- What a handler does, by itself, by tasks of its own or by clones of what it was given. -/
inductive Deed (Out W : Type) where
  | write (m : Outbound Out)
  /-- A suspended write is looked at. -/
  | awaitWrite (w : W)
  /-- A wait for the buffer to empty is looked at. -/
  | awaitDrained (w : W)
  | finish
  | read (w : W)
  | set (setting : Setting)
  /-- A wait for the answer to a setting is looked at. -/
  | awaitReply (id : Nat) (w : W)
  | abort (reason : String)
  | awaitCancelled (w : W)
  | returned (outcome : Option Failure)
  /-- The handler is dropped before it returned. -/
  | lost

inductive Act (Out W : Type) where
  | submit (i : Inbound)
  /-- The last handle is dropped. -/
  | hangUp
  /-- A wait for the end of the loop is looked at. -/
  | awaitEnd (w : W)
  | deed (d : Deed Out W)
  /-- The loop takes a turn, if there is anything to do. -/
  | turn (now : Instant)
  /-- The loop ends, if its last turn is over. -/
  | conclude

def Effect.part? {W : Type} : Effect W → Option ResponsePart
  | .sent p => some p
  | _ => none

def Effect.isStart {W : Type} : Effect W → Bool
  | .started .. => true
  | _ => false

/-- Whether an effect neither sends a part nor starts a handler. -/
def Effect.isSilent {W : Type} : Effect W → Bool
  | .sent _ => false
  | .started .. => false
  | _ => true

def HandlerEvent.elements {Out : Type} : HandlerEvent Out → List (Outbound Out)
  | .yielded batch => batch
  | _ => []

def Silent {W : Type} (es : List (Effect W)) : Prop := ∀ e ∈ es, e.isSilent = true

section Silent

variable {W : Type}

@[simp] theorem silent_nil : Silent ([] : List (Effect W)) := by simp [Silent]

@[simp] theorem silent_append {es fs : List (Effect W)} : Silent (es ++ fs) ↔ Silent es ∧ Silent fs := by
  simp [Silent, or_imp, forall_and]

@[simp] theorem silent_cons {e : Effect W} {es : List (Effect W)} :
    Silent (e :: es) ↔ e.isSilent = true ∧ Silent es := by
  simp [Silent]

@[simp] theorem silent_woke (ws : List W) : Silent (ws.map .woke) := by simp [Silent, Effect.isSilent]

@[simp] theorem silent_wokeLoop {α : Type} (l : List α) :
    Silent (l.map fun _ => (.wokeLoop : Effect W)) := by
  simp +contextual [Silent, Effect.isSilent]

@[simp] theorem silent_visited (vs : List Visit) : Silent (vs.map (.visited : Visit → Effect W)) := by
  simp [Silent, Effect.isSilent]

theorem Silent.filterMap_eq {es : List (Effect W)} (h : Silent es) :
    es.filterMap Effect.part? = [] := by
  refine List.filterMap_eq_nil_iff.mpr fun e he => ?_
  have := h e he
  cases e <;> simp_all [Effect.isSilent, Effect.part?]

theorem Silent.any_eq {es : List (Effect W)} (h : Silent es) : es.any Effect.isStart = false := by
  refine List.any_eq_false.mpr fun e he => ?_
  have := h e he
  cases e <;> simp_all [Effect.isSilent, Effect.isStart]

end Silent

namespace Call

variable {σ Out In W : Type}

def hasStarted (c : Call σ Out In W) : Bool := c.trace.any Effect.isStart

def queued (c : Call σ Out In W) : List (Outbound Out) := c.events.flatMap HandlerEvent.elements

section Steps

variable [DecidableEq W]

def perform (c : Call σ Out In W) : Deed Out W → Call σ Out In W
  | .write m => (c.write m).1
  | .awaitWrite w => (c.pollWrite w).1
  | .awaitDrained w => (c.pollDrained w).1
  | .finish => c.finishResponses
  | .read w => (c.readRequest w).1
  | .set setting => (c.issue setting).1
  | .awaitReply id w => (c.pollReply id w).1
  | .abort reason => (c.abort reason).1
  | .awaitCancelled w => (c.pollCancelled w).1
  | .returned outcome => c.returned outcome
  | .lost => c.lost

/-- One step. Without a handler nothing is done in its name. -/
def step (s : Setup σ Out In) (c : Call σ Out In W) : Act Out W → Call σ Out In W
  | .submit i => c.submit i
  | .hangUp => c.hangUp
  | .awaitEnd w => (c.pollCompleted w).1
  | .deed d => if c.hasStarted then c.perform d else c
  | .turn now => (c.turn s now).getD c
  | .conclude => c.conclude

omit [DecidableEq W] in
def takes (c : Call σ Out In W) : Deed Out W → List (Outbound Out)
  | .write m => if (c.write m).2.isAccepted then [m] else []
  | _ => []

omit [DecidableEq W] in
def accepts (c : Call σ Out In W) : Act Out W → List (Outbound Out)
  | .deed d => if c.hasStarted then c.takes d else []
  | _ => []

/-- The messages that the writer of the call accepts in a run, in order. -/
def accepted (s : Setup σ Out In) (c : Call σ Out In W) (acts : List (Act Out W)) : List (Outbound Out) :=
  gather (step s) accepts c acts

end Steps

/-! ## what the helpers of the loop change -/

theorem sent_eq (c : Call σ Out In W) : c.sent = c.trace.filterMap Effect.part? := by
  rw [sent]
  congr 1

theorem emit_eq (c : Call σ Out In W) (es : List (Effect W)) :
    c.emit es = { c with trace := c.trace ++ es } := rfl

theorem tell_eq (c : Call σ Out In W) (e : HandlerEvent Out) :
    c.tell e = { c with events := if c.ended then c.events else c.events ++ [e],
                        trace := c.trace ++ if c.ended then [] else [.wokeLoop] } := by
  by_cases h : c.ended = true
  · simp only [tell, if_pos h, List.append_nil]
  · simp only [tell, if_neg h, emit]

theorem foldl_tell_eq (c : Call σ Out In W) (es : List (WriterEvent (Outbound Out) Failure)) :
    es.foldl (fun c e => c.tell (ofWriterEvent e)) c =
      { c with events := if c.ended then c.events else c.events ++ es.map ofWriterEvent,
               trace := c.trace ++ if c.ended then [] else es.map fun _ => .wokeLoop } := by
  induction es generalizing c with
  | nil => simp only [List.foldl_nil, List.map_nil, List.append_nil, ite_self]
  | cons e es ih =>
    rw [List.foldl_cons, ih, tell_eq]
    by_cases h : c.ended = true <;> simp [h]

theorem withWriter_eq (c : Call σ Out In W)
    (r : Writer (Outbound Out) Failure W × List (WriterEvent (Outbound Out) Failure) × List W) :
    c.withWriter r =
      { c with writer := r.1, events := if c.ended then c.events else c.events ++ r.2.1.map ofWriterEvent,
               trace := c.trace ++ (if c.ended then [] else r.2.1.map fun _ => .wokeLoop) ++
                 r.2.2.map .woke } := by
  rw [withWriter, foldl_tell_eq]
  rfl

theorem closeRequests_eq (c : Call σ Out In W) (t : Terminal Status) :
    c.closeRequests t = { c with requests := (c.requests.terminate t).1,
                                 trace := c.trace ++ (c.requests.terminate t).2.2.map .woke } := rfl

theorem raiseCancellation_eq (c : Call σ Out In W) :
    c.raiseCancellation = { c with cancellation := c.cancellation.raise.1,
                                   trace := c.trace ++ c.cancellation.raise.2.map .woke } := rfl

/-- A call that keeps all that the loop alone decides, and has done nothing but wake and tell. -/
structure Undisturbed (c c' : Call σ Out In W) : Prop where
  surroundings : c'.surroundings = c.surroundings
  progress : c'.progress = c.progress
  attached : c'.attached = c.attached
  hungUp : c'.hungUp = c.hungUp
  drained : c'.drained = c.drained
  outcome : c'.outcome = c.outcome
  headers : c'.headers = c.headers
  trailers : c'.trailers = c.trailers
  compressionDefault : c'.compressionDefault = c.compressionDefault
  writable : c'.writable = c.writable
  crashed : c'.crashed = c.crashed
  trace : ∃ es, Silent es ∧ c'.trace = c.trace ++ es

namespace Undisturbed

variable {c c' c'' : Call σ Out In W}

theorem sent_eq (h : Undisturbed c c') : c'.sent = c.sent := by
  obtain ⟨es, silent, he⟩ := h.trace
  rw [Call.sent_eq, Call.sent_eq, he, List.filterMap_append, silent.filterMap_eq, List.append_nil]

theorem hasStarted_eq (h : Undisturbed c c') : c'.hasStarted = c.hasStarted := by
  obtain ⟨es, silent, he⟩ := h.trace
  rw [hasStarted, hasStarted, he, List.any_append, silent.any_eq, Bool.or_false]

theorem refl (c : Call σ Out In W) : Undisturbed c c :=
  ⟨rfl, rfl, rfl, rfl, rfl, rfl, rfl, rfl, rfl, rfl, rfl, [], by simp⟩

theorem trans (h : Undisturbed c c') (k : Undisturbed c' c'') : Undisturbed c c'' := by
  obtain ⟨es, silent, he⟩ := h.trace
  obtain ⟨fs, silent', hf⟩ := k.trace
  exact ⟨k.surroundings.trans h.surroundings, k.progress.trans h.progress, k.attached.trans h.attached,
    k.hungUp.trans h.hungUp, k.drained.trans h.drained, k.outcome.trans h.outcome,
    k.headers.trans h.headers, k.trailers.trans h.trailers,
    k.compressionDefault.trans h.compressionDefault, k.writable.trans h.writable,
    k.crashed.trans h.crashed, es ++ fs, by simp [silent, silent'], by simp [hf, he]⟩

end Undisturbed

theorem undisturbed_closeRequests (c : Call σ Out In W) (t : Terminal Status) :
    Undisturbed c (c.closeRequests t) :=
  ⟨rfl, rfl, rfl, rfl, rfl, rfl, rfl, rfl, rfl, rfl, rfl, _, silent_woke _, rfl⟩

theorem undisturbed_raiseCancellation (c : Call σ Out In W) : Undisturbed c c.raiseCancellation :=
  ⟨rfl, rfl, rfl, rfl, rfl, rfl, rfl, rfl, rfl, rfl, rfl, _, silent_woke _, rfl⟩

theorem undisturbed_withWriter (c : Call σ Out In W)
    (r : Writer (Outbound Out) Failure W × List (WriterEvent (Outbound Out) Failure) × List W) :
    Undisturbed c (c.withWriter r) := by
  rw [withWriter_eq]
  have silent :
      Silent ((if c.ended then [] else r.2.1.map fun _ => (.wokeLoop : Effect W)) ++ r.2.2.map .woke) := by
    refine silent_append.mpr ⟨?_, silent_woke _⟩
    split
    · exact silent_nil
    · exact silent_wokeLoop _
  exact ⟨rfl, rfl, rfl, rfl, rfl, rfl, rfl, rfl, rfl, rfl, rfl, _, silent, List.append_assoc ..⟩

theorem undisturbed_emit (c : Call σ Out In W) {es : List (Effect W)} (silent : Silent es) :
    Undisturbed c (c.emit es) :=
  ⟨rfl, rfl, rfl, rfl, rfl, rfl, rfl, rfl, rfl, rfl, rfl, es, silent, rfl⟩

/-! ## what a step changes besides the turns -/

/-- What the handler and the transport change: the writer may be used, which takes what is `added`, and the
return of the handler be reported. -/
structure Worked (c c' : Call σ Out In W) (added : List (Outbound Out)) : Prop where
  frame : Undisturbed c c'
  ended : c'.ended = c.ended
  engaged : c'.engaged = c.engaged
  events : ∃ es rs, c.writer.Passes c'.writer added es ∧ (∀ e ∈ rs, ∃ o, e = .returned o) ∧
    c'.events = if c.ended then c.events else c.events ++ es.map ofWriterEvent ++ rs

theorem worked_refl {c : Call σ Out In W} (sound : c.writer.Sound) : Worked c c [] :=
  ⟨.refl c, rfl, rfl, [], [], Writer.passes_of_same sound rfl rfl, by simp, by simp⟩

theorem worked_withWriter {c : Call σ Out In W} {added : List (Outbound Out)}
    {r : Writer (Outbound Out) Failure W × List (WriterEvent (Outbound Out) Failure) × List W}
    (passes : c.writer.Passes r.1 added r.2.1) : Worked c (c.withWriter r) added := by
  have frame := undisturbed_withWriter c r
  rw [withWriter_eq] at frame ⊢
  exact ⟨frame, rfl, rfl, r.2.1, [], passes, by simp, by simp⟩

theorem worked_of_queues {c c' : Call σ Out In W} (sound : c.writer.Sound) {es : List (Effect W)}
    (silent : Silent es)
    (same : c' = { c with inbox := c'.inbox, handles := c'.handles, commands := c'.commands,
                          requests := c'.requests, cancellation := c'.cancellation,
                          nextReply := c'.nextReply, replyWaiters := c'.replyWaiters,
                          completionWaiters := c'.completionWaiters, trace := c.trace ++ es }) :
    Worked c c' [] := by
  rw [same]
  exact ⟨⟨rfl, rfl, rfl, rfl, rfl, rfl, rfl, rfl, rfl, rfl, rfl, es, silent, rfl⟩, rfl, rfl, [], [],
    Writer.passes_of_same sound rfl rfl, by simp, by simp⟩

theorem Worked.tell {c c' : Call σ Out In W} {added : List (Outbound Out)} (h : Worked c c' added)
    (outcome : Option Failure) : Worked c (c'.tell (.returned outcome)) added := by
  obtain ⟨frame, ended, engaged, es, rs, passes, returns, events⟩ := h
  rw [tell_eq]
  refine ⟨frame.trans ⟨rfl, rfl, rfl, rfl, rfl, rfl, rfl, rfl, rfl, rfl, rfl, _, ?_, rfl⟩,
    ended, engaged, es, rs ++ [.returned outcome], passes, ?_, ?_⟩
  · by_cases h : c'.ended = true <;> simp [h, Effect.isSilent]
  · simpa [or_imp, forall_and] using returns
  · by_cases h : c.ended = true <;> simp [ended, events, h]

theorem Worked.closeRequests {c c' : Call σ Out In W} {added : List (Outbound Out)} (h : Worked c c' added)
    (t : Terminal Status) : Worked c (c'.closeRequests t) added :=
  ⟨h.frame.trans (undisturbed_closeRequests c' t), h.ended, h.engaged, h.events⟩

theorem Worked.of_closeRequests {c c' : Call σ Out In W} {added : List (Outbound Out)} {t : Terminal Status}
    (h : Worked (c.closeRequests t) c' added) : Worked c c' added :=
  ⟨(undisturbed_closeRequests c t).trans h.frame, h.ended, h.engaged, h.events⟩

theorem worked_perform [DecidableEq W] {c : Call σ Out In W} (sound : c.writer.Sound) (d : Deed Out W) :
    Worked c (c.perform d) (c.takes d) := by
  have done {c : Call σ Out In W} (sound : c.writer.Sound) (outcome : Option Failure) :
      Worked c (c.report outcome) [] :=
    (worked_withWriter (Writer.passes_finish sound none)).tell outcome
  have woke : Silent ([.wokeLoop] : List (Effect W)) := by simp [Effect.isSilent]
  cases d with
  | write m => exact worked_withWriter (r := (_, _, [])) (Writer.passes_offer sound m)
  | awaitWrite w =>
    simpa [perform, pollWrite, withWriter, emit, takes] using worked_withWriter (c := c)
      (r := ((c.writer.pollCapacity w).1, [], [])) (Writer.passes_pollCapacity sound w)
  | awaitDrained w =>
    simpa [perform, pollDrained, withWriter, emit, takes] using worked_withWriter (c := c)
      (r := ((c.writer.pollDrained w).1, [], [])) (Writer.passes_pollDrained sound w)
  | finish => exact worked_withWriter (Writer.passes_finish sound none)
  | read w => exact worked_of_queues sound silent_nil (by simp [perform, readRequest])
  | set setting =>
    simp only [perform, issue, takes]
    split
    · exact worked_refl sound
    · exact worked_of_queues sound woke rfl
  | awaitReply id w =>
    simp only [perform, pollReply, takes]
    split
    · exact worked_refl sound
    · split
      · exact worked_refl sound
      · exact worked_of_queues sound silent_nil (by simp)
  | abort reason =>
    simp only [perform, abort, takes]
    split
    · exact worked_refl sound
    · exact worked_of_queues sound woke rfl
  | awaitCancelled w => exact worked_of_queues sound silent_nil (by simp [perform, pollCancelled])
  | returned outcome => exact (done sound outcome).closeRequests _
  | lost => exact (done (c := c.closeRequests .finished) sound (some endedWithoutReturning)).of_closeRequests

/-- What the end of the loop changes. -/
structure Concluded (c c' : Call σ Out In W) : Prop where
  frame : Undisturbed c c'
  completed : c.progress.isCompleted = true
  before : c.ended = false
  ended : c'.ended = true
  writer : c'.writer = c.writer

/-- All that a step can do. -/
inductive Stepped (s : Setup σ Out In) (c : Call σ Out In W) (a : Act Out W) (c' : Call σ Out In W) : Prop
  | turned (now : Instant) (h : a = .turn now) (turn : c.turn s now = some c')
  | worked (started : c.hasStarted = true) (h : Worked c c' (c.accepts a))
  | waited (nothing : c.accepts a = []) (h : Worked c c' []) (events : c'.events = c.events)
  | concluded (nothing : c.accepts a = []) (h : Concluded c c')

theorem concluded_conclude (c : Call σ Out In W) : c.conclude = c ∨ Concluded c c.conclude := by
  unfold conclude
  split
  · exact .inl rfl
  · rename_i h
    simp only [Bool.or_eq_true, Bool.not_eq_true', not_or, Bool.not_eq_true, Bool.not_eq_false] at h
    refine .inr ⟨?_, h.2, h.1, rfl, ?_⟩ <;> split
    · exact ⟨rfl, rfl, rfl, rfl, rfl, rfl, rfl, rfl, rfl, rfl, rfl, _, by simp, List.append_assoc ..⟩
    · exact ⟨rfl, rfl, rfl, rfl, rfl, rfl, rfl, rfl, rfl, rfl, rfl, _, by simp, rfl⟩
    · rfl
    · rfl

theorem stepped [DecidableEq W] (s : Setup σ Out In) {c : Call σ Out In W} (sound : c.writer.Sound)
    (a : Act Out W) : Stepped s c a (c.step s a) := by
  have still {b : Act Out W} (nothing : c.accepts b = []) : Stepped s c b c :=
    .waited nothing (worked_refl sound) rfl
  have woke : Silent ([.wokeLoop] : List (Effect W)) := by simp [Effect.isSilent]
  cases a with
  | submit i =>
    simp only [step, submit]
    split
    · exact still rfl
    · exact .waited rfl (worked_of_queues sound woke rfl) rfl
  | hangUp =>
    simp only [step, hangUp]
    split
    · split
      · exact .waited rfl (worked_of_queues sound silent_nil (by simp)) rfl
      · exact .waited rfl (worked_of_queues sound woke rfl) rfl
    · exact still rfl
  | awaitEnd w =>
    simp only [step, pollCompleted]
    split
    · exact still rfl
    · exact .waited rfl (worked_of_queues sound silent_nil (by simp)) rfl
  | deed d =>
    by_cases started : c.hasStarted = true
    · exact .worked started (by simpa [step, accepts, started] using worked_perform sound d)
    · simpa [step, started] using still (b := .deed d) (by simp [accepts, started])
  | turn now =>
    cases h : c.turn s now with
    | none => simpa [step, h] using still (b := .turn now) rfl
    | some c' => exact .turned now rfl (by simp [step, h])
  | conclude =>
    rcases concluded_conclude c with same | concluded
    · simpa [step, same] using still (b := .conclude) rfl
    · exact .concluded rfl concluded

end Call

end CallLifecycle.Server
