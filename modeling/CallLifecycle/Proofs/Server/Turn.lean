import CallLifecycle.Proofs.Server.Speech

/-!
# What a turn of the loop does

* `Live` — a call that goes on, between two turns;
* `Handled`, `Starts`, `Crashes` — turns that say nothing: something was handled, the handler started, the
  loop was cut off;
* `onCommand_cases`, `onInbound_cases`, `onHangUp_cases` — what becomes of an order and of what the
  transport does;
* `idle_cases` — what a turn does of which the handler tells nothing;
* `Turned`, `turned` — **all that a turn can do**.
-/

namespace CallLifecycle.Server

def HandlerEvent.isYielded {Out : Type} : HandlerEvent Out → Bool
  | .yielded _ => true
  | _ => false

def HandlerEvent.isDrained {Out : Type} : HandlerEvent Out → Bool
  | .drained _ => true
  | _ => false

namespace Call

variable {σ Out In W : Type} {s : Setup σ Out In} {c c' : Call σ Out In W}

/-- A call that goes on, between two turns. -/
structure Live (c : Call σ Out In W) : Prop extends IsOpen c where
  handler : c.progress.handler ≠ .completed
  started : c.hasStarted = true ↔ c.progress.handler = .active
  inbound : c.progress.inbound = .awaitingMetadata ↔ c.progress.handler = .idle
  pending : c.progress.handler = .idle → c.progress.outbound = .headersPending
  events : c.progress.handler = .idle → c.events = []
  engaged : c.progress.handler = .idle → c.engaged = false
  ended : c.ended = false
  crashed : c.crashed = false
  sound : c.writer.Sound

theorem Live.idle_or_active (h : Live c) : c.progress.handler = .idle ∨ c.progress.handler = .active := by
  have handler := h.handler
  cases hp : c.progress.handler with
  | idle => exact .inl rfl
  | active => exact .inr rfl
  | completed => exact absurd hp handler

theorem Live.active_of_events (h : Live c) (some : c.events ≠ []) : c.progress.handler = .active :=
  h.idle_or_active.resolve_left fun idle => some (h.events idle)

theorem Live.active_of_engaged (h : Live c) (engaged : c.engaged = true) : c.progress.handler = .active :=
  h.idle_or_active.resolve_left fun idle => by simp [h.engaged idle] at engaged

theorem Live.active_of_inbound (h : Live c) (some : c.progress.inbound ≠ .awaitingMetadata) :
    c.progress.handler = .active :=
  h.idle_or_active.resolve_left fun idle => some (h.inbound.mpr idle)

/-- A turn that says nothing: an order of the handler or something from the transport was handled. -/
structure Handled (c c' : Call σ Out In W) : Prop where
  handler : c'.progress.handler = c.progress.handler
  outbound : c'.progress.outbound = c.progress.outbound
  inbound : c'.progress.inbound = .awaitingMetadata ↔ c.progress.inbound = .awaitingMetadata
  attached : c'.attached = c.attached
  engaged : c'.engaged = c.engaged
  drained : c'.drained = c.drained
  outcome : c'.outcome = c.outcome
  ended : c'.ended = c.ended
  crashed : c'.crashed = c.crashed
  sent : c'.sent = c.sent
  hasStarted : c'.hasStarted = c.hasStarted
  events : ∃ es, c.writer.Passes c'.writer [] es ∧ c'.events = c.events ++ es.map ofWriterEvent ∧
    (c.engaged = false → es = [])

theorem handled_of_frame {x : σ} {p : Progress} (sound : c.writer.Sound)
    (frame : Undisturbed { c with surroundings := x, progress := p } c')
    (handler : p.handler = c.progress.handler) (outbound : p.outbound = c.progress.outbound)
    (inbound : p.inbound = .awaitingMetadata ↔ c.progress.inbound = .awaitingMetadata)
    (engaged : c'.engaged = c.engaged) (ended : c'.ended = c.ended) (writer : c'.writer = c.writer)
    (events : c'.events = c.events) : Handled c c' := by
  have progress : c'.progress = p := frame.progress
  exact ⟨by rw [progress, handler], by rw [progress, outbound], by rw [progress, inbound], frame.attached,
    engaged, frame.drained, frame.outcome, ended, frame.crashed, frame.sent_eq, frame.hasStarted_eq, [],
    Writer.passes_of_same (writer ▸ sound) (by rw [writer]) (by rw [writer]), by simp [events], fun _ => rfl⟩

/-- A turn that starts the handler. -/
structure Starts (c c' : Call σ Out In W) : Prop where
  idle : c.progress.handler = .idle
  handler : c'.progress.handler = .active
  outbound : c'.progress.outbound = c.progress.outbound
  inbound : c'.progress.inbound ≠ .awaitingMetadata
  attached : c'.attached = c.attached
  drained : c'.drained = c.drained
  ended : c'.ended = c.ended
  crashed : c'.crashed = c.crashed
  sent : c'.sent = c.sent
  hasStarted : c'.hasStarted = true
  events : c'.events = c.events
  passes : c.writer.Passes c'.writer [] []

/-- A turn that cuts the loop off, instead of starting the handler. -/
structure Crashes (c c' : Call σ Out In W) : Prop where
  idle : c.progress.handler = .idle
  handler : c'.progress.handler = .idle
  outbound : c'.progress.outbound = c.progress.outbound
  ended : c'.ended = true
  crashed : c'.crashed = true
  sent : c'.sent = c.sent
  hasStarted : c'.hasStarted = c.hasStarted
  sound : c'.writer.Sound

/-- Of a call that goes on a part is expected, or it breaks the protocol. -/
theorem receive_cases {p : Progress} (going : p.handler ≠ .completed)
    (idle : p.inbound = .awaitingMetadata ↔ p.handler = .idle) (k : PartKind) :
    (k = .metadata ∧ p.inbound = .awaitingMetadata ∧
      p.receive k = ({ p with inbound := .receiving }, .forward)) ∨
    (k = .message ∧ p.inbound = .receiving ∧ p.receive k = (p, .forward)) ∨
    (k = .close ∧ p.inbound = .receiving ∧ p.receive k = ({ p with inbound := .closed }, .forward)) ∨
    ∃ reason, p.receive k = (p, .cancel reason) := by
  rcases p with ⟨handler, inbound, outbound⟩
  cases handler <;> cases inbound <;> cases k <;>
    simp_all [Progress.receive, Progress.whileActive]

/-- A call whose interceptors have looked at a request part, behind which the requests are so far. -/
def seen (c : Call σ Out In W) (x : σ) (vs : List Visit) (i : InboundPhase) : Call σ Out In W :=
  { c with surroundings := x, progress := { c.progress with inbound := i },
           trace := c.trace ++ vs.map .visited }

theorem undisturbed_seen (c : Call σ Out In W) (x : σ) (vs : List Visit) (i : InboundPhase) :
    Undisturbed { c with surroundings := x, progress := { c.progress with inbound := i } }
      (c.seen x vs i) :=
  undisturbed_emit _ (silent_visited vs)

theorem isOpen_seen (h : IsOpen c) (x : σ) (vs : List Visit) (i : InboundPhase) :
    IsOpen (c.seen x vs i) :=
  ⟨h.attached, h.outbound⟩

theorem closes_of_seen {x : σ} {vs : List Visit} {i : InboundPhase} (h : IsOpen c)
    (closes : Closes s (c.seen x vs i) [] c') : Closes s c [] c' :=
  closes.of_eq h.outbound (undisturbed_seen c x vs i).sent_eq rfl rfl
    (undisturbed_seen c x vs i).hasStarted_eq (.refl _)

/-- Whether the metadata of a request and the settings give a deadline that the clock cannot tell. -/
def Overruns (s : Setup σ Out In) (now : Instant) (m : Metadata) : Prop :=
  (Timeout.effective m s.config.timeout).map now.after? = some none

theorem crash_eq (attached : c.attached = true) :
    c.crash = { c with attached := false, deadline := none, ended := true, crashed := true, inbox := [],
                       events := [], commands := [], completionWaiters := [],
                       trace := c.trace ++ [.released] ++ c.completionWaiters.map .woke } := by
  simp only [crash, release, if_pos attached, emit]

theorem startHandler_of_overruns {now : Instant} {m : Metadata} (h : Overruns s now m) :
    c.startHandler s now m = c.crash := by
  rw [Overruns] at h
  simp only [startHandler, h]

theorem startHandler_eq {now : Instant} {m : Metadata} (h : ¬ Overruns s now m)
    (idle : c.progress.handler = .idle) (inbound : c.progress.inbound ≠ .awaitingMetadata) :
    c.startHandler s now m =
      { c with deadline := ((Timeout.effective m s.config.timeout).map now.after?).join.map Instant.alarm,
               engaged := true,
               writer := if c.writable then c.writer else (c.writer.setWritable false).1,
               progress := { c.progress with handler := .active },
               trace := c.trace ++ [.started m ((Timeout.effective m s.config.timeout).map now.after?).join] } := by
  rw [Overruns] at h
  unfold startHandler
  split
  · contradiction
  · simp [Progress.start, idle, inbound, emit]

/-- With metadata the handler starts, unless the clock cannot tell its deadline. -/
theorem startHandler_cases (h : Live c) (idle : c.progress.handler = .idle) (now : Instant)
    (m : Metadata) (x : σ) (vs : List Visit) :
    (¬ Overruns s now m ∧ Starts c ((c.seen x vs .receiving).startHandler s now m)) ∨
    (Overruns s now m ∧ Crashes c ((c.seen x vs .receiving).startHandler s now m)) := by
  have looked := undisturbed_seen c x vs .receiving
  by_cases overruns : Overruns s now m
  · rw [startHandler_of_overruns overruns, crash_eq (c := c.seen x vs .receiving) h.attached]
    have silent :
        Silent ([.released] ++ (c.seen x vs .receiving).completionWaiters.map .woke : List (Effect W)) := by
      simp [Effect.isSilent]
    have frame := looked.trans (undisturbed_emit _ silent)
    refine .inr ⟨overruns, idle, idle, rfl, rfl, rfl, ?_, ?_, h.sound⟩
    · simpa [Call.sent_eq, emit] using frame.sent_eq
    · simpa [hasStarted, emit] using frame.hasStarted_eq
  · have e := startHandler_eq (c := c.seen x vs .receiving) overruns idle (by simp [seen])
    have passes : c.writer.Passes (if c.writable then c.writer else (c.writer.setWritable false).1) [] [] := by
      split
      · exact Writer.passes_of_same h.sound rfl rfl
      · exact Writer.passes_setWritable h.sound false
    rw [e]
    refine .inl ⟨overruns, idle, rfl, rfl, by simp [seen], rfl, rfl, rfl, rfl, ?_, ?_, rfl, passes⟩
    · simpa [Call.sent_eq, Effect.part?, List.filterMap_cons] using looked.sent_eq
    · simp [hasStarted, Effect.isStart]

/-- With this request part, as it comes out of the interceptors, a handler is to start. -/
structure Admits (s : Setup σ Out In) (c : Call σ Out In W) (p : RequestPart) (m : Metadata) : Prop where
  idle : c.progress.handler = .idle
  passed : (s.pipeline.request p c.surroundings).1.rejection = none
  part : (s.pipeline.request p c.surroundings).1.part = .metadata m

theorem handled_of_seen {x : σ} {vs : List Visit} {i : InboundPhase} (sound : c.writer.Sound)
    (inbound : i = .awaitingMetadata ↔ c.progress.inbound = .awaitingMetadata)
    (frame : Undisturbed (c.seen x vs i) c') (engaged : c'.engaged = c.engaged)
    (ended : c'.ended = c.ended) (writer : c'.writer = c.writer) (events : c'.events = c.events) :
    Handled c c' :=
  handled_of_frame sound ((undisturbed_seen c x vs i).trans frame) rfl rfl inbound engaged ended writer
    events

theorem handled_deliver (sound : c.writer.Sound) (x : σ) (vs : List Visit) (m : In) :
    Handled c ((c.seen x vs c.progress.inbound).deliver m) := by
  unfold deliver
  split
  · exact handled_of_seen sound .rfl
      ⟨rfl, rfl, rfl, rfl, rfl, rfl, rfl, rfl, rfl, rfl, rfl, _, silent_woke _, rfl⟩ rfl rfl rfl rfl
  · exact handled_of_seen sound .rfl (.refl _) rfl rfl rfl rfl

/-- What becomes of a request part. -/
theorem onPart_cases (h : Live c) (now : Instant) (p : RequestPart) :
    Handled c (c.onPart s now p) ∨ Starts c (c.onPart s now p) ∨
    (Crashes c (c.onPart s now p) ∧ ∃ m, Admits s c p m ∧ Overruns s now m) ∨
    Closes s c [] (c.onPart s now p) := by
  have closed (x : σ) (vs : List Visit) (i : InboundPhase) (e : Failure) :
      Closes s c [] ((c.seen x vs i).cancel s e) :=
    closes_of_seen h.toIsOpen (cancel_closes (isOpen_seen h.toIsOpen x vs i) e)
  unfold onPart
  simp only [if_pos h.attached]
  cases hr : (s.pipeline.request p c.surroundings).1.rejection with
  | some status => exact .inr (.inr (.inr (closed _ _ c.progress.inbound _)))
  | none =>
    rcases receive_cases h.handler h.inbound (s.pipeline.request p c.surroundings).1.part.kind with
      ⟨hk, hi, e⟩ | ⟨hk, hi, e⟩ | ⟨hk, hi, e⟩ | ⟨reason, e⟩ <;> simp only [emit, e]
    · have idle := h.inbound.mp hi
      cases hp : (s.pipeline.request p c.surroundings).1.part with
      | metadata m =>
        rcases startHandler_cases (s := s) h idle now m (s.pipeline.request p c.surroundings).2
          (s.pipeline.request p c.surroundings).1.visits with ⟨-, starts⟩ | ⟨overruns, crashes⟩
        · exact .inr (.inl starts)
        · exact .inr (.inr (.inl ⟨crashes, m, ⟨idle, hr, hp⟩, overruns⟩))
      | message _ => simp [hp, RequestPart.kind] at hk
      | close => simp [hp, RequestPart.kind] at hk
    · cases hp : (s.pipeline.request p c.surroundings).1.part with
      | message data =>
        rcases hd : s.codec.decode data (s.pipeline.request p c.surroundings).2 with ⟨status | m, x⟩ <;>
          simp only [onForwarded, hd]
        · exact .inr (.inr (.inr (closed _ _ c.progress.inbound _)))
        · exact .inl (handled_deliver h.sound _ _ _)
      | metadata _ => simp [hp, RequestPart.kind] at hk
      | close => simp [hp, RequestPart.kind] at hk
    · cases hp : (s.pipeline.request p c.surroundings).1.part with
      | close =>
        have receiving : InboundPhase.closed = .awaitingMetadata ↔ c.progress.inbound = .awaitingMetadata := by
          simp [hi]
        simp only [onForwarded]
        split
        · exact .inl (handled_of_seen h.sound receiving (undisturbed_closeRequests _ _) rfl rfl rfl rfl)
        · exact .inl (handled_of_seen h.sound receiving (.refl _) rfl rfl rfl rfl)
      | metadata _ => simp [hp, RequestPart.kind] at hk
      | message _ => simp [hp, RequestPart.kind] at hk
    · exact .inr (.inr (.inr (closed _ _ c.progress.inbound _)))

theorem apply_eq (c : Call σ Out In W) (setting : Setting) : ∃ headers trailers compressionDefault,
    (c.apply setting).1 = { c with headers, trailers, compressionDefault } := by
  unfold apply
  split
  · exact ⟨_, _, _, rfl⟩
  · cases setting <;> simp only <;> try split
    all_goals exact ⟨_, _, _, rfl⟩

theorem onCommand_cases (h : Live c) (o : Command) :
    Handled c (c.onCommand s o) ∨ Closes s c [] (c.onCommand s o) := by
  cases o with
  | abort reason => exact .inr (cancel_closes h.toIsOpen _)
  | set id setting =>
    left
    obtain ⟨headers, trailers, compressionDefault, e⟩ := apply_eq c setting
    have frame := undisturbed_emit c (silent_woke c.replyWaiters)
    simp only [onCommand, e, emit]
    exact ⟨rfl, rfl, .rfl, rfl, rfl, rfl, rfl, rfl, rfl, frame.sent_eq, frame.hasStarted_eq, [],
      Writer.passes_of_same h.sound rfl rfl, by simp, fun _ => rfl⟩

theorem onInbound_cases (h : Live c) (now : Instant) (i : Inbound) :
    Handled c (c.onInbound s now i) ∨ Starts c (c.onInbound s now i) ∨
    (Crashes c (c.onInbound s now i) ∧ ∃ p m, i = .part p ∧ Admits s c p m ∧ Overruns s now m) ∨
    Closes s c [] (c.onInbound s now i) := by
  cases i with
  | part p =>
    rcases onPart_cases (s := s) h now p with handled | starts | ⟨crashes, m, admits, overruns⟩ | closes
    · exact .inl handled
    · exact .inr (.inl starts)
    · exact .inr (.inr (.inl ⟨crashes, p, m, rfl, admits, overruns⟩))
    · exact .inr (.inr (.inr closes))
  | error e => exact .inr (.inr (.inr (cancel_closes h.toIsOpen e)))
  | finish => exact .inr (.inr (.inr (cancel_closes h.toIsOpen _)))
  | writable b =>
    left
    by_cases engaged : c.engaged = true
    · have frame := undisturbed_withWriter { c with writable := b } (c.writer.setWritable b)
      simp only [onInbound, if_pos engaged]
      rw [withWriter_eq] at frame ⊢
      exact ⟨rfl, rfl, .rfl, rfl, rfl, rfl, rfl, rfl, rfl, frame.sent_eq, frame.hasStarted_eq, _,
        Writer.passes_setWritable h.sound b, by simp [h.ended], by simp [engaged]⟩
    · simp only [onInbound, if_neg engaged]
      exact ⟨rfl, rfl, .rfl, rfl, rfl, rfl, rfl, rfl, rfl, rfl, rfl, [],
        Writer.passes_of_same h.sound rfl rfl, by simp, fun _ => rfl⟩

theorem onHangUp_cases (h : Live c) : Handled c (c.onHangUp s) ∨ Closes s c [] (c.onHangUp s) := by
  unfold onHangUp
  by_cases hi : c.progress.inbound = .closed
  · rw [if_pos hi]
    exact .inl ⟨rfl, rfl, .rfl, rfl, rfl, rfl, rfl, rfl, rfl, rfl, rfl, [],
      Writer.passes_of_same h.sound rfl rfl, by simp, fun _ => rfl⟩
  · rw [if_neg hi]
    have isOpen : IsOpen { c with hungUp := true } := ⟨h.attached, h.outbound⟩
    exact .inr ((cancel_closes isOpen _).of_eq h.outbound rfl rfl rfl rfl (.refl _))

/-! ## all that a turn can do -/

def upNext (c : Call σ Out In W) : List (Outbound Out) := (c.events.head?.map HandlerEvent.elements).getD []

/-- The next turn is to start a handler whose deadline the clock cannot tell. -/
def CutsOff (s : Setup σ Out In) (now : Instant) (c : Call σ Out In W) : Prop :=
  c.ended = false ∧ c.events = [] ∧ c.commands = [] ∧
    ∃ p rest m, c.inbox = .part p :: rest ∧ Admits s c p m ∧ Overruns s now m

/-- **All that a turn can do** to a call that goes on. -/
inductive Turned (s : Setup σ Out In) (now : Instant) (c c' : Call σ Out In W) : Prop
  /-- The messages that were handed over are said. -/
  | spoke (batch : List (Outbound Out)) (rest : List (HandlerEvent Out)) (ps : List ResponsePart)
      (next : c.events = .yielded batch :: rest) (speaks : Speaks s { c with events := rest } ps c')
      (codes : List.Forall₂ s.codec.Encodes batch (payloads ps))
  /-- The end of the writer or of the handler is noted, while the other is still to come. -/
  | noted (e : HandlerEvent Out) (rest : List (HandlerEvent Out)) (next : c.events = e :: rest)
      (news : e.isYielded = false)
      (same : c' = { c with events := rest, drained := c'.drained, outcome := c'.outcome })
      (drained : c'.drained = (c.drained || e.isDrained))
  /-- The end of the writer or of the handler comes second, and the call ends. -/
  | ended (e : HandlerEvent Out) (rest : List (HandlerEvent Out)) (next : c.events = e :: rest)
      (news : e.isYielded = false) (drained : (c.drained || e.isDrained) = true) (closes : Closes s c [] c')
  /-- An order is carried out, or something from the transport. -/
  | handled (idle : c.events = []) (h : Handled c c')
  | started (h : Starts c c')
  /-- The call is given up, maybe amid the messages that were handed over. -/
  | closed (ps : List ResponsePart) (n : Nat) (closes : Closes s c ps c')
      (codes : List.Forall₂ s.codec.Encodes (c.upNext.take n) (payloads ps))
      (why : ∀ e rest, c.events = e :: rest → e.isYielded = true)
  | crashed (cut : CutsOff s now c) (h : Crashes c c')

theorem Live.of_queues (h : Live c) (events : List (HandlerEvent Out)) (commands : List Command)
    (inbox : List Inbound) (fewer : c.events = [] → events = []) :
    Live { c with events, commands, inbox } :=
  ⟨⟨h.attached, h.outbound⟩, h.handler, h.started, h.inbound, h.pending, fun idle => fewer (h.events idle),
    h.engaged, h.ended, h.crashed, h.sound⟩

theorem Closes.of_queues {ps : List ResponsePart} {events : List (HandlerEvent Out)}
    {commands : List Command} {inbox : List Inbound} (h : Closes s { c with events, commands, inbox } ps c') :
    Closes s c ps c' :=
  ⟨h.sent, h.order, h.outbound, h.handler, h.attached, h.ended, h.crashed, h.hasStarted, h.writer⟩

theorem Handled.of_queues {commands : List Command} {inbox : List Inbound}
    (h : Handled { c with commands, inbox } c') : Handled c c' :=
  ⟨h.handler, h.outbound, h.inbound, h.attached, h.engaged, h.drained, h.outcome, h.ended, h.crashed, h.sent,
    h.hasStarted, h.events⟩

theorem turned_onEvent (h : Live c) (now : Instant) {e : HandlerEvent Out} {rest : List (HandlerEvent Out)}
    (next : c.events = e :: rest) : Turned s now c ({ c with events := rest }.onEvent s e) := by
  have active := h.active_of_events (by simp [next])
  have isOpen (c₁ : Call σ Out In W) (ha : c₁.attached = c.attached) (hp : c₁.progress = c.progress) :
      IsOpen c₁ := ⟨ha ▸ h.attached, hp ▸ h.outbound⟩
  cases e with
  | yielded batch =>
    rcases sendMessages_cases (s := s) (isOpen { c with events := rest } rfl rfl) active batch with
      ⟨ps, speaks, codes⟩ | ⟨ps, n, closes, codes⟩
    · exact .spoke batch rest ps next speaks codes
    · refine .closed ps n closes.of_queues (by simpa [upNext, next, HandlerEvent.elements] using codes) ?_
      rintro e rest' h'
      obtain ⟨rfl, -⟩ := List.cons.inj (next.symm.trans h')
      rfl
  | drained reason =>
    rcases endOnceDone_cases (s := s) (isOpen { c with events := rest, drained := true } rfl rfl) with
      ⟨same, -⟩ | ⟨-, closes⟩
    · exact .noted _ rest next rfl (by simp only [onEvent, same])
        (by simp [onEvent, same, HandlerEvent.isDrained])
    · exact .ended _ rest next rfl (by simp [HandlerEvent.isDrained])
        (closes.of_eq h.outbound rfl rfl rfl rfl (.refl _))
  | returned outcome =>
    rcases endOnceDone_cases (s := s) (isOpen { c with events := rest, outcome := some outcome } rfl rfl) with
      ⟨same, -⟩ | ⟨drained, closes⟩
    · exact .noted _ rest next rfl (by simp only [onEvent, same])
        (by simp [onEvent, same, HandlerEvent.isDrained])
    · exact .ended _ rest next rfl (by simpa [HandlerEvent.isDrained] using drained)
        (closes.of_eq h.outbound rfl rfl rfl rfl (.refl _))

theorem idle_cases (h : Live c) (idle : c.events = []) {now : Instant} (turn : c.turn s now = some c') :
    Handled c c' ∨ Starts c c' ∨ (Crashes c c' ∧ CutsOff s now c) ∨ Closes s c [] c' := by
  have going : ¬ (c.ended || c.progress.isCompleted) = true := by
    simpa [h.ended, Progress.isCompleted] using h.handler
  rw [Call.turn, if_neg going] at turn
  split at turn
  · rename_i next
    cases idle.symm.trans next
  · rename_i o rest idle orders
    obtain rfl := Option.some.inj turn
    rcases onCommand_cases (s := s) (h.of_queues c.events rest c.inbox id) o with handled | closes
    · exact .inl handled.of_queues
    · exact .inr (.inr (.inr closes.of_queues))
  · rename_i i rest idle orders inbox
    obtain rfl := Option.some.inj turn
    rcases onInbound_cases (s := s) (h.of_queues c.events c.commands rest id) now i with
      handled | starts | ⟨crashes, p, m, rfl, admits, overruns⟩ | closes
    · exact .inl handled.of_queues
    · exact .inr (.inl ⟨starts.idle, starts.handler, starts.outbound, starts.inbound, starts.attached,
        starts.drained, starts.ended, starts.crashed, starts.sent, starts.hasStarted, starts.events,
        starts.passes⟩)
    · exact .inr (.inr (.inl ⟨⟨crashes.idle, crashes.handler, crashes.outbound, crashes.ended, crashes.crashed,
        crashes.sent, crashes.hasStarted, crashes.sound⟩, h.ended, idle, orders, p, rest, m, inbox,
        ⟨admits.idle, admits.passed, admits.part⟩, overruns⟩))
    · exact .inr (.inr (.inr closes.of_queues))
  · rename_i idle orders inbox
    split at turn
    · obtain rfl := Option.some.inj turn
      rcases onHangUp_cases (s := s) h with handled | closes
      · exact .inl handled
      · exact .inr (.inr (.inr closes))
    · split at turn
      · split at turn
        · obtain rfl := Option.some.inj turn
          exact .inr (.inr (.inr (cancel_closes h.toIsOpen _)))
        · cases turn
      · cases turn

theorem turned (h : Live c) {now : Instant} (turn : c.turn s now = some c') : Turned s now c c' := by
  cases next : c.events with
  | cons e rest =>
    rw [Call.turn, if_neg (by simpa [h.ended, Progress.isCompleted] using h.handler), next] at turn
    obtain rfl := Option.some.inj turn
    exact turned_onEvent h now next
  | nil =>
    rcases idle_cases h next turn with handled | starts | ⟨crashes, cut⟩ | closes
    · exact .handled next handled
    · exact .started starts
    · exact .crashed cut crashes
    · exact .closed [] 0 closes .nil (by simp [next])

theorem onPart_of_admits (h : Live c) (now : Instant) {p : RequestPart} {m : Metadata} (admits : Admits s c p m) :
    c.onPart s now p = (c.seen (s.pipeline.request p c.surroundings).2
      (s.pipeline.request p c.surroundings).1.visits .receiving).startHandler s now m := by
  have inbound := h.inbound.mpr admits.idle
  have receive : c.progress.receive .metadata = ({ c.progress with inbound := .receiving }, .forward) := by
    simp [Progress.receive, admits.idle, inbound]
  unfold onPart
  simp only [if_pos h.attached, admits.passed, admits.part, RequestPart.kind, emit, receive]
  rfl

theorem turn_of_cutsOff (h : Live c) {now : Instant} (cut : CutsOff s now c) :
    ∃ c', c.turn s now = some c' ∧ c'.crashed = true := by
  obtain ⟨-, idle, orders, p, rest, m, inbox, admits, overruns⟩ := cut
  have going : ¬ (c.ended || c.progress.isCompleted) = true := by
    simpa [h.ended, Progress.isCompleted] using h.handler
  have live := h.of_queues c.events c.commands rest id
  have part := onPart_of_admits (s := s) (c := { c with inbox := rest }) live now
    ⟨admits.idle, admits.passed, admits.part⟩
  refine ⟨{ c with inbox := rest }.onPart s now p, ?_, ?_⟩
  · rw [Call.turn, if_neg going]
    split <;> simp_all [onInbound]
  · rw [part, startHandler_of_overruns overruns]
    rfl

end Call

end CallLifecycle.Server
