import CallLifecycle.Proofs.Server.Turn

/-!
# What a turn of the loop changes

* `GivenUp` — a call that is given up: what its handler loses, and what the client is told;
* `Concludes` — a call that ends with its handler;
* `unsaid?`, `sendMessages_advance` — the first failure for which messages cannot be said, and the call given up for it;
* `Looked` — a call that has taken something up and looked at it, without a word;
* `TakesUp`, `GivesUp`, `Fails` — what becomes of a request part, and the failures for which a turn gives a call up;
* `Advance`, `advance` — **all that a turn changes**, field by field;
* `turn_of_givesUp`, `givenUp_of_fails` — a turn with such a failure gives the call up for it.
-/

namespace CallLifecycle.Server

def HandlerEvent.outcome? {Out : Type} : HandlerEvent Out → Option (Option Failure)
  | .returned outcome => some outcome
  | _ => none

namespace Call

variable {σ Out In W : Type} {s : Setup σ Out In} {c c' c'' : Call σ Out In W}

/-! ## calls that are given up -/

/-- A call that is given up for a failure. Its handler is cancelled and loses its requests and its responses; the
client is told the failure as the delegate tells it, but never as a success. -/
structure GivenUp (s : Setup σ Out In) (e : Failure) (c c' : Call σ Out In W) : Prop where
  same : c' =
    { c with progress := { handler := .completed, inbound := .closed, outbound := .ended },
             attached := false, deadline := none, engaged := false,
             cancellation := if c.engaged then c.cancellation.raise.1 else c.cancellation,
             requests := if c.engaged then (c.requests.terminate (.failed callWasCancelled)).1 else c.requests,
             writer := if c.engaged then (c.writer.cancel (.status callWasCancelled)).1 else c.writer,
             events := c'.events, headers := c'.headers, trailers := c'.trailers,
             surroundings := c'.surroundings, trace := c'.trace }
  sent : ∃ x q, c'.sent = c.sent ++ [q] ∧
    Emerges s.pipeline
      (.close (remapOk "call" (s.delegate.library e x).1.1) (c.closing (s.delegate.library e x).1.2)) q
  hasStarted : c'.hasStarted = c.hasStarted

theorem disengage_eq (c : Call σ Out In W) :
    c.disengage =
      { c with engaged := false,
               cancellation := if c.engaged then c.cancellation.raise.1 else c.cancellation,
               requests := if c.engaged then (c.requests.terminate (.failed callWasCancelled)).1 else c.requests,
               writer := if c.engaged then (c.writer.cancel (.status callWasCancelled)).1 else c.writer,
               events := c.disengage.events, trace := c.disengage.trace } := by
  cases engaged : c.engaged
  · cases c
    simp only at engaged
    subst engaged
    rfl
  · simp only [disengage, engaged, emit_eq, withWriter_eq, closeRequests_eq, raiseCancellation_eq, if_true]

theorem cancel_givenUp (h : IsOpen c) (e : Failure) : GivenUp s e c (c.cancel s e) := by
  have frame := undisturbed_givenUp c
  have isOpen (x : σ) : IsOpen { c.givenUp with surroundings := x } :=
    ⟨frame.attached.trans h.attached, by simpa only [outbound_givenUp] using h.outbound⟩
  obtain ⟨y, vs, q, emerges, eq⟩ := sendEnd_eq (s := s) (isOpen (s.delegate.library e c.givenUp.surroundings).2)
    (remapOk "call" (s.delegate.library e c.givenUp.surroundings).1.1)
    (s.delegate.library e c.givenUp.surroundings).1.2
  rw [← cancel_eq h] at eq
  have closing (more : Metadata) (x : σ) : closing { c.givenUp with surroundings := x } more = c.closing more := by
    simp only [Call.closing, frame.headers, frame.trailers, outbound_givenUp]
  refine ⟨?_, ⟨c.givenUp.surroundings, q, ?_, closing _ _ ▸ emerges⟩, (cancel_closes h e).hasStarted⟩
  · have cut : c.givenUp = _ := disengage_eq { c with progress := c.progress.cancel.1 }
    rw [eq]
    simp only
    rw [cut]
    rfl
  · have sent : c.givenUp.trace.filterMap Effect.part? = c.trace.filterMap Effect.part? := by
      simpa [Call.sent_eq] using frame.sent_eq
    rw [eq]
    simp [Call.sent_eq, (silent_visited vs).filterMap_eq, Effect.part?, sent]

/-! ## calls that end with their handler -/

/-- What the client is told of a handler that returned, and the surroundings that telling it leaves. -/
def tellReturn (s : Setup σ Out In) (x : σ) : Option Failure → (Status × Metadata) × σ
  | none => ((Status.of .ok "", {}), x)
  | some e =>
    ((remapOk "handler" (s.delegate.handler e x).1.1, (s.delegate.handler e x).1.2), (s.delegate.handler e x).2)

/-- A call that ends because its handler returned and all its messages were sent. -/
structure Concludes (s : Setup σ Out In) (outcome : Option Failure) (c c' : Call σ Out In W) : Prop where
  same : c' =
    { c with progress := { c.progress with handler := .completed, outbound := .ended },
             attached := false, deadline := none, outcome := none, headers := c'.headers, trailers := c'.trailers,
             surroundings := c'.surroundings, trace := c'.trace }
  sent : ∃ q, c'.sent = c.sent ++ [q] ∧
    Emerges s.pipeline (.close (tellReturn s c.surroundings outcome).1.1
      (c.closing (tellReturn s c.surroundings outcome).1.2)) q
  hasStarted : c'.hasStarted = c.hasStarted

theorem sendEnd_concludes (h : IsOpen c) (outcome : Option Failure) :
    Concludes s outcome c
      ({ c with outcome := none, surroundings := (tellReturn s c.surroundings outcome).2 }.sendEnd s
        (tellReturn s c.surroundings outcome).1.1 (tellReturn s c.surroundings outcome).1.2) := by
  obtain ⟨x, vs, q, emerges, eq⟩ := sendEnd_eq (s := s)
    (c := { c with outcome := none, surroundings := (tellReturn s c.surroundings outcome).2 })
    ⟨h.attached, h.outbound⟩ (tellReturn s c.surroundings outcome).1.1 (tellReturn s c.surroundings outcome).1.2
  refine ⟨?_, ⟨q, ?_, emerges⟩, ?_⟩ <;> rw [eq]
  · simp [Call.sent_eq, (silent_visited vs).filterMap_eq, Effect.part?]
  · simp [hasStarted, (silent_visited vs).any_eq, Effect.isStart]

theorem endOnceDone_advance (h : IsOpen c) :
    (c.endOnceDone s = c ∧ (c.drained = true → c.outcome = none)) ∨
    ∃ outcome, c.drained = true ∧ c.outcome = some outcome ∧ Concludes s outcome c (c.endOnceDone s) := by
  by_cases hd : c.drained = true
  · unfold endOnceDone
    rw [if_neg (by simp [hd])]
    rcases ho : c.outcome with _ | _ | e
    · exact .inl ⟨rfl, fun _ => rfl⟩
    · exact .inr ⟨none, hd, rfl, sendEnd_concludes h none⟩
    · exact .inr ⟨some e, hd, rfl, sendEnd_concludes h (some e)⟩
  · exact .inl ⟨by simp [endOnceDone, hd], fun hd' => absurd hd' hd⟩

/-! ## messages that cannot be said -/

/-- A call that has taken something from its queues and looked at it, or said something of it. -/
structure Tried (c c' : Call σ Out In W) : Prop where
  same : c' = { c with progress := c'.progress, events := c'.events, commands := c'.commands, inbox := c'.inbox,
                       hungUp := c'.hungUp, headers := c'.headers, surroundings := c'.surroundings,
                       trace := c'.trace }
  handler : c'.progress.handler = c.progress.handler
  sent : c.sent <+: c'.sent
  hasStarted : c'.hasStarted = c.hasStarted

theorem tried_refl (c : Call σ Out In W) : Tried c c := ⟨rfl, rfl, List.prefix_rfl, rfl⟩

theorem Tried.trans (h : Tried c c') (k : Tried c' c'') : Tried c c'' := by
  refine ⟨?_, k.handler.trans h.handler, h.sent.trans k.sent, k.hasStarted.trans h.hasStarted⟩
  rw [k.same, h.same]

theorem Speaks.tried {ps : List ResponsePart} (h : Speaks s c ps c') : Tried c c' := by
  obtain ⟨qs, sent, -⟩ := h.sent_eq
  exact ⟨by rw [h.same], h.handler_eq, by simp [sent], h.hasStarted_eq⟩

/-- A call that has looked at something it is to say or to handle. -/
theorem tried_silent (c : Call σ Out In W) (i : InboundPhase) (o : OutboundPhase) (headers : Metadata) (x : σ)
    {es : List (Effect W)} (silent : Silent es) :
    Tried c { c with progress := { c.progress with inbound := i, outbound := o }, headers, surroundings := x,
                     trace := c.trace ++ es } := by
  refine ⟨rfl, rfl, ?_, ?_⟩
  · simp [Call.sent_eq, silent.filterMap_eq]
  · simp [hasStarted, silent.any_eq]

/-- A call that has taken something from its queues and looked at it, without a word. -/
structure Looked (c d : Call σ Out In W) : Prop where
  same : d = { c with progress := { c.progress with inbound := d.progress.inbound }, events := d.events,
                      commands := d.commands, inbox := d.inbox, hungUp := d.hungUp, surroundings := d.surroundings,
                      trace := d.trace }
  trace : ∃ es, Silent es ∧ d.trace = c.trace ++ es

theorem Looked.isOpen {d : Call σ Out In W} (looked : Looked c d) (h : IsOpen c) : IsOpen d := by
  rw [looked.same]
  exact ⟨h.attached, h.outbound⟩

theorem Looked.sent_eq {d : Call σ Out In W} (looked : Looked c d) : d.sent = c.sent := by
  obtain ⟨es, silent, trace⟩ := looked.trace
  simp [Call.sent_eq, trace, silent.filterMap_eq]

theorem Looked.tried {d : Call σ Out In W} (looked : Looked c d) : Tried c d := by
  obtain ⟨es, silent, trace⟩ := looked.trace
  refine ⟨by rw [looked.same], by rw [looked.same], looked.sent_eq ▸ List.prefix_rfl, ?_⟩
  simp [hasStarted, trace, silent.any_eq]

theorem looked_of_queues (c : Call σ Out In W) (commands : List Command) (inbox : List Inbound) (hungUp : Bool) :
    Looked c { c with commands, inbox, hungUp } := ⟨rfl, [], silent_nil, (List.append_nil _).symm⟩

theorem looked_seen (c : Call σ Out In W) (rest : List Inbound) (x : σ) (vs : List Visit) (i : InboundPhase) :
    Looked c ({ c with inbox := rest }.seen x vs i) := ⟨rfl, _, silent_visited vs, rfl⟩

/-- The failure for which the headers cannot go ahead of a message: the interceptors reject them. -/
def unheaded? (s : Setup σ Out In) (c : Call σ Out In W) : Option Failure :=
  if c.progress.outbound = .headersPending then
    (s.pipeline.response (.metadata c.headers) c.surroundings).1.rejection.map .status
  else none

/-- The failure for which a message cannot be said: it cannot be encoded, or the interceptors reject it. -/
def unspoken? (s : Setup σ Out In) (c : Call σ Out In W) (m : Outbound Out) : Option Failure :=
  match s.codec.encode m.message c.surroundings with
  | (.error status, _) => some (.status status)
  | (.ok data, x) =>
    let compress := shouldCompress s.config.compression m.compression c.compressionDefault
    (s.pipeline.response (.message data { compress }) x).1.rejection.map .status

/-- The first failure for which some messages, ahead of which the headers go, cannot be said. -/
def unsaid? (s : Setup σ Out In) : Call σ Out In W → List (Outbound Out) → Option Failure
  | _, [] => none
  | c, m :: rest =>
    let headed := (c.sendHeaders s).1
    (c.unheaded? s).or ((headed.unspoken? s m).or (unsaid? s (headed.sendMessage s m).1 rest))

/-- A part is sent, unless the interceptors reject it and so give the call up. -/
theorem sendPart_advance (h : IsOpen c) (p : ResponsePart) :
    ((c.sendPart s p).2 = true ∧ (s.pipeline.response p c.surroundings).1.rejection = none) ∨
    ∃ r c₁, (c.sendPart s p).2 = false ∧ (s.pipeline.response p c.surroundings).1.rejection = some r ∧
      Tried c c₁ ∧ GivenUp s (.status r) c₁ (c.sendPart s p).1 := by
  unfold sendPart
  simp only [intercept, if_pos h.attached, transmit, emit]
  cases hr : (s.pipeline.response p c.surroundings).1.rejection with
  | none => exact .inl ⟨h.attached, rfl⟩
  | some r =>
    refine .inr ⟨r, _, rfl, rfl, tried_silent c c.progress.inbound c.progress.outbound c.headers
      (s.pipeline.response p c.surroundings).2
      (silent_visited (s.pipeline.response p c.surroundings).1.visits), cancel_givenUp ?_ (.status r)⟩
    exact ⟨h.attached, h.outbound⟩

theorem sendHeaders_advance (h : IsOpen c) (active : c.progress.handler = .active) :
    ((c.sendHeaders s).2 = true ∧ c.unheaded? s = none) ∨
    ∃ e c₁, (c.sendHeaders s).2 = false ∧ c.unheaded? s = some e ∧ Tried c c₁ ∧
      GivenUp s e c₁ (c.sendHeaders s).1 := by
  unfold sendHeaders unheaded?
  by_cases ho : c.progress.outbound = .headersPending
  · simp only [if_pos ho, send_metadata active ho]
    have isOpen : IsOpen { c with progress := { c.progress with outbound := .streaming }, headers := {} } :=
      ⟨h.attached, by simp⟩
    rcases sendPart_advance (s := s) isOpen (.metadata c.headers) with ⟨on, passed⟩ |
      ⟨r, c₁, stops, rejected, tried, givenUp⟩
    · exact .inl ⟨on, by simp only [passed, Option.map_none]⟩
    · have before := tried_silent c c.progress.inbound .streaming {} c.surroundings (silent_nil (W := W))
      rw [List.append_nil] at before
      exact .inr ⟨.status r, c₁, stops, by simp only [rejected, Option.map_some], before.trans tried, givenUp⟩
  · exact .inl (by simp [if_neg ho])

theorem sendMessage_advance (h : IsOpen c) (active : c.progress.handler = .active)
    (ho : c.progress.outbound = .streaming) (m : Outbound Out) :
    ((c.sendMessage s m).2 = true ∧ c.unspoken? s m = none) ∨
    ∃ e c₁, (c.sendMessage s m).2 = false ∧ c.unspoken? s m = some e ∧ Tried c c₁ ∧
      GivenUp s e c₁ (c.sendMessage s m).1 := by
  unfold sendMessage unspoken?
  have isOpen (x : σ) : IsOpen { c with surroundings := x } := ⟨h.attached, h.outbound⟩
  have before (x : σ) : Tried c { c with surroundings := x } := by
    simpa using tried_silent c c.progress.inbound c.progress.outbound c.headers x (silent_nil (W := W))
  rcases hm : s.codec.encode m.message c.surroundings with ⟨status | data, x⟩
  · exact .inr ⟨.status status, _, rfl, rfl, before x, cancel_givenUp (isOpen x) (.status status)⟩
  · simp only [send_message active ho]
    rcases sendPart_advance (s := s) (isOpen x) (.message data
      { compress := shouldCompress s.config.compression m.compression c.compressionDefault }) with
      ⟨on, passed⟩ | ⟨r, c₁, stops, rejected, tried, givenUp⟩
    · exact .inl ⟨on, by simp only [passed, Option.map_none]⟩
    · exact .inr ⟨.status r, c₁, stops, by simp only [rejected, Option.map_some], (before x).trans tried, givenUp⟩

/-- What the writer handed over is said, or the call is given up amid it, for the first failure. -/
theorem sendMessages_advance (h : IsOpen c) (active : c.progress.handler = .active) (batch : List (Outbound Out)) :
    (c.unsaid? s batch = none ∧ ∃ ps, Speaks s c ps (c.sendMessages s batch)) ∨
    ∃ e c₁, c.unsaid? s batch = some e ∧ Tried c c₁ ∧ GivenUp s e c₁ (c.sendMessages s batch) := by
  induction batch generalizing c with
  | nil => exact .inl ⟨rfl, [], speaks_refl h.outbound⟩
  | cons m rest ih =>
    have going : c.progress.isCompleted = false := by simp [Progress.isCompleted, active]
    rw [unsaid?]
    rcases hh : c.sendHeaders s with ⟨c₁, on⟩
    have headers := sendHeaders_cases (s := s) h active
    have headed := sendHeaders_advance (s := s) h active
    rw [hh] at headers headed
    rcases headed with ⟨rfl, fine⟩ | ⟨e, c₃, rfl, fails, tried, givenUp⟩
    · obtain ⟨ps, -, speaks, -, streaming⟩ := headers.resolve_right (by simp)
      rw [fine, Option.none_or]
      rcases hm : c₁.sendMessage s m with ⟨c₂, on⟩
      have isOpen := speaks.isOpen h
      have active₁ := speaks.handler_eq.trans active
      have message := sendMessage_cases (s := s) isOpen active₁ streaming m
      have spoken := sendMessage_advance (s := s) isOpen active₁ streaming m
      rw [hm] at message spoken
      rcases spoken with ⟨rfl, fine⟩ | ⟨e, c₃, rfl, fails, tried, givenUp⟩
      · obtain ⟨p, data, -, speaks', -⟩ := message.resolve_right (by simp)
        have both := speaks.trans speaks'
        have goesOn : c.sendMessages s (m :: rest) = c₂.sendMessages s rest := by
          simp [sendMessages, going, hh, hm]
        rw [goesOn, fine, Option.none_or]
        rcases ih (both.isOpen h) (both.handler_eq.trans active) with
          ⟨fine, qs, more⟩ | ⟨e, c₃, fails, tried, givenUp⟩
        · exact .inl ⟨fine, _, both.trans more⟩
        · exact .inr ⟨e, c₃, fails, both.tried.trans tried, givenUp⟩
      · have stops : c.sendMessages s (m :: rest) = c₂ := by simp [sendMessages, going, hh, hm]
        exact .inr ⟨e, c₃, by rw [fails, Option.some_or], speaks.tried.trans tried, stops ▸ givenUp⟩
    · have stops : c.sendMessages s (m :: rest) = c₁ := by simp [sendMessages, going, hh]
      exact .inr ⟨e, c₃, by rw [fails, Option.some_or], tried, stops ▸ givenUp⟩

/-! ## what becomes of request parts -/

/-- A request part as it comes out of the interceptors, unless they reject it. -/
def admitted? (s : Setup σ Out In) (c : Call σ Out In W) (p : RequestPart) : Option RequestPart :=
  match (s.pipeline.request p c.surroundings).1.rejection with
  | some _ => none
  | none => some (s.pipeline.request p c.surroundings).1.part

def beyond (s : Setup σ Out In) (c : Call σ Out In W) (p : RequestPart) : σ :=
  (s.pipeline.request p c.surroundings).2

/-- The next turn takes a request part, which comes out of the interceptors as another. -/
structure TakesUp (s : Setup σ Out In) (c : Call σ Out In W) (p q : RequestPart) (rest : List Inbound) : Prop where
  idle : c.events = []
  orders : c.commands = []
  inbox : c.inbox = .part p :: rest
  admitted : c.admitted? s p = some q

/-! ## all that a turn changes -/

/-- Why the next turn gives the call up, and the failure that is told for it. -/
inductive GivesUp (s : Setup σ Out In) (now : Instant) (c : Call σ Out In W) : Failure → Prop
  /-- A message of the handler cannot be encoded, or it or the headers are rejected. -/
  | unsaid (batch : List (Outbound Out)) (rest : List (HandlerEvent Out)) (e : Failure)
      (next : c.events = .yielded batch :: rest)
      (stops : ({ c with events := rest }.sendMessages s batch).progress.isCompleted = true) : GivesUp s now c e
  | aborted (reason : String) (rest : List Command) (idle : c.events = [])
      (orders : c.commands = .abort reason :: rest) : GivesUp s now c (.violation reason)
  | failed (e : Failure) (rest : List Inbound) (idle : c.events = []) (orders : c.commands = [])
      (inbox : c.inbox = .error e :: rest) : GivesUp s now c e
  | finished (rest : List Inbound) (idle : c.events = []) (orders : c.commands = [])
      (inbox : c.inbox = .finish :: rest) : GivesUp s now c finishedByTransport
  | rejected (p : RequestPart) (r : Status) (rest : List Inbound) (idle : c.events = []) (orders : c.commands = [])
      (inbox : c.inbox = .part p :: rest)
      (rejection : (s.pipeline.request p c.surroundings).1.rejection = some r) : GivesUp s now c (.status r)
  | violated (p q : RequestPart) (reason : String) (rest : List Inbound) (takes : TakesUp s c p q rest)
      (breaks : (c.progress.receive q.kind).2 = .cancel reason) : GivesUp s now c (.violation reason)
  | undecodable (p : RequestPart) (data : Bytes) (status : Status) (rest : List Inbound)
      (takes : TakesUp s c p (.message data) rest) (receiving : c.progress.inbound = .receiving)
      (fails : (s.codec.decode data (c.beyond s p)).1 = .error status) : GivesUp s now c (.status status)
  /-- All handles were dropped before the request was whole. -/
  | forgotten (idle : c.events = []) (orders : c.commands = []) (inbox : c.inbox = []) (handles : c.handles = false)
      (unnoticed : c.hungUp = false) (open' : c.progress.inbound ≠ .closed) : GivesUp s now c handlesDropped
  | expired (d : Instant) (idle : c.events = []) (orders : c.commands = []) (inbox : c.inbox = [])
      (noticed : c.handles = true ∨ c.hungUp = true) (deadline : c.deadline = some d) (due : d ≤ now) :
      GivesUp s now c .deadlineExceeded

/-- The next turn gives the call up for a failure. If it does so amid messages, that is the first for which one of them
cannot be said. -/
inductive Fails (s : Setup σ Out In) (now : Instant) (c : Call σ Out In W) : Failure → Prop
  | unsaid (batch : List (Outbound Out)) (rest : List (HandlerEvent Out)) (e : Failure)
      (next : c.events = .yielded batch :: rest) (fails : { c with events := rest }.unsaid? s batch = some e) :
      Fails s now c e
  | other (e : Failure) (idle : c.events = []) (why : GivesUp s now c e) : Fails s now c e

/-- **All that a turn changes** of a call that goes on. -/
inductive Advance (s : Setup σ Out In) (now : Instant) (c c' : Call σ Out In W) : Prop
  | spoke (batch : List (Outbound Out)) (rest : List (HandlerEvent Out)) (ps : List ResponsePart)
      (next : c.events = .yielded batch :: rest) (speaks : Speaks s { c with events := rest } ps c')
  /-- The end of the writer or of the handler is noted, while the other is still to come. -/
  | noted (e : HandlerEvent Out) (rest : List (HandlerEvent Out)) (next : c.events = e :: rest)
      (news : e.isYielded = false)
      (same : c' = { c with events := rest, drained := c.drained || e.isDrained, outcome := e.outcome?.or c.outcome })
      (waits : c'.drained = true → c'.outcome = none)
  /-- The end of the writer or of the handler comes second. -/
  | concluded (e : HandlerEvent Out) (rest : List (HandlerEvent Out)) (outcome : Option Failure)
      (next : c.events = e :: rest) (news : e.isYielded = false) (drained : (c.drained || e.isDrained) = true)
      (reported : e.outcome?.or c.outcome = some outcome)
      (h : Concludes s outcome { c with events := rest, drained := true, outcome := some outcome } c')
  | gaveUp (e : Failure) (d : Call σ Out In W) (fails : Fails s now c e) (tried : Tried c d) (h : GivenUp s e d c')
  | applied (id : Nat) (setting : Setting) (rest : List Command) (idle : c.events = [])
      (orders : c.commands = .set id setting :: rest)
      (same : c' = { c with commands := rest, headers := c'.headers, trailers := c'.trailers,
                            compressionDefault := c'.compressionDefault, replies := c'.replies,
                            replyWaiters := [], trace := c.trace ++ c.replyWaiters.map .woke })
  | started (p : RequestPart) (m : Metadata) (rest : List Inbound) (deadline : Option Instant) (vs : List Visit)
      (takes : TakesUp s c p (.metadata m) rest) (idle : c.progress.handler = .idle)
      (same : c' = { c with inbox := rest, surroundings := c.beyond s p,
                            progress := { c.progress with handler := .active, inbound := .receiving },
                            deadline := deadline.map Instant.alarm, engaged := true,
                            writer := if c.writable then c.writer else (c.writer.setWritable false).1,
                            trace := c.trace ++ vs.map .visited ++ [.started m deadline] })
  | cutOff (p : RequestPart) (m : Metadata) (rest : List Inbound) (takes : TakesUp s c p (.metadata m) rest)
      (cut : CutsOff s now c) (h : Crashes c c') (requests : c'.requests = c.requests) (writer : c'.writer = c.writer)
  | delivered (p : RequestPart) (data : Bytes) (m : In) (rest : List Inbound) (x : σ) (es : List (Effect W))
      (takes : TakesUp s c p (.message data) rest) (receiving : c.progress.inbound = .receiving)
      (decoded : s.codec.decode data (c.beyond s p) = (.ok m, x)) (silent : Silent es)
      (same : c' = { c with inbox := rest, surroundings := x,
                            requests := if c.engaged then (c.requests.push m).1 else c.requests,
                            trace := c.trace ++ es })
  | closed (p : RequestPart) (rest : List Inbound) (es : List (Effect W)) (takes : TakesUp s c p .close rest)
      (receiving : c.progress.inbound = .receiving) (silent : Silent es)
      (same : c' = { c with inbox := rest, surroundings := c.beyond s p,
                            progress := { c.progress with inbound := .closed },
                            requests := if c.engaged then (c.requests.terminate .finished).1 else c.requests,
                            trace := c.trace ++ es })
  | writable (b : Bool) (rest : List Inbound) (idle : c.events = []) (orders : c.commands = [])
      (inbox : c.inbox = .writable b :: rest)
      (same : c' =
        if c.engaged then { c with inbox := rest, writable := b }.withWriter (c.writer.setWritable b)
        else { c with inbox := rest, writable := b })
  /-- All handles were dropped, but the request was whole. -/
  | noticed (idle : c.events = []) (orders : c.commands = []) (inbox : c.inbox = []) (handles : c.handles = false)
      (unnoticed : c.hungUp = false) (whole : c.progress.inbound = .closed) (same : c' = { c with hungUp := true })

theorem onEvent_cases (h : IsOpen c) {e : HandlerEvent Out} (news : e.isYielded = false) :
    (c.onEvent s e = { c with drained := c.drained || e.isDrained, outcome := e.outcome?.or c.outcome } ∧
      ((c.drained || e.isDrained) = true → e.outcome?.or c.outcome = none)) ∨
    ∃ outcome, (c.drained || e.isDrained) = true ∧ e.outcome?.or c.outcome = some outcome ∧
      Concludes s outcome { c with drained := true, outcome := some outcome } (c.onEvent s e) := by
  cases e with
  | yielded batch => cases news
  | drained reason =>
    rcases endOnceDone_advance (s := s) (c := { c with drained := true }) ⟨h.attached, h.outbound⟩ with
      ⟨same, waits⟩ | ⟨outcome, -, reported, concludes⟩
    · exact .inl ⟨by simp [onEvent, same, HandlerEvent.isDrained, HandlerEvent.outcome?],
        by simpa [HandlerEvent.isDrained, HandlerEvent.outcome?] using waits⟩
    · simp only at reported
      exact .inr ⟨outcome, by simp [HandlerEvent.isDrained], by simp [HandlerEvent.outcome?, reported],
        by simpa [onEvent, reported] using concludes⟩
  | returned outcome =>
    rcases endOnceDone_advance (s := s) (c := { c with outcome := some outcome }) ⟨h.attached, h.outbound⟩ with
      ⟨same, waits⟩ | ⟨outcome', drained, reported, concludes⟩
    · exact .inl ⟨by simp [onEvent, same, HandlerEvent.isDrained, HandlerEvent.outcome?],
        by simpa [HandlerEvent.isDrained, HandlerEvent.outcome?] using waits⟩
    · obtain rfl := Option.some.inj reported
      simp only at drained
      exact .inr ⟨outcome, by simp [drained], rfl, by simpa [onEvent, drained] using concludes⟩

theorem advance_onEvent (h : Live c) (now : Instant) {e : HandlerEvent Out} {rest : List (HandlerEvent Out)}
    (next : c.events = e :: rest) : Advance s now c ({ c with events := rest }.onEvent s e) := by
  have active := h.active_of_events (by simp [next])
  have isOpen : IsOpen { c with events := rest } := ⟨h.attached, h.outbound⟩
  cases news : e.isYielded with
  | true =>
    obtain ⟨batch, rfl⟩ : ∃ batch, e = .yielded batch := by cases e <;> simp_all [HandlerEvent.isYielded]
    rcases sendMessages_advance (s := s) isOpen active batch with ⟨-, ps, speaks⟩ | ⟨e, d, fails, tried, givenUp⟩
    · exact .spoke batch rest ps next speaks
    · have taken : Tried c { c with events := rest } := ⟨rfl, rfl, List.prefix_rfl, rfl⟩
      exact .gaveUp e d (.unsaid batch rest e next fails) (taken.trans tried) givenUp
  | false =>
    rcases onEvent_cases (s := s) isOpen news with ⟨same, waits⟩ | ⟨outcome, drained, reported, concludes⟩
    · exact .noted e rest next news same (by simpa only [same] using waits)
    · exact .concluded e rest outcome next news drained reported concludes

theorem streams_crash (c : Call σ Out In W) : c.crash.requests = c.requests ∧ c.crash.writer = c.writer := by
  simp only [crash, release]
  split <;> exact ⟨rfl, rfl⟩

/-- The request metadata start the handler, unless the clock cannot tell its deadline. -/
theorem advance_startHandler (h : Live c) (now : Instant) {p : RequestPart} {m : Metadata} {rest : List Inbound}
    (takes : TakesUp s c p (.metadata m) rest) (idle : c.progress.handler = .idle) (vs : List Visit) :
    Advance s now c (({ c with inbox := rest }.seen (c.beyond s p) vs .receiving).startHandler s now m) := by
  by_cases overruns : Overruns s now m
  · have live := h.of_queues c.events c.commands rest id
    obtain ⟨-, crashes⟩ := (startHandler_cases (s := s) live idle now m (c.beyond s p) vs).resolve_left
      fun k => k.1 overruns
    obtain ⟨none, part⟩ : (s.pipeline.request p c.surroundings).1.rejection = none ∧
        (s.pipeline.request p c.surroundings).1.part = .metadata m := by
      have admitted := takes.admitted
      unfold admitted? at admitted
      split at admitted <;> simp_all
    refine .cutOff p m rest takes ⟨h.ended, takes.idle, takes.orders, p, rest, m, takes.inbox, ⟨idle, none, part⟩,
      overruns⟩ ⟨crashes.idle, crashes.handler, crashes.outbound, crashes.ended, crashes.crashed, crashes.sent,
        crashes.hasStarted, crashes.sound⟩ ?_ ?_ <;> rw [startHandler_of_overruns overruns]
    · exact (streams_crash _).1
    · exact (streams_crash _).2
  · have e := startHandler_eq (c := { c with inbox := rest }.seen (c.beyond s p) vs .receiving) overruns idle
      (by simp [seen])
    exact .started p m rest _ vs takes idle e

theorem advance_deliver {now : Instant} {p : RequestPart} {data : Bytes} {m : In} {rest : List Inbound} {x : σ}
    (takes : TakesUp s c p (.message data) rest) (receiving : c.progress.inbound = .receiving)
    (decoded : s.codec.decode data (c.beyond s p) = (.ok m, x)) (vs : List Visit) :
    Advance s now c (({ c with inbox := rest }.seen x vs c.progress.inbound).deliver m) := by
  cases engaged : c.engaged with
  | false =>
    refine .delivered p data m rest x _ takes receiving decoded (silent_visited vs) ?_
    simp [deliver, seen, engaged]
  | true =>
    refine .delivered p data m rest x _ takes receiving decoded
      (silent_append.mpr ⟨silent_visited vs, silent_woke (c.requests.push m).2.2⟩) ?_
    simp [deliver, seen, engaged, emit]

theorem advance_closeRequests {now : Instant} {p : RequestPart} {rest : List Inbound}
    (takes : TakesUp s c p .close rest) (receiving : c.progress.inbound = .receiving) (vs : List Visit) :
    Advance s now c (({ c with inbox := rest }.seen (c.beyond s p) vs .closed).onForwarded s now .close) := by
  cases engaged : c.engaged with
  | false =>
    refine .closed p rest _ takes receiving (silent_visited vs) ?_
    simp [onForwarded, seen, engaged]
  | true =>
    refine .closed p rest _ takes receiving
      (silent_append.mpr ⟨silent_visited vs, silent_woke (c.requests.terminate .finished).2.2⟩) ?_
    simp [onForwarded, seen, engaged, closeRequests_eq]

theorem advance_onPart (h : Live c) (now : Instant) {p : RequestPart} {rest : List Inbound} (idle : c.events = [])
    (orders : c.commands = []) (inbox : c.inbox = .part p :: rest) :
    Advance s now c ({ c with inbox := rest }.onPart s now p) := by
  have isOpen (x : σ) (vs : List Visit) (i : InboundPhase) : IsOpen ({ c with inbox := rest }.seen x vs i) :=
    ⟨h.attached, h.outbound⟩
  have gaveUp {e : Failure} (x : σ) (vs : List Visit) (i : InboundPhase) (why : GivesUp s now c e) :
      Advance s now c (({ c with inbox := rest }.seen x vs i).cancel s e) :=
    .gaveUp e _ (.other e idle why) (looked_seen c rest x vs i).tried (cancel_givenUp (isOpen x vs i) e)
  unfold onPart
  simp only [if_pos h.attached]
  cases hr : (s.pipeline.request p c.surroundings).1.rejection with
  | some status => exact gaveUp _ _ c.progress.inbound (.rejected p status rest idle orders inbox hr)
  | none =>
    have takes : TakesUp s c p (s.pipeline.request p c.surroundings).1.part rest :=
      ⟨idle, orders, inbox, by simp [admitted?, hr]⟩
    rcases receive_cases h.handler h.inbound (s.pipeline.request p c.surroundings).1.part.kind with
      ⟨hk, hi, e⟩ | ⟨hk, hi, e⟩ | ⟨hk, hi, e⟩ | ⟨reason, e⟩
    · simp only [emit, e]
      cases hp : (s.pipeline.request p c.surroundings).1.part with
      | metadata m =>
        rw [hp] at takes
        exact advance_startHandler h now takes (h.inbound.mp hi) _
      | message _ => simp [hp, RequestPart.kind] at hk
      | close => simp [hp, RequestPart.kind] at hk
    · simp only [emit, e]
      cases hp : (s.pipeline.request p c.surroundings).1.part with
      | message data =>
        rw [hp] at takes
        rcases hd : s.codec.decode data (s.pipeline.request p c.surroundings).2 with ⟨status | m, x⟩ <;>
          simp only [onForwarded, hd]
        · exact gaveUp _ _ c.progress.inbound (.undecodable p data status rest takes hi (by simp [beyond, hd]))
        · exact advance_deliver takes hi hd _
      | metadata _ => simp [hp, RequestPart.kind] at hk
      | close => simp [hp, RequestPart.kind] at hk
    · simp only [emit, e]
      cases hp : (s.pipeline.request p c.surroundings).1.part with
      | close =>
        rw [hp] at takes
        exact advance_closeRequests takes hi _
      | metadata _ => simp [hp, RequestPart.kind] at hk
      | message _ => simp [hp, RequestPart.kind] at hk
    · have breaks : (c.progress.receive (s.pipeline.request p c.surroundings).1.part.kind).2 = .cancel reason := by
        rw [e]
      simp only [emit, e]
      exact gaveUp _ _ c.progress.inbound (.violated p _ reason rest takes breaks)

theorem advance_onCommand (h : Live c) (now : Instant) {o : Command} {rest : List Command} (idle : c.events = [])
    (orders : c.commands = o :: rest) : Advance s now c ({ c with commands := rest }.onCommand s o) := by
  cases o with
  | abort reason =>
    have taken : Tried c { c with commands := rest } := ⟨rfl, rfl, List.prefix_rfl, rfl⟩
    have isOpen : IsOpen { c with commands := rest } := ⟨h.attached, h.outbound⟩
    exact .gaveUp _ _ (.other _ idle (.aborted reason rest idle orders)) taken (cancel_givenUp isOpen _)
  | set id setting =>
    obtain ⟨headers, trailers, compressionDefault, e⟩ := apply_eq { c with commands := rest } setting
    refine .applied id setting rest idle orders ?_
    simp only [onCommand, e, emit]

theorem advance_onInbound (h : Live c) (now : Instant) {i : Inbound} {rest : List Inbound} (idle : c.events = [])
    (orders : c.commands = []) (inbox : c.inbox = i :: rest) :
    Advance s now c ({ c with inbox := rest }.onInbound s now i) := by
  have taken : Tried c { c with inbox := rest } := ⟨rfl, rfl, List.prefix_rfl, rfl⟩
  have isOpen : IsOpen { c with inbox := rest } := ⟨h.attached, h.outbound⟩
  cases i with
  | part p => exact advance_onPart h now idle orders inbox
  | error e => exact .gaveUp _ _ (.other _ idle (.failed e rest idle orders inbox)) taken (cancel_givenUp isOpen _)
  | finish => exact .gaveUp _ _ (.other _ idle (.finished rest idle orders inbox)) taken (cancel_givenUp isOpen _)
  | writable b => exact .writable b rest idle orders inbox rfl

/-- **A turn changes no more** of a call that goes on. -/
theorem advance (h : Live c) {now : Instant} (turn : c.turn s now = some c') : Advance s now c c' := by
  have going : ¬ (c.ended || c.progress.isCompleted) = true := by
    simpa [h.ended, Progress.isCompleted] using h.handler
  rw [Call.turn, if_neg going] at turn
  split at turn
  · rename_i next
    obtain rfl := Option.some.inj turn
    exact advance_onEvent h now next
  · rename_i idle orders
    obtain rfl := Option.some.inj turn
    exact advance_onCommand h now idle orders
  · rename_i idle orders inbox
    obtain rfl := Option.some.inj turn
    exact advance_onInbound h now idle orders inbox
  · rename_i idle orders inbox
    split at turn
    · rename_i gone
      obtain ⟨handles, unnoticed⟩ : c.handles = false ∧ c.hungUp = false := by simpa using gone
      obtain rfl := Option.some.inj turn
      unfold onHangUp
      by_cases whole : c.progress.inbound = .closed
      · rw [if_pos whole]
        exact .noticed idle orders inbox handles unnoticed whole rfl
      · rw [if_neg whole]
        have taken : Tried c { c with hungUp := true } := ⟨rfl, rfl, List.prefix_rfl, rfl⟩
        have isOpen : IsOpen { c with hungUp := true } := ⟨h.attached, h.outbound⟩
        exact .gaveUp _ _ (.other _ idle (.forgotten idle orders inbox handles unnoticed whole)) taken
          (cancel_givenUp isOpen _)
    · rename_i held
      split at turn
      · rename_i d deadline
        split at turn
        · rename_i due
          obtain rfl := Option.some.inj turn
          have noticed : c.handles = true ∨ c.hungUp = true := by
            cases hh : c.handles <;> simp_all
          exact .gaveUp _ _ (.other _ idle (.expired d idle orders inbox noticed deadline due)) (tried_refl c)
            (cancel_givenUp h.toIsOpen _)
        · cases turn
      · cases turn

/-! ## turns that give the call up -/

theorem Live.going (h : Live c) : ¬ (c.ended || c.progress.isCompleted) = true := by
  simpa [h.ended, Progress.isCompleted] using h.handler

theorem turn_of_events (h : Live c) (now : Instant) {e : HandlerEvent Out} {rest : List (HandlerEvent Out)}
    (next : c.events = e :: rest) : c.turn s now = some ({ c with events := rest }.onEvent s e) := by
  rw [Call.turn, if_neg h.going]
  simp [next]

theorem turn_of_orders (h : Live c) (now : Instant) {o : Command} {rest : List Command} (idle : c.events = [])
    (orders : c.commands = o :: rest) : c.turn s now = some ({ c with commands := rest }.onCommand s o) := by
  rw [Call.turn, if_neg h.going]
  simp [idle, orders]

theorem turn_of_inbox (h : Live c) (now : Instant) {i : Inbound} {rest : List Inbound} (idle : c.events = [])
    (orders : c.commands = []) (inbox : c.inbox = i :: rest) :
    c.turn s now = some ({ c with inbox := rest }.onInbound s now i) := by
  rw [Call.turn, if_neg h.going]
  simp [idle, orders, inbox]

theorem TakesUp.passed {p q : RequestPart} {rest : List Inbound} (h : TakesUp s c p q rest) :
    (s.pipeline.request p c.surroundings).1.rejection = none ∧ (s.pipeline.request p c.surroundings).1.part = q := by
  have admitted := h.admitted
  unfold admitted? at admitted
  split at admitted
  · cases admitted
  · rename_i none
    exact ⟨none, Option.some.inj admitted⟩

/-- With the turn that takes up the first metadata of a request the handler is to start. -/
theorem turn_eq_startHandler (live : Live c) (now : Instant) {p : RequestPart} {m : Metadata} {rest : List Inbound}
    (takes : TakesUp s c p (.metadata m) rest) (idle : c.progress.handler = .idle) :
    ∃ vs, c.turn s now = some (({ c with inbox := rest }.seen (c.beyond s p) vs .receiving).startHandler s now m) := by
  obtain ⟨passed, part⟩ := takes.passed
  have admits : Admits s { c with inbox := rest } p m := ⟨idle, passed, part⟩
  rw [turn_of_inbox live now takes.idle takes.orders takes.inbox, onInbound,
    onPart_of_admits (live.of_queues c.events c.commands rest id) now admits]
  exact ⟨_, rfl⟩

theorem onPart_of_rejected (attached : c.attached = true) (now : Instant) {p : RequestPart} {r : Status}
    (rejection : (s.pipeline.request p c.surroundings).1.rejection = some r) :
    ∃ vs, c.onPart s now p = (c.seen (c.beyond s p) vs c.progress.inbound).cancel s (.status r) := by
  unfold onPart
  simp only [if_pos attached, rejection]
  exact ⟨_, rfl⟩

theorem onPart_of_violated (h : Live c) (now : Instant) {p q : RequestPart} {rest : List Inbound} {reason : String}
    (takes : TakesUp s c p q rest) (breaks : (c.progress.receive q.kind).2 = .cancel reason) :
    ∃ vs, { c with inbox := rest }.onPart s now p =
      ({ c with inbox := rest }.seen (c.beyond s p) vs c.progress.inbound).cancel s (.violation reason) := by
  obtain ⟨passed, part⟩ := takes.passed
  have same : c.progress.receive q.kind = (c.progress, .cancel reason) := by
    rcases receive_cases h.handler h.inbound q.kind with ⟨-, -, e⟩ | ⟨-, -, e⟩ | ⟨-, -, e⟩ | ⟨reason', e⟩ <;>
      simp_all
  unfold onPart
  simp only [if_pos h.attached, passed, part, emit, same]
  exact ⟨_, rfl⟩

theorem onPart_of_undecodable (h : Live c) (now : Instant) {p : RequestPart} {data : Bytes} {rest : List Inbound}
    {status : Status} (takes : TakesUp s c p (.message data) rest) (receiving : c.progress.inbound = .receiving)
    (fails : (s.codec.decode data (c.beyond s p)).1 = .error status) :
    ∃ x vs, { c with inbox := rest }.onPart s now p =
      ({ c with inbox := rest }.seen x vs c.progress.inbound).cancel s (.status status) := by
  obtain ⟨passed, part⟩ := takes.passed
  have forward : c.progress.receive .message = (c.progress, .forward) := by
    rcases receive_cases h.handler h.inbound .message with ⟨k, -⟩ | ⟨-, -, e⟩ | ⟨k, -⟩ | ⟨reason, e⟩
    · cases k
    · exact e
    · cases k
    · have := h.handler
      have := h.inbound
      cases hh : c.progress.handler <;> simp_all [Progress.receive, Progress.whileActive]
  rw [beyond] at fails
  rcases hd : s.codec.decode data (s.pipeline.request p c.surroundings).2 with ⟨status' | m, x⟩
  · obtain rfl : status' = status := by simpa [hd] using fails
    unfold onPart
    simp only [if_pos h.attached, passed, part, RequestPart.kind, emit, forward, onForwarded, hd]
    exact ⟨_, _, rfl⟩
  · simp [hd] at fails

theorem turn_of_givesUp (h : Live c) {now : Instant} {e : Failure} (idle : c.events = []) (why : GivesUp s now c e) :
    ∃ d, Looked c d ∧ c.turn s now = some (d.cancel s e) := by
  have seen {p : RequestPart} {rest : List Inbound} {x : σ} {vs : List Visit} {i : InboundPhase} {e : Failure}
      (orders : c.commands = []) (inbox : c.inbox = .part p :: rest)
      (same : { c with inbox := rest }.onPart s now p = ({ c with inbox := rest }.seen x vs i).cancel s e) :
      ∃ d, Looked c d ∧ c.turn s now = some (d.cancel s e) :=
    ⟨_, looked_seen c rest x vs i, (turn_of_inbox h now idle orders inbox).trans (congrArg some same)⟩
  cases why with
  | unsaid batch rest e next stops => simp [idle] at next
  | aborted reason rest idle orders =>
    exact ⟨_, looked_of_queues c rest c.inbox c.hungUp, turn_of_orders h now idle orders⟩
  | failed e rest idle orders inbox =>
    exact ⟨_, looked_of_queues c c.commands rest c.hungUp, turn_of_inbox h now idle orders inbox⟩
  | finished rest idle orders inbox =>
    exact ⟨_, looked_of_queues c c.commands rest c.hungUp, turn_of_inbox h now idle orders inbox⟩
  | rejected p r rest idle orders inbox rejection =>
    obtain ⟨vs, same⟩ := onPart_of_rejected (s := s) (c := { c with inbox := rest }) h.attached now rejection
    exact seen orders inbox same
  | violated p q reason rest takes breaks =>
    obtain ⟨vs, same⟩ := onPart_of_violated h now takes breaks
    exact seen takes.orders takes.inbox same
  | undecodable p data status rest takes receiving fails =>
    obtain ⟨x, vs, same⟩ := onPart_of_undecodable h now takes receiving fails
    exact seen takes.orders takes.inbox same
  | forgotten idle orders inbox handles unnoticed open' =>
    refine ⟨_, looked_of_queues c c.commands c.inbox true, ?_⟩
    rw [Call.turn, if_neg h.going]
    simp [idle, orders, inbox, handles, unnoticed, onHangUp, open']
  | expired d idle orders inbox noticed deadline due =>
    refine ⟨c, looked_of_queues c c.commands c.inbox c.hungUp, ?_⟩
    rw [Call.turn, if_neg h.going]
    rcases noticed with noticed | noticed <;> simp [idle, orders, inbox, noticed, deadline, due]

theorem givenUp_of_fails (h : Live c) {now : Instant} {e : Failure} (fails : Fails s now c e) :
    ∃ c' d, c.turn s now = some c' ∧ Tried c d ∧ GivenUp s e d c' := by
  cases fails with
  | unsaid batch rest e next fails =>
    have active := h.active_of_events (by simp [next])
    have taken : Tried c { c with events := rest } := ⟨rfl, rfl, List.prefix_rfl, rfl⟩
    have turn : c.turn s now = some ({ c with events := rest }.sendMessages s batch) := turn_of_events h now next
    rcases sendMessages_advance (s := s) (c := { c with events := rest }) ⟨h.attached, h.outbound⟩ active batch with
      ⟨fine, -⟩ | ⟨e', d, first, tried, givenUp⟩
    · cases fine.symm.trans fails
    · obtain rfl := Option.some.inj (first.symm.trans fails)
      exact ⟨_, d, turn, taken.trans tried, givenUp⟩
  | other e idle why =>
    obtain ⟨d, looked, turn⟩ := turn_of_givesUp h idle why
    exact ⟨_, d, turn, looked.tried, cancel_givenUp (looked.isOpen h.toIsOpen) e⟩

theorem exists_fails (h : Live c) {now : Instant} {e : Failure} (why : GivesUp s now c e) : ∃ e, Fails s now c e := by
  cases hev : c.events with
  | nil => exact ⟨e, .other e hev why⟩
  | cons event rest =>
    cases why with
    | unsaid batch rest e next stops =>
      have active := h.active_of_events (by simp [next])
      rcases sendMessages_advance (s := s) (c := { c with events := rest }) ⟨h.attached, h.outbound⟩ active batch with
        ⟨-, ps, speaks⟩ | ⟨e', d, fails, -⟩
      · simp [Progress.isCompleted, speaks.handler_eq, active] at stops
      · exact ⟨e', .unsaid batch rest e' next fails⟩
    | violated p q reason rest takes breaks => cases hev.symm.trans takes.idle
    | undecodable p data status rest takes receiving fails => cases hev.symm.trans takes.idle
    | _ => simp_all

theorem givenUp_of_givesUp (h : Live c) {now : Instant} {e : Failure} (why : GivesUp s now c e) :
    ∃ c' d e, c.turn s now = some c' ∧ Tried c d ∧ GivenUp s e d c' := by
  obtain ⟨e', fails⟩ := exists_fails h why
  obtain ⟨c', d, turn, tried, givenUp⟩ := givenUp_of_fails h fails
  exact ⟨c', d, e', turn, tried, givenUp⟩

end Call

end CallLifecycle.Server
