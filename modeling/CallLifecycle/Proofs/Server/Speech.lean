import CallLifecycle.Proofs.Interceptor.Passing
import CallLifecycle.Proofs.Server.Run
import Mathlib.Data.List.Forall2

/-!
# What a server call says

A call says parts; what it says passes the interceptors, and what comes out of them is sent.

* `OutboundPhase.follow` — how far the responses are behind the parts that were said;
* `Speaks` — a call says some parts and goes on, `Closes` — it says some parts and the end;
* `sendEnd_closes`, `cancel_closes` — the end is said, whatever the interceptors make of it;
* `sendMessages_cases`, `endOnceDone_cases` — messages are said up to the end of the call.
-/

namespace CallLifecycle

def ResponsePart.payload? : ResponsePart → Option Bytes
  | .message data _ => some data
  | _ => none

def payloads (ps : List ResponsePart) : List Bytes := ps.filterMap ResponsePart.payload?

@[simp] theorem payloads_append (ps qs : List ResponsePart) :
    payloads (ps ++ qs) = payloads ps ++ payloads qs := by
  simp [payloads]

@[simp] theorem payloads_close (status : Status) (trailers : Metadata) :
    payloads [.close status trailers] = [] := rfl

/-- Some bytes encode a message, as the codec may remember one thing or the other. -/
def Codec.Encodes {σ Out In : Type} (k : Codec σ Out In) (m : Outbound Out) (data : Bytes) : Prop :=
  ∃ x, (k.encode m.message x).1 = .ok data

namespace Server

/-! ## the order of the parts -/

namespace OutboundPhase

/-- How far the responses are behind one more part, if it may be said. -/
def next? : OutboundPhase → PartKind → Option OutboundPhase
  | .headersPending, .metadata => some .streaming
  | .streaming, .message => some .streaming
  | .headersPending, .close => some .ended
  | .streaming, .close => some .ended
  | _, _ => none

/-- How far the responses are behind some more parts, if they may be said. -/
def follow : OutboundPhase → List PartKind → Option OutboundPhase
  | o, [] => some o
  | o, k :: ks => (o.next? k).bind fun o => follow o ks

theorem follow_append (o : OutboundPhase) (ks ls : List PartKind) :
    o.follow (ks ++ ls) = (o.follow ks).bind fun o => o.follow ls := by
  induction ks generalizing o with
  | nil => rfl
  | cons k ks ih => cases h : o.next? k <;> simp [follow, h, ih]

theorem next?_close {o : OutboundPhase} (h : o ≠ .ended) : o.next? .close = some .ended := by
  cases o <;> simp_all [next?]

end OutboundPhase

namespace Call

variable {σ Out In W : Type} {s : Setup σ Out In} {c c' c'' : Call σ Out In W}

/-! ## calls that go on, and calls that end -/

/-- The transport is held, and the end was not sent. -/
structure IsOpen (c : Call σ Out In W) : Prop where
  attached : c.attached = true
  outbound : c.progress.outbound ≠ .ended

/-- A call says some parts and goes on. -/
structure Speaks (s : Setup σ Out In) (c : Call σ Out In W) (ps : List ResponsePart)
    (c' : Call σ Out In W) : Prop where
  same : c' = { c with progress := { c.progress with outbound := c'.progress.outbound },
                       headers := c'.headers, surroundings := c'.surroundings, trace := c'.trace }
  trace : ∃ es, c'.trace = c.trace ++ es ∧ es.any Effect.isStart = false ∧
    List.Forall₂ (Emerges s.pipeline) ps (es.filterMap Effect.part?)
  order : c.progress.outbound.follow (ps.map ResponsePart.kind) = some c'.progress.outbound
  goesOn : c'.progress.outbound ≠ .ended

/-- A call says some parts and the end. -/
structure Closes (s : Setup σ Out In) (c : Call σ Out In W) (ps : List ResponsePart)
    (c' : Call σ Out In W) : Prop where
  sent : ∃ status trailers qs, c'.sent = c.sent ++ qs ∧
    List.Forall₂ (Emerges s.pipeline) (ps ++ [.close status trailers]) qs
  order : ∃ o, c.progress.outbound.follow (ps.map ResponsePart.kind) = some o ∧ o ≠ .ended
  outbound : c'.progress.outbound = .ended
  handler : c'.progress.handler = .completed
  attached : c'.attached = false
  ended : c'.ended = c.ended
  crashed : c'.crashed = c.crashed
  hasStarted : c'.hasStarted = c.hasStarted
  writer : c.writer.Leads c'.writer

theorem speaks_refl (h : c.progress.outbound ≠ .ended) : Speaks s c [] c :=
  ⟨rfl, ⟨[], by simp⟩, rfl, h⟩

theorem Speaks.trans {ps qs : List ResponsePart} (h : Speaks s c ps c') (k : Speaks s c' qs c'') :
    Speaks s c (ps ++ qs) c'' := by
  obtain ⟨es, he, hs, hf⟩ := h.trace
  obtain ⟨fs, he', hs', hf'⟩ := k.trace
  refine ⟨?_, ⟨es ++ fs, by simp [he, he'], by simp [hs, hs'], ?_⟩, ?_, k.goesOn⟩
  · rw [k.same, h.same]
  · simpa using List.rel_append hf hf'
  · simp [OutboundPhase.follow_append, h.order, k.order]

theorem Speaks.sent_eq {ps : List ResponsePart} (h : Speaks s c ps c') :
    ∃ qs, c'.sent = c.sent ++ qs ∧ List.Forall₂ (Emerges s.pipeline) ps qs := by
  obtain ⟨es, he, -, hf⟩ := h.trace
  exact ⟨_, by simp [Call.sent_eq, he], hf⟩

theorem Speaks.hasStarted_eq {ps : List ResponsePart} (h : Speaks s c ps c') :
    c'.hasStarted = c.hasStarted := by
  obtain ⟨es, he, hs, -⟩ := h.trace
  simp [hasStarted, he, hs]

theorem Speaks.isOpen {ps : List ResponsePart} (h : Speaks s c ps c') (hc : IsOpen c) : IsOpen c' :=
  ⟨by rw [h.same]; exact hc.attached, h.goesOn⟩

theorem Speaks.handler_eq {ps : List ResponsePart} (h : Speaks s c ps c') :
    c'.progress.handler = c.progress.handler := by rw [h.same]

theorem Speaks.closes {ps qs : List ResponsePart} (h : Speaks s c ps c') (k : Closes s c' qs c'') :
    Closes s c (ps ++ qs) c'' := by
  obtain ⟨qs', hq, hf⟩ := h.sent_eq
  obtain ⟨status, trailers, ts, ht, hf'⟩ := k.sent
  obtain ⟨o, ho, hne⟩ := k.order
  refine ⟨⟨status, trailers, qs' ++ ts, by simp [ht, hq], ?_⟩,
    ⟨o, by simp [OutboundPhase.follow_append, h.order, ho], hne⟩, k.outbound, k.handler, k.attached, ?_, ?_,
    k.hasStarted.trans h.hasStarted_eq, ?_⟩
  · simpa using List.rel_append hf hf'
  · rw [k.ended, h.same]
  · rw [k.crashed, h.same]
  · have writer := k.writer
    rw [h.same] at writer
    exact writer

theorem Closes.of_eq (h : Closes s c' [] c'') (outbound : c.progress.outbound ≠ .ended)
    (sent : c'.sent = c.sent) (ended : c'.ended = c.ended) (crashed : c'.crashed = c.crashed)
    (hasStarted : c'.hasStarted = c.hasStarted) (writer : c.writer.Leads c'.writer) : Closes s c [] c'' :=
  ⟨sent ▸ h.sent, ⟨_, rfl, outbound⟩, h.outbound, h.handler, h.attached, h.ended.trans ended,
    h.crashed.trans crashed, h.hasStarted.trans hasStarted, writer.trans h.writer⟩

/-! ## what the loop says -/

theorem send_close {p : Progress} (h : p.outbound ≠ .ended) :
    p.send .close = ({ p with outbound := .ended, handler := .completed }, .forward) := by
  unfold Progress.send
  cases ho : p.outbound <;> simp_all

/-- The metadata that go with the end: the trailers, and before them the headers if they were not sent. -/
def closing (c : Call σ Out In W) (more : Metadata) : Metadata :=
  if c.progress.outbound = .headersPending then c.headers.merge (c.trailers.merge more)
  else c.trailers.merge more

theorem sendEnd_eq (h : IsOpen c) (status : Status) (more : Metadata) :
    ∃ x, ∃ vs : List Visit, ∃ q, Emerges s.pipeline (.close status (c.closing more)) q ∧
      c.sendEnd s status more =
        { c with progress := { c.progress with outbound := .ended, handler := .completed },
                 headers := if c.progress.outbound = .headersPending then {} else c.headers,
                 trailers := {}, surroundings := x, attached := false, deadline := none,
                 trace := c.trace ++ vs.map .visited ++ [.sent q] ++ [.released] } := by
  obtain ⟨attached, outbound⟩ := h
  unfold sendEnd
  simp only [send_close outbound, intercept, attached, transmit, release, emit, if_true]
  refine ⟨_, _, _, ?_, rfl⟩
  rw [← closing]
  split
  · rename_i r hr
    exact .replaced _ _ _ _ hr
  · rename_i hr
    exact .passed _ _ hr

theorem sendEnd_closes (h : IsOpen c) (status : Status) (more : Metadata) :
    Closes s c [] (c.sendEnd s status more) := by
  obtain ⟨x, vs, q, hq, e⟩ := sendEnd_eq (s := s) h status more
  rw [e]
  refine ⟨⟨status, c.closing more, [q], ?_, by simpa using hq⟩, ⟨_, rfl, h.outbound⟩, rfl, rfl, rfl, rfl, rfl,
    ?_, .refl _⟩
  · simp [Call.sent_eq, (silent_visited vs).filterMap_eq, Effect.part?]
  · simp [hasStarted, (silent_visited vs).any_eq, Effect.isStart]

theorem undisturbed_disengage (c : Call σ Out In W) : Undisturbed c c.disengage := by
  unfold disengage
  split
  · refine (Undisturbed.trans ?_ (undisturbed_raiseCancellation _)).trans
      ((undisturbed_closeRequests _ _).trans ((undisturbed_withWriter _ _).trans (undisturbed_emit _ ?_)))
    · exact ⟨rfl, rfl, rfl, rfl, rfl, rfl, rfl, rfl, rfl, rfl, rfl, [], by simp, by simp⟩
    · simp [Effect.isSilent]
  · exact .refl c

theorem ended_disengage (c : Call σ Out In W) : c.disengage.ended = c.ended := by
  unfold disengage
  split
  · simp only [emit_eq, withWriter_eq, closeRequests_eq, raiseCancellation_eq]
  · rfl

theorem leads_disengage (c : Call σ Out In W) : c.writer.Leads c.disengage.writer := by
  unfold disengage
  split
  · simp only [emit_eq, withWriter_eq, closeRequests_eq, raiseCancellation_eq]
    exact Writer.leads_cancel _ _
  · exact .refl _

/-- A call that is given up, before its end is told. -/
def givenUp (c : Call σ Out In W) : Call σ Out In W :=
  { c with progress := c.progress.cancel.1 }.disengage

theorem undisturbed_givenUp (c : Call σ Out In W) :
    Undisturbed { c with progress := c.progress.cancel.1 } c.givenUp := undisturbed_disengage _

theorem outbound_givenUp (c : Call σ Out In W) :
    c.givenUp.progress.outbound = c.progress.outbound := by
  rw [c.undisturbed_givenUp.progress]
  rfl

theorem ended_givenUp (c : Call σ Out In W) : c.givenUp.ended = c.ended := ended_disengage _

theorem leads_givenUp (c : Call σ Out In W) : c.writer.Leads c.givenUp.writer :=
  leads_disengage { c with progress := c.progress.cancel.1 }

/-- The failure that a call is given up for is told by the delegate. -/
theorem cancel_eq (h : IsOpen c) (e : Failure) :
    c.cancel s e =
      { c.givenUp with surroundings := (s.delegate.library e c.givenUp.surroundings).2 }.sendEnd s
        (remapOk "call" (s.delegate.library e c.givenUp.surroundings).1.1)
        (s.delegate.library e c.givenUp.surroundings).1.2 := by
  simp [cancel, Progress.cancel, h.outbound, givenUp]

theorem cancel_closes (h : IsOpen c) (e : Failure) : Closes s c [] (c.cancel s e) := by
  rw [cancel_eq h]
  have frame := undisturbed_givenUp c
  have isOpen (x : σ) : IsOpen { c.givenUp with surroundings := x } :=
    ⟨frame.attached.trans h.attached, by simpa only [outbound_givenUp] using h.outbound⟩
  exact (sendEnd_closes (isOpen _) _ _).of_eq h.outbound frame.sent_eq (ended_givenUp c) frame.crashed
    frame.hasStarted_eq (leads_givenUp c)

theorem send_metadata {p : Progress} (active : p.handler = .active) (h : p.outbound = .headersPending) :
    p.send .metadata = ({ p with outbound := .streaming }, .forward) := by
  simp [Progress.send, active, h]

theorem send_message {p : Progress} (active : p.handler = .active) (h : p.outbound = .streaming) :
    p.send .message = (p, .forward) := by
  simp [Progress.send, Progress.whileActive, active, h]

theorem speaks_one {p q : ResponsePart} {o : OutboundPhase} (hq : Emerges s.pipeline p q)
    (order : c.progress.outbound.next? p.kind = some o) (goesOn : o ≠ .ended) (headers : Metadata) (x : σ)
    (vs : List Visit) :
    Speaks s c [p] { c with progress := { c.progress with outbound := o }, headers, surroundings := x,
                            trace := c.trace ++ vs.map .visited ++ [.sent q] } := by
  refine ⟨rfl, ⟨_, List.append_assoc .., ?_, ?_⟩, ?_, goesOn⟩
  · simp [(silent_visited vs).any_eq, Effect.isStart]
  · simpa [(silent_visited vs).filterMap_eq, Effect.part?] using hq
  · simp [OutboundPhase.follow, order]

/-- Headers or a message pass the interceptors, or the call is given up. -/
theorem sendPart_cases (h : IsOpen c) (p : ResponsePart) :
    (∃ x, ∃ vs : List Visit, ∃ q, Emerges s.pipeline p q ∧ (c.sendPart s p).2 = true ∧
      (c.sendPart s p).1 =
        { c with surroundings := x, trace := c.trace ++ vs.map .visited ++ [.sent q] }) ∨
    (c.sendPart s p).2 = false ∧ Closes s c [] (c.sendPart s p).1 := by
  unfold sendPart
  simp only [intercept, if_pos h.attached, transmit, emit]
  cases hr : (s.pipeline.response p c.surroundings).1.rejection with
  | none => exact .inl ⟨_, _, _, .passed p _ hr, h.attached, rfl⟩
  | some r =>
    have isOpen (x : σ) (vs : List Visit) :
        IsOpen { c with surroundings := x, trace := c.trace ++ vs.map .visited } := ⟨h.attached, h.outbound⟩
    have frame := undisturbed_emit c (silent_visited (s.pipeline.response p c.surroundings).1.visits)
    exact .inr ⟨rfl, (cancel_closes (isOpen _ _) _).of_eq h.outbound frame.sent_eq rfl rfl
      frame.hasStarted_eq (.refl _)⟩

theorem sendHeaders_cases (h : IsOpen c) (active : c.progress.handler = .active) :
    (∃ ps, (c.sendHeaders s).2 = true ∧ Speaks s c ps (c.sendHeaders s).1 ∧ payloads ps = [] ∧
      (c.sendHeaders s).1.progress.outbound = .streaming) ∨
    (c.sendHeaders s).2 = false ∧ Closes s c [] (c.sendHeaders s).1 := by
  unfold sendHeaders
  by_cases ho : c.progress.outbound = .headersPending
  · simp only [if_pos ho, send_metadata active ho]
    have isOpen : IsOpen { c with progress := { c.progress with outbound := .streaming }, headers := {} } :=
      ⟨h.attached, by simp⟩
    rcases sendPart_cases (s := s) isOpen (.metadata c.headers) with ⟨x, vs, q, hq, on, e⟩ | ⟨stop, closes⟩
    · have speaks := speaks_one (c := c) (o := .streaming) hq (by rw [ho]; rfl) (by simp) {} x vs
      exact .inl ⟨[.metadata c.headers], on, e ▸ speaks, rfl, e ▸ rfl⟩
    · exact .inr ⟨stop, closes.of_eq h.outbound rfl rfl rfl rfl (.refl _)⟩
  · rw [if_neg ho]
    refine .inl ⟨[], rfl, speaks_refl h.outbound, rfl, ?_⟩
    have := h.outbound
    cases hc : c.progress.outbound <;> simp_all

theorem sendMessage_cases (h : IsOpen c) (active : c.progress.handler = .active)
    (ho : c.progress.outbound = .streaming) (m : Outbound Out) :
    (∃ p data, (c.sendMessage s m).2 = true ∧ Speaks s c [p] (c.sendMessage s m).1 ∧ p.payload? = some data ∧
      s.codec.Encodes m data ∧ (c.sendMessage s m).1.progress.outbound = .streaming) ∨
    (c.sendMessage s m).2 = false ∧ Closes s c [] (c.sendMessage s m).1 := by
  unfold sendMessage
  have isOpen (x : σ) : IsOpen { c with surroundings := x } := ⟨h.attached, h.outbound⟩
  rcases hm : s.codec.encode m.message c.surroundings with ⟨status | data, x⟩
  · exact .inr ⟨rfl, (cancel_closes (isOpen x) _).of_eq h.outbound rfl rfl rfl rfl (.refl _)⟩
  · simp only [send_message active ho]
    rcases sendPart_cases (s := s) (isOpen x) (.message data
      { compress := shouldCompress s.config.compression m.compression c.compressionDefault })
      with ⟨y, vs, q, hq, on, e⟩ | ⟨stop, closes⟩
    · have speaks := speaks_one (c := c) (o := c.progress.outbound) hq (by rw [ho]; rfl) h.outbound c.headers y vs
      exact .inl ⟨_, data, on, e ▸ speaks, rfl, ⟨_, by rw [hm]⟩, e ▸ ho⟩
    · exact .inr ⟨stop, closes.of_eq h.outbound rfl rfl rfl rfl (.refl _)⟩

/-- What the writer handed over is said message by message, up to the end of the call. -/
theorem sendMessages_cases (h : IsOpen c) (active : c.progress.handler = .active)
    (batch : List (Outbound Out)) :
    (∃ ps, Speaks s c ps (c.sendMessages s batch) ∧
      List.Forall₂ s.codec.Encodes batch (payloads ps)) ∨
    ∃ ps n, Closes s c ps (c.sendMessages s batch) ∧
      List.Forall₂ s.codec.Encodes (batch.take n) (payloads ps) := by
  induction batch generalizing c with
  | nil => exact .inl ⟨[], speaks_refl h.outbound, .nil⟩
  | cons m rest ih =>
    have going : c.progress.isCompleted = false := by simp [Progress.isCompleted, active]
    rcases hh : c.sendHeaders s with ⟨c₁, on⟩
    have headers := sendHeaders_cases (s := s) h active
    rw [hh] at headers
    rcases headers with ⟨ps, rfl, speaks, none, streaming⟩ | ⟨rfl, closes⟩
    · rcases hm : c₁.sendMessage s m with ⟨c₂, on⟩
      have message := sendMessage_cases (s := s) (speaks.isOpen h) (speaks.handler_eq.trans active) streaming m
      rw [hm] at message
      rcases message with ⟨p, data, rfl, speaks', hp, code, -⟩ | ⟨rfl, closes⟩
      · have both := speaks.trans speaks'
        have first : payloads (ps ++ [p]) = [data] := by
          rw [payloads_append, none]
          simp [payloads, hp]
        have goesOn : c.sendMessages s (m :: rest) = c₂.sendMessages s rest := by
          simp [sendMessages, going, hh, hm]
        rw [goesOn]
        rcases ih (both.isOpen h) (both.handler_eq.trans active) with ⟨qs, more, codes⟩ | ⟨qs, n, closes, codes⟩
        · exact .inl ⟨_, both.trans more, by simpa only [payloads_append _ qs, first] using .cons code codes⟩
        · exact .inr ⟨_, n + 1, both.closes closes,
            by simpa only [payloads_append _ qs, first] using .cons code codes⟩
      · have stops : c.sendMessages s (m :: rest) = c₂ := by simp [sendMessages, going, hh, hm]
        exact .inr ⟨ps, 0, by simpa [stops] using speaks.closes closes, by simp [none]⟩
    · have stops : c.sendMessages s (m :: rest) = c₁ := by simp [sendMessages, going, hh]
      exact .inr ⟨[], 0, by simpa [stops] using closes, .nil⟩

/-- The call ends once its writer was drained and its handler returned. -/
theorem endOnceDone_cases (h : IsOpen c) :
    (c.endOnceDone s = c ∧ (c.drained = true → c.outcome = none)) ∨
    (c.drained = true ∧ Closes s c [] (c.endOnceDone s)) := by
  unfold endOnceDone
  by_cases hd : c.drained = true
  · rw [if_neg (by simp [hd])]
    rcases ho : c.outcome with _ | _ | e
    · exact .inl ⟨rfl, fun _ => rfl⟩
    · have isOpen : IsOpen { c with outcome := none } := ⟨h.attached, h.outbound⟩
      exact .inr ⟨hd, (sendEnd_closes isOpen _ _).of_eq h.outbound rfl rfl rfl rfl (.refl _)⟩
    · have isOpen (x : σ) : IsOpen { c with outcome := none, surroundings := x } := ⟨h.attached, h.outbound⟩
      exact .inr ⟨hd, (sendEnd_closes (isOpen _) _ _).of_eq h.outbound rfl rfl rfl rfl (.refl _)⟩
  · exact .inl ⟨by simp [hd], fun hd' => absurd hd' hd⟩

end Call

end Server

end CallLifecycle
