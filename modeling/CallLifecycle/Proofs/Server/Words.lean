import CallLifecycle.Proofs.Server.Ledger

/-!
# The word of a response

* `IsResponse` — the words that a transport is to be sent: the end alone, or headers, messages and the end;
* `close_last` — the end of a response is the last part that is sent;
* `crashed_after_iff` — the loop is cut off just where a deadline comes up that the clock cannot tell;
* `response_of_keepsKinds` — **the response of every run** is the beginning of such a word, and once the loop
  is over the end was sent, exactly once, unless the loop was cut off.
-/

namespace CallLifecycle.Server

/-- The kinds of the parts of a response that is whole. -/
inductive IsResponse : List PartKind → Prop
  | alone : IsResponse [.close]
  | streamed (n : Nat) : IsResponse (.metadata :: (List.replicate n .message ++ [.close]))

/-- How far the responses are tells what was said. -/
theorem OutboundPhase.follow_cases {ks : List PartKind} {o : OutboundPhase}
    (h : OutboundPhase.headersPending.follow ks = some o) :
    (o = .headersPending ∧ ks = []) ∨
    (o = .streaming ∧ ∃ n, ks = .metadata :: List.replicate n .message) ∨
    (o = .ended ∧ IsResponse ks) := by
  induction ks using List.reverseRecOn generalizing o with
  | nil => exact .inl ⟨(Option.some.inj h).symm, rfl⟩
  | append_singleton ks k ih =>
    rw [OutboundPhase.follow_append, Option.bind_eq_some_iff] at h
    obtain ⟨o', before, now⟩ := h
    simp only [OutboundPhase.follow] at now
    rcases ih before with ⟨rfl, rfl⟩ | ⟨rfl, n, rfl⟩ | ⟨rfl, -⟩
    · cases k <;> simp [OutboundPhase.next?] at now <;> subst now
      · exact .inr (.inl ⟨rfl, 0, rfl⟩)
      · exact .inr (.inr ⟨rfl, .alone⟩)
    · cases k <;> simp [OutboundPhase.next?] at now <;> subst now
      · exact .inr (.inl ⟨rfl, n + 1, by simp [List.replicate_succ']⟩)
      · exact .inr (.inr ⟨rfl, .streamed n⟩)
    · cases k <;> simp [OutboundPhase.next?] at now

theorem OutboundPhase.follow_close {i o : OutboundPhase} {ks ls : List PartKind}
    (h : i.follow (ks ++ .close :: ls) = some o) : ls = [] ∧ o = .ended := by
  rw [follow_append, Option.bind_eq_some_iff] at h
  obtain ⟨j, -, behind⟩ := h
  have ended : OutboundPhase.ended.follow ls = some o := by
    cases j <;> simp_all [follow, next?]
  cases ls with
  | nil => exact ⟨rfl, (Option.some.inj ended).symm⟩
  | cons k ls => simp [follow, next?] at ended

theorem IsResponse.count_close {ks : List PartKind} (h : IsResponse ks) : ks.count .close = 1 := by
  cases h with
  | alone => rfl
  | streamed n => simp [List.count_replicate]

namespace Call

variable {σ Out In W : Type} {s : Setup σ Out In} {c : Call σ Out In W}

theorem kinds_of_keeps {l : Pipeline σ} (keeps : l.KeepsResponseKinds) {ps qs : List ResponsePart}
    (h : List.Forall₂ (Emerges l) ps qs) : qs.map ResponsePart.kind = ps.map ResponsePart.kind := by
  induction h with
  | nil => rfl
  | cons emerges _ ih => simp [emerges.kind_eq keeps, ih]

section Close

variable {taken done : List (Outbound Out)} {said : List ResponsePart}

/-- Nothing is sent behind the end. -/
theorem Ledger.nothing_behind (h : Ledger s c taken said done) (keeps : s.pipeline.KeepsResponseKinds)
    {status : Status} {trailers : Metadata} {ps qs : List ResponsePart}
    (split : c.sent = ps ++ .close status trailers :: qs) : qs = [] ∧ c.progress.outbound = .ended := by
  have order := h.order
  rw [← kinds_of_keeps keeps h.emerged, split, List.map_append, List.map_cons] at order
  obtain ⟨nothing, ended⟩ := OutboundPhase.follow_close order
  exact ⟨List.map_eq_nil_iff.mp nothing, ended⟩

/-- The end is the last part that is sent. -/
theorem Ledger.close_last (h : Ledger s c taken said done) (keeps : s.pipeline.KeepsResponseKinds) {status : Status}
    {trailers : Metadata} (mem : .close status trailers ∈ c.sent) :
    (∃ ps, c.sent = ps ++ [.close status trailers]) ∧ c.progress.outbound = .ended := by
  obtain ⟨ps, qs, split⟩ := List.append_of_mem mem
  obtain ⟨rfl, ended⟩ := h.nothing_behind keeps split
  exact ⟨⟨ps, split⟩, ended⟩

end Close

/-- Somewhere in a run a handler was to start whose deadline the clock cannot tell. -/
def WasCutOff [DecidableEq W] (s : Setup σ Out In) (c : Call σ Out In W) (acts : List (Act Out W)) : Prop :=
  ∃ early now late, acts = early ++ .turn now :: late ∧ CutsOff s now (run (step s) c early)

theorem Turned.crashed_eq {c' : Call σ Out In W} {now : Instant} (h : Turned s now c c') :
    c'.crashed = c.crashed ∨ CutsOff s now c := by
  cases h with
  | spoke batch rest ps next speaks codes =>
    left
    rw [speaks.same]
  | noted e rest next news same drained =>
    left
    rw [same]
  | ended e rest next news drained closes => exact .inl closes.crashed
  | handled idle handled => exact .inl handled.crashed
  | started starts => exact .inl starts.crashed
  | closed ps n closes codes why => exact .inl closes.crashed
  | crashed cut crashes => exact .inr cut

theorem Ledger.sent_of_pending {taken done : List (Outbound Out)} {said : List ResponsePart}
    (h : Ledger s c taken said done) (pending : c.progress.outbound = .headersPending) : c.sent = [] := by
  rcases OutboundPhase.follow_cases h.order with ⟨-, word⟩ | ⟨phase, -⟩ | ⟨phase, -⟩
  · obtain rfl := List.map_eq_nil_iff.mp word
    exact List.forall₂_nil_left_iff.mp h.emerged
  · cases pending.symm.trans phase
  · cases pending.symm.trans phase

section Run

variable [DecidableEq W]

/-- A step cuts the loop off just where it comes upon such a deadline. -/
theorem crashed_step {taken done : List (Outbound Out)} {said : List ResponsePart}
    (h : Ledger s c taken said done) (a : Act Out W) :
    (c.step s a).crashed = true ↔ c.crashed = true ∨ ∃ now, a = .turn now ∧ CutsOff s now c := by
  constructor
  · intro crashed
    cases stepped s h.sound a with
    | turned now ha turn =>
      obtain ⟨live, -⟩ := h.live_of_turn turn
      rcases (Call.turned live turn).crashed_eq with same | cut
      · exact .inl (same ▸ crashed)
      · exact .inr ⟨now, ha, cut⟩
    | worked started worked => exact .inl (worked.frame.crashed ▸ crashed)
    | waited nothing worked events => exact .inl (worked.frame.crashed ▸ crashed)
    | concluded nothing concluded => exact .inl (concluded.frame.crashed ▸ crashed)
  · rintro (crashed | ⟨now, rfl, cut⟩)
    · cases stepped s h.sound a with
      | turned now ha turn =>
        obtain ⟨live, -⟩ := h.live_of_turn turn
        simp [live.crashed] at crashed
      | worked started worked => exact worked.frame.crashed.trans crashed
      | waited nothing worked events => exact worked.frame.crashed.trans crashed
      | concluded nothing concluded => exact concluded.frame.crashed.trans crashed
    · have ⟨before, _, _, p, rest, m, _, admits, _⟩ := cut
      cases h.standing with
      | live live =>
        obtain ⟨c', turn, crashed⟩ := turn_of_cutsOff live cut
        simpa [step, turn] using crashed
      | closed _ handler => simp [admits.idle] at handler
      | cut _ ended => simp [before] at ended

theorem crashed_after_iff (s : Setup σ Out In) (x : σ) (acts : List (Act Out W)) :
    (run (step s) (new s x) acts).crashed = true ↔ WasCutOff s (new s x) acts := by
  induction acts using List.reverseRecOn with
  | nil => simp [WasCutOff, new]
  | append_singleton acts a ih =>
    obtain ⟨said, done, h⟩ := ledger_after s x acts
    have step : (run (step s) (new s x) (acts ++ [a])).crashed = true ↔
        WasCutOff s (new s x) acts ∨ ∃ now, a = .turn now ∧ CutsOff s now (run (step s) (new s x) acts) := by
      rw [← ih, run_append]
      exact crashed_step h a
    rw [step]
    constructor
    · rintro (⟨early, now, late, rfl, cut⟩ | ⟨now, rfl, cut⟩)
      · exact ⟨early, now, late ++ [a], by simp, cut⟩
      · exact ⟨acts, now, [], rfl, cut⟩
    · rintro ⟨early, now, late, split, cut⟩
      -- The turn that cuts the loop off is the last step, or stands in the run before it.
      rcases List.eq_nil_or_concat late with rfl | ⟨late, b, rfl⟩
      · obtain ⟨rfl, ha⟩ := List.append_inj' split rfl
        exact .inr ⟨now, (List.cons.inj ha).1, cut⟩
      · rw [List.concat_eq_append, ← List.cons_append, ← List.append_assoc] at split
        exact .inl ⟨early, now, late, (List.append_inj' split rfl).1, cut⟩

/-- **The response of every run.** What is sent is always the beginning of a whole response. Once the loop is
over, the end was sent exactly once, unless the loop was cut off; then nothing was sent. -/
theorem response_of_keepsKinds (s : Setup σ Out In) (keeps : s.pipeline.KeepsResponseKinds) (x : σ)
    (acts : List (Act Out W)) :
    (∃ whole, IsResponse whole ∧ (run (step s) (new s x) acts).sent.map ResponsePart.kind <+: whole) ∧
    ((run (step s) (new s x) acts).ended = true →
      (((run (step s) (new s x) acts).sent.map ResponsePart.kind).count .close = 1 ↔
        ¬ WasCutOff s (new s x) acts)) ∧
    (WasCutOff s (new s x) acts → (run (step s) (new s x) acts).sent = []) := by
  obtain ⟨said, done, h⟩ := ledger_after s x acts
  rw [kinds_of_keeps keeps h.emerged, ← crashed_after_iff]
  have order := OutboundPhase.follow_cases h.order
  have nothing (pending : (run (step s) (new s x) acts).progress.outbound = .headersPending) : said = [] := by
    rcases order with ⟨-, e⟩ | ⟨e, -⟩ | ⟨e, -⟩
    · simpa using e
    · simp [e] at pending
    · simp [e] at pending
  refine ⟨?_, fun past => ?_, fun crashed => ?_⟩
  · rcases order with ⟨-, e⟩ | ⟨-, n, e⟩ | ⟨-, whole⟩
    · exact ⟨_, .alone, by simp [e]⟩
    · exact ⟨_, .streamed n, by rw [e]; exact ⟨[.close], rfl⟩⟩
    · exact ⟨_, whole, List.prefix_rfl⟩
  · cases h.standing with
    | live live => simp [live.ended] at past
    | closed outbound _ whole =>
      rcases order with ⟨e, -⟩ | ⟨e, -⟩ | ⟨-, response⟩
      · simp [e] at outbound
      · simp [e] at outbound
      · simp [response.count_close, whole]
    | cut pending _ crashed => simp [nothing pending, crashed]
  · cases h.standing with
    | live live => simp [live.crashed] at crashed
    | closed _ _ whole => simp [whole] at crashed
    | cut pending => simpa [nothing pending] using h.emerged

end Run

/-- A server that lets no response message pass. -/
def mute : Setup Unit Bytes Bytes where
  config := {}
  codec := .bytes
  pipeline := [{ name := "mute", request := none, response := some fun p x =>
    ((p, if p.kind = .message then some (Status.of .permissionDenied "no messages") else none), x) }]
  delegate := .plain

/-- A handler starts and writes a message, and the loop runs to its end. -/
def oneWrite : List (Act Bytes Nat) :=
  [.submit (.part (.metadata {})), .turn 0, .deed (.write ⟨[1], .inherit⟩), .turn 0, .conclude]

theorem response_of_mute :
    mute.pipeline.KeepsResponseKinds ∧
    (run (step mute) (new mute ()) oneWrite).sent.map ResponsePart.kind = [.metadata, .close] ∧
    (∃ whole, IsResponse whole ∧ (run (step mute) (new mute ()) oneWrite).sent.map ResponsePart.kind <+: whole) ∧
    (((run (step mute) (new mute ()) oneWrite).sent.map ResponsePart.kind).count .close = 1 ↔
      ¬ WasCutOff mute (new mute ()) oneWrite) := by
  have keeps : mute.pipeline.KeepsResponseKinds := by
    intro i hi look hl p x _
    obtain rfl := List.mem_singleton.mp hi
    obtain rfl := Option.some.inj hl
    rfl
  obtain ⟨word, once, -⟩ := response_of_keepsKinds mute keeps () oneWrite
  exact ⟨keeps, rfl, word, once rfl⟩

end Call

end CallLifecycle.Server
