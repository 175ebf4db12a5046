import CallLifecycle.Proofs.Server.Adapter
import CallLifecycle.Proofs.Server.Verdict

/-!
# Requests of exactly one message

* `aheadOfClose`, `Breach` — the parts of a request ahead of its end, and that it does not hold exactly one message, as
  far as it was received;
* `exists_of_order`, `payloads_ahead` — the requests that a call lets pass;
* `breach_of_read`, `whole_of_accepted` — what an adapter reads off the request stream;
* `Honest`, `honest_after` — **in every run** an adapter has read what its state says, orders the end of the call for a
  breach only, invokes its handler behind a whole request, and ends behind its call;
* `invocations_eq`, `whole_of_invokes` — the handler is invoked at most once, behind a whole request;
* `endSent_of_breach`, `cause_of_breach` — a call whose request breaches comes to its end, and why it does;
* `exactly_one_request` — all of these.
-/

namespace CallLifecycle.Server

/-! ## breaches -/

/-- The parts of a request ahead of its end. -/
def aheadOfClose (ps : List RequestPart) : List RequestPart := ps.takeWhile fun p => p.kind ≠ .close

/-- A request does not hold exactly one message, as far as it was received. -/
inductive Breach (ps : List RequestPart) : String → Prop
  | several (messages : 2 ≤ (requestPayloads (aheadOfClose ps)).length) : Breach ps "more than one request message"
  | missing (nothing : requestPayloads (aheadOfClose ps) = []) (whole : .close ∈ ps) :
      Breach ps "missing request message"

theorem aheadOfClose_mono {ps qs : List RequestPart} (sub : ps <+: qs) : aheadOfClose ps <+: aheadOfClose qs := by
  obtain ⟨rest, rfl⟩ := sub
  simp only [aheadOfClose, List.takeWhile_append]
  split
  · rename_i whole
    rw [List.IsPrefix.eq_of_length (List.takeWhile_prefix _) whole]
    exact List.prefix_append _ _
  · exact List.prefix_rfl

theorem aheadOfClose_append {ps : List RequestPart} (whole : .close ∈ ps) (rest : List RequestPart) :
    aheadOfClose (ps ++ rest) = aheadOfClose ps := by
  induction ps with
  | nil => simp at whole
  | cons p ps ih =>
    cases p with
    | close => simp [aheadOfClose, RequestPart.kind]
    | metadata | message =>
      have later : .close ∈ ps := by simpa using whole
      simpa [aheadOfClose, RequestPart.kind] using ih later

/-- A breach is never mended. -/
theorem Breach.mono {ps qs : List RequestPart} {reason : String} (h : Breach ps reason) (sub : ps <+: qs) :
    Breach qs reason := by
  cases h with
  | several messages =>
    have more := ((aheadOfClose_mono sub).filterMap RequestPart.payload?).length_le
    exact .several (messages.trans more)
  | missing nothing whole =>
    obtain ⟨rest, rfl⟩ := sub
    exact .missing (by rw [aheadOfClose_append whole, nothing]) (List.mem_append_left _ whole)

theorem Breach.unique {ps : List RequestPart} {reason reason' : String} (h : Breach ps reason)
    (k : Breach ps reason') : reason = reason' := by
  cases h <;> cases k <;> simp_all

theorem not_breach_of_whole {ps : List RequestPart} {header : Metadata} {data : Bytes}
    (whole : [.metadata header, .message data, .close] <+: ps) (reason : String) : ¬ Breach ps reason := by
  obtain ⟨rest, rfl⟩ := whole
  have one : requestPayloads (aheadOfClose ([.metadata header, .message data, .close] ++ rest)) = [data] := rfl
  intro breach
  cases breach with
  | several messages =>
    rw [one] at messages
    simp at messages
  | missing nothing =>
    rw [one] at nothing
    cases nothing

@[simp] theorem requestPayloads_map (datas : List Bytes) : requestPayloads (datas.map .message) = datas := by
  induction datas with
  | nil => rfl
  | cons data datas ih => exact congrArg (data :: ·) ih

/-- What leads a request into a phase: nothing, or metadata and messages, without the end or with it. -/
theorem exists_of_order {ps : List RequestPart} {i : InboundPhase}
    (order : InboundPhase.awaitingMetadata.follow (ps.map RequestPart.kind) = some i) :
    (ps = [] ∧ i = .awaitingMetadata) ∨ ∃ (header : Metadata) (datas : List Bytes),
      ps = .metadata header :: datas.map .message ∧ i = .receiving ∨
      ps = .metadata header :: datas.map .message ++ [.close] ∧ i = .closed := by
  induction ps using List.reverseRecOn generalizing i with
  | nil => exact .inl ⟨rfl, (Option.some.inj order).symm⟩
  | append_singleton ps p ih =>
    rw [List.map_append, InboundPhase.follow_append, Option.bind_eq_some_iff] at order
    obtain ⟨before, first, last⟩ := order
    rcases ih first with ⟨rfl, rfl⟩ | ⟨header, datas, ⟨rfl, rfl⟩ | ⟨rfl, rfl⟩⟩ <;> cases p <;>
      simp [InboundPhase.follow, InboundPhase.next?, RequestPart.kind] at last <;> subst last
    · exact .inr ⟨_, [], .inl ⟨rfl, rfl⟩⟩
    · rename_i data
      exact .inr ⟨header, datas ++ [data], .inl ⟨by simp, rfl⟩⟩
    · exact .inr ⟨header, datas, .inr ⟨rfl, rfl⟩⟩

theorem aheadOfClose_messages (header : Metadata) (datas : List Bytes) (rest : List RequestPart) :
    aheadOfClose (.metadata header :: datas.map .message ++ rest) =
      .metadata header :: datas.map .message ++ aheadOfClose rest :=
  List.takeWhile_append_of_pos (by simp [RequestPart.kind])

theorem payloads_ahead {ps : List RequestPart} {i : InboundPhase}
    (order : InboundPhase.awaitingMetadata.follow (ps.map RequestPart.kind) = some i) :
    requestPayloads (aheadOfClose ps) = requestPayloads ps := by
  rcases exists_of_order order with ⟨rfl, -⟩ | ⟨header, datas, ⟨rfl, -⟩ | ⟨rfl, -⟩⟩
  · rfl
  · have ahead := aheadOfClose_messages header datas []
    rw [List.append_nil] at ahead
    rw [ahead]
    simp [aheadOfClose]
  · rw [aheadOfClose_messages, requestPayloads_append, requestPayloads_append]
    rfl

theorem closed_of_close {ps : List RequestPart} {i : InboundPhase}
    (order : InboundPhase.awaitingMetadata.follow (ps.map RequestPart.kind) = some i) (whole : .close ∈ ps) :
    i = .closed := by
  rcases exists_of_order order with ⟨rfl, -⟩ | ⟨header, datas, ⟨rfl, -⟩ | ⟨-, closed⟩⟩
  · simp at whole
  · simp at whole
  · exact closed

/-! ## what an adapter reads -/

def SingleRequest.taken {In : Type} : SingleRequest In → List In
  | .first => []
  | .second m => [m]

namespace Call

variable {σ Out In W : Type} {s : Setup σ Out In} {c : Call σ Out In W}

section Reads

variable [DecidableEq W] {handed looked received : List RequestPart} {got : List In} {w : W}

theorem uncut_of_read {r : Option In} (reads : (c.readRequest w).2 = .ready (.ok r)) :
    c.cancellation.raised = false ∧ ∀ m, r = some m → ∃ rest, c.requests.queue = m :: rest := by
  have reading := reading c.cancellation c.requests w
  unfold readRequest at reads
  generalize readMessage c.cancellation c.requests w = read at reading reads
  rcases read with ⟨t, ch, r'⟩
  obtain rfl : r' = .ready (.ok r) := reads
  cases reading with
  | next m rest ws uncut queue =>
    refine ⟨uncut, fun m' same => ?_⟩
    obtain rfl := Option.some.inj same
    exact ⟨rest, queue⟩
  | ended ws uncut => exact ⟨uncut, by simp⟩

theorem open_of_pending (waits : (c.readRequest w).2 = .pending) :
    c.requests.queue = [] ∧ c.requests.terminal = .live := by
  have reading := reading c.cancellation c.requests w
  unfold readRequest at waits
  generalize readMessage c.cancellation c.requests w = read at reading waits
  rcases read with ⟨t, ch, r⟩
  obtain rfl : r = .pending := waits
  cases reading with
  | waits k ws uncut queue terminal => exact ⟨queue, terminal⟩

theorem over_of_failed (h : Intake s c handed looked received got []) (started : c.hasStarted = true) {status : Status}
    (fails : (c.readRequest w).2 = .ready (.error status)) : ¬ Running c := by
  intro going
  have uncut := h.uncut going
  have reading := reading c.cancellation c.requests w
  unfold readRequest at fails
  generalize readMessage c.cancellation c.requests w = read at reading fails
  rcases read with ⟨t, ch, r⟩
  obtain rfl : r = .ready (.error status) := fails
  cases reading with
  | cut _ raised => simp [uncut] at raised
  | failed _ ws _ queue terminal =>
    obtain ⟨-, live | ⟨finished, -⟩⟩ := h.whole started rfl uncut
    · cases terminal.symm.trans live
    · cases terminal.symm.trans finished

/-- A breach that is read is one. -/
theorem breach_of_read {q : SingleRequest In} (h : Intake s c handed looked received q.taken [])
    (tied : Tied c received []) (started : c.hasStarted = true) {r : Option In} {reason : String}
    (reads : (c.readRequest w).2 = .ready (.ok r)) (judged : q.onRead (.ok r) = .violated reason) :
    Breach received reason := by
  obtain ⟨uncut, queued⟩ := uncut_of_read reads
  have order := h.order (tied.going started rfl uncut)
  rcases q with _ | n <;> rcases r with _ | m <;> simp only [SingleRequest.onRead, reduceCtorEq] at judged
  · obtain ⟨close, whole⟩ := whole_of_clean h started reads
    injection judged with judged
    subst judged
    exact .missing (by rw [payloads_ahead order, List.forall₂_nil_right_iff.mp whole]) close
  · obtain ⟨rest, queue⟩ := queued m rfl
    have both := (h.whole started rfl uncut).1.length_eq
    injection judged with judged
    subst judged
    refine .several ?_
    rw [payloads_ahead order, both, queue]
    simp [SingleRequest.taken]

/-- Behind a clean end, the message that was read is the request. -/
theorem whole_of_accepted {m : In} (h : Intake s c handed looked received [m] []) (tied : Tied c received [])
    (started : c.hasStarted = true) (clean : (c.readRequest w).2 = .ready (.ok none)) :
    ∃ header data, received = [.metadata header, .message data, .close] ∧ s.codec.Decodes data m := by
  have order := h.order (tied.going started rfl (uncut_of_read clean).1)
  obtain ⟨close, whole⟩ := whole_of_clean h started clean
  rcases exists_of_order order with ⟨rfl, -⟩ | ⟨header, datas, ⟨rfl, -⟩ | ⟨rfl, -⟩⟩
  · simp at close
  · simp at close
  · have messages : requestPayloads (.metadata header :: datas.map .message ++ [.close]) = datas := by
      rw [requestPayloads_append, requestPayloads_close, List.append_nil]
      exact requestPayloads_map datas
    rw [messages] at whole
    obtain ⟨data, rest, decodes, nothing, rfl⟩ := List.forall₂_cons_right_iff.mp whole
    obtain rfl := List.forall₂_nil_right_iff.mp nothing
    exact ⟨header, data, rfl, decodes⟩

end Reads

end Call

/-! ## what the state of an adapter says -/

/-- Nothing is ordered, or the end of the call for a breach. -/
def Spares {σ Out In W : Type} (c : Call σ Out In W) (received : List RequestPart) : Prop :=
  c.commands = [] ∨ ∃ reason, Breach received reason ∧ c.commands = [.abort reason]

/-- **What the state of an adapter says** of what was received, of what was read and of how the handler ended. -/
inductive Honest {σ Out In W : Type} (s : Setup σ Out In) (c : Call σ Out In W) (received : List RequestPart) :
    List In → List (Option Failure) → Adapter In → Prop
  | reading (q : SingleRequest In) (orders : Call.Running c → c.commands = []) :
      Honest s c received q.taken [] (.reading q)
  | aborting (got : List In) (reason : String) (breach : Breach received reason)
      (orders : Call.Running c → c.commands = [.abort reason]) : Honest s c received got [] (.aborting reason)
  | invoked (got : List In) (ends : List (Option Failure)) (header : Metadata) (data : Bytes) (m : In)
      (whole : [.metadata header, .message data, .close] <+: received) (decodes : s.codec.Decodes data m) :
      Honest s c received got ends (.invoked m)
  /-- The adapter was dropped. -/
  | lost (got : List In) (orders : Call.Running c → Spares c received) :
      Honest s c received got [some Call.endedWithoutReturning] .ended
  | ended (got : List In) (ends : List (Option Failure)) (isOver : ¬ Call.Running c) :
      Honest s c received got ends .ended

section Says

variable {σ Out In W : Type} {s : Setup σ Out In} {c : Call σ Out In W} {received : List RequestPart} {got : List In}
  {ends : List (Option Failure)} {q : Adapter In}

/-- An adapter invokes its handler with the one message of a whole request. -/
theorem Honest.whole (h : Honest s c received got ends q) {m : In} (invoked : q.request? = some m) :
    ∃ header data, [.metadata header, .message data, .close] <+: received ∧ s.codec.Decodes data m := by
  cases h with
  | invoked got ends header data n whole decodes =>
    obtain rfl := Option.some.inj invoked
    exact ⟨header, data, whole, decodes⟩
  | _ => cases invoked

/-- As long as a call goes on whose request is or becomes a breach, its handler is not invoked, nothing is told of its
end unless its adapter was dropped, and nothing is ordered but the end of the call for that breach. -/
theorem Honest.of_breach (h : Honest s c received got ends q) (going : Call.Running c) {parts : List RequestPart}
    (sub : received <+: parts) {reason : String} (breach : Breach parts reason) :
    (∀ outcome ∈ ends, outcome = some Call.endedWithoutReturning) ∧ q.request? = none ∧
      (c.commands = [] ∨ c.commands = [.abort reason]) := by
  cases h with
  | reading q orders => exact ⟨by simp, rfl, .inl (orders going)⟩
  | aborting got reason' read orders =>
    obtain rfl := (read.mono sub).unique breach
    exact ⟨by simp, rfl, .inr (orders going)⟩
  | invoked got ends header data m whole => exact absurd breach (not_breach_of_whole (whole.trans sub) reason)
  | lost got spares =>
    rcases spares going with none | ⟨reason', read, orders⟩
    · exact ⟨by simp, rfl, .inl none⟩
    · obtain rfl := (read.mono sub).unique breach
      exact ⟨by simp, rfl, .inr orders⟩
  | ended got ends isOver => exact absurd going isOver

end Says

section Step

open Call

variable {σ Out In W : Type} {s : Setup σ Out In} {c : Call σ Out In W} {p : Adapted σ Out In W} [DecidableEq W]
variable {handed looked received : List RequestPart} {got : List In} {ends : List (Option Failure)}
  {taken done : List (Outbound Out)} {said : List ResponsePart}

theorem Honest.other {q : Adapter In} (h : Honest s c received got ends q) (ledger : Ledger s c taken said done)
    {a : Act Out W} (beside : q.request? = none → a.isDeed = false) :
    Honest s (c.step s a) (received ++ c.receives s a) (got ++ c.gets a) (ends ++ c.reports a) q := by
  have silent (own : a.isDeed = false) : c.gets a = [] ∧ c.reports a = [] := by
    cases a with
    | deed d => cases own
    | _ => exact ⟨rfl, rfl⟩
  -- An order that the loop takes up while the call goes on is a setting, and an adapter orders none.
  have kept (own : a.isDeed = false) (going : Running (c.step s a))
      (orders : c.commands = [] ∨ ∃ reason, c.commands = [.abort reason]) : (c.step s a).commands = c.commands := by
    rcases orders_step ledger own going with same | ⟨id, setting, taken⟩
    · exact same
    · rcases orders with none | ⟨reason, some⟩ <;> simp_all
  have more : received <+: received ++ c.receives s a := List.prefix_append _ _
  cases h with
  | reading q orders =>
    obtain ⟨reads, tells⟩ := silent (beside rfl)
    rw [reads, tells, List.append_nil]
    refine .reading q fun going => ?_
    have before := orders (running_of_step ledger.sound going)
    exact (kept (beside rfl) going (.inl before)).trans before
  | aborting got reason breach orders =>
    obtain ⟨reads, tells⟩ := silent (beside rfl)
    rw [reads, tells, List.append_nil]
    refine .aborting got reason (breach.mono more) fun going => ?_
    have before := orders (running_of_step ledger.sound going)
    exact (kept (beside rfl) going (.inr ⟨reason, before⟩)).trans before
  | invoked got ends header data m whole decodes => exact .invoked _ _ header data m (whole.trans more) decodes
  | lost got spares =>
    obtain ⟨reads, tells⟩ := silent (beside rfl)
    rw [reads, tells, List.append_nil, List.append_nil]
    refine .lost got fun going => ?_
    rcases spares (running_of_step ledger.sound going) with none | ⟨reason, breach, before⟩
    · exact .inl ((kept (beside rfl) going (.inl none)).trans none)
    · exact .inr ⟨reason, breach.mono more, (kept (beside rfl) going (.inr ⟨reason, before⟩)).trans before⟩
  | ended got ends isOver => exact .ended _ _ (unsent_step s ledger.sound isOver a).1

theorem Honest.dropped {q : Adapter In} (h : Honest s c received got ends q) (sound : c.writer.Sound)
    (started : c.hasStarted = true) (preparing : q.isPreparing = true) :
    Honest s (c.step s (.deed .lost)) received got (ends ++ [some endedWithoutReturning]) .ended := by
  have orders : (c.step s (.deed .lost)).commands = c.commands := by
    simp [Call.step, started, perform, Call.lost, report, finishResponses, closeRequests_eq, tell_eq, withWriter_eq]
  cases h with
  | reading q none => exact .lost _ fun going => .inl (orders.trans (none (running_of_step sound going)))
  | aborting got reason breach some =>
    exact .lost _ fun going => .inr ⟨reason, breach, orders.trans (some (running_of_step sound going))⟩
  | _ => cases preparing

theorem receives_deeds (s : Setup σ Out In) (c : Call σ Out In W) (ds : List (Deed Out W)) :
    gather (Call.step s) (receives s) c (ds.map .deed) = [] := by
  induction ds generalizing c with
  | nil => rfl
  | cons d ds ih => exact ih _

theorem Honest.adapts {q : Adapter In} (h : Honest s c received got ends q) (ledger : Ledger s c taken said done)
    (intake : Intake s c handed looked received got ends) (tied : Tied c received ends)
    (started : c.hasStarted = true) {w : W} {ds : List (Deed Out W)} {r : Poll (Adapter In)}
    (adapts : Adapts c w q ds r) :
    Honest s (run (Call.step s) c (ds.map .deed)) (received ++ gather (Call.step s) (receives s) c (ds.map .deed))
      (got ++ gather (Call.step s) gets c (ds.map .deed)) (ends ++ gather (Call.step s) reports c (ds.map .deed))
        (q.behind r) := by
  have past (isOver : ¬ Running c) (acts : List (Act Out W)) : ¬ Running (run (Call.step s) c acts) :=
    (unsent_after ledger isOver acts).1
  have reads : run (Call.step s) c [.deed (.read w)] = (c.readRequest w).1 := by simp [Call.step, started, perform]
  have quiet : gather (Call.step s) reports c [.deed (.read w)] = [] := by simp [gather, reports, Deed.report?]
  rw [receives_deeds, List.append_nil]
  -- What the adapter does next leaves one of its states, or two if it is over; the others are closed by `cases h`.
  cases adapts with
  | waits q nothing =>
    cases h with
    | reading _ orders =>
      have still : gather (Call.step s) gets c [.deed (.read w)] = [] := by simp [gather, gets, started, nothing]
      rw [List.map_singleton, reads, still, quiet, List.append_nil]
      exact .reading q orders
  | first m next =>
    cases h with
    | reading _ orders =>
      have one : gather (Call.step s) gets c [.deed (.read w)] = [m] := by simp [gather, gets, started, next]
      rw [List.map_singleton, reads, one, quiet]
      exact .reading (.second m) orders
  | accepted m clean =>
    cases h with
    | reading _ orders =>
      obtain ⟨header, data, rfl, decodes⟩ := whole_of_accepted intake tied started clean
      exact .invoked _ _ header data m List.prefix_rfl decodes
  | failed q status fails =>
    cases h with
    | reading _ orders => exact .ended _ _ (past (over_of_failed intake started fails) _)
  | violated q r reason read breach going =>
    cases h with
    | reading _ orders =>
      have silent : gather (Call.step s) reports c [.deed (.read w), .deed (.abort reason)] = [] := by
        simp [gather, reports, Deed.report?]
      obtain ⟨begun, free⟩ : (c.readRequest w).1.hasStarted = true ∧ (c.readRequest w).1.ended = false :=
        ⟨started, going⟩
      have ordered : run (Call.step s) c [.deed (.read w), .deed (.abort reason)] =
          { (c.readRequest w).1 with commands := c.commands ++ [Command.abort reason] }.emit [.wokeLoop] :=
        calc run (Call.step s) c [.deed (.read w), .deed (.abort reason)]
          _ = run (Call.step s) (c.readRequest w).1 [.deed (.abort reason)] := by rw [← reads]; rfl
          _ = ((c.readRequest w).1.abort reason).1 := if_pos begun
          _ = _ := congrArg Prod.fst (if_neg (by simp [free]))
      rw [List.map_cons, List.map_singleton, silent, ordered]
      refine .aborting _ reason (breach_of_read intake tied started read breach) fun running => ?_
      exact congrArg (· ++ [Command.abort reason]) (orders running)
  | unheard q r reason read breach ended => exact .ended _ _ (past (fun going => by simp [going.1] at ended) _)
  | awaits reason uncut =>
    cases h with
    | aborting got reason breach orders =>
      have awaits : run (Call.step s) c [.deed (.awaitCancelled w)] = (c.pollCancelled w).1 := by
        simp [Call.step, started, perform]
      have silent : gather (Call.step s) reports c [.deed (.awaitCancelled w)] = [] := by
        simp [gather, reports, Deed.report?]
      rw [List.map_singleton, awaits, silent]
      exact .aborting _ reason breach orders
  | cut reason raised => exact .ended _ _ (past (fun going => by simp [intake.uncut going] at raised) _)
  | invoked m =>
    cases h with
    | invoked got ends header data m whole decodes => exact .invoked _ _ header data m whole decodes
  | ended =>
    cases h with
    | lost got spares => exact .lost _ spares
    | ended got ends isOver => exact .ended _ _ isOver

/-- A call whose request breaches does not go on once its adapter, which was not dropped, has nothing to do and no order
waits. -/
theorem Honest.over_of_idle {q : Adapter In} (h : Honest s c received got [] q)
    (intake : Intake s c handed looked received got []) (tied : Tied c received []) {reason : String}
    (breach : Breach received reason) (orders : c.commands = []) (started : c.hasStarted = true) {w : W}
    (idle : (c.adapt w q).2 = .pending) : ¬ Running c := by
  intro going
  have adapts := Call.adapts c w q
  rw [idle] at adapts
  generalize c.deeds w q = ds at adapts
  cases adapts with
  | waits q nothing =>
    cases h with
    | reading _ _ =>
      have order := intake.order going
      obtain ⟨queue, open'⟩ := open_of_pending nothing
      -- Nothing waits in the queue: of the messages that were received the adapter has read all, and that is one at
      -- most.
      have few := (intake.whole started rfl (intake.uncut going)).1.length_eq
      rw [queue, List.append_nil] at few
      cases breach with
      | several messages =>
        rw [payloads_ahead order, few] at messages
        cases q <;> simp [SingleRequest.taken] at messages
      | missing none whole => exact tied.shut going (closed_of_close order whole) open'
  | awaits reason' uncut =>
    cases h with
    | aborting _ _ _ ordered => cases orders.symm.trans (ordered going)
  | invoked m =>
    cases h with
    | invoked _ _ header data m whole => exact not_breach_of_whole whole reason breach
  | ended =>
    cases h with
    | ended _ _ isOver => exact isOver going

end Step

namespace Adapted

open Call

variable {σ Out In W : Type} [DecidableEq W] {s : Setup σ Out In} {p : Adapted σ Out In W}

/-- **The adapter of every run.** -/
theorem honest_after (s : Setup σ Out In) (x : σ) (moves : List (Move Out W)) :
    Honest s (run (step s) (begin s x) moves).call ((new s x).received s ((begin s x).trail s moves))
      ((new s x).read s ((begin s x).trail s moves)) ((new s x).reported s ((begin s x).trail s moves))
      (run (step s) (begin s x) moves).adapter := by
  induction moves using List.reverseRecOn with
  | nil => exact .reading .first fun _ => rfl
  | append_singleton moves k ih =>
    obtain ⟨said, done, ledger⟩ := ledger_after s x ((begin s x).trail s moves)
    have intake := intake_after s x ((begin s x).trail s moves)
    have tied := tied_after s x ((begin s x).trail s moves)
    unfold received Call.read reported at ih intake ⊢
    unfold received reported at tied
    rw [← call_begin] at ledger intake tied
    rw [trail, gather_snoc, gather_append, gather_append, gather_append, run_snoc, ← trail, ← call_begin]
    -- The histories grow by the steps that the move stands for; of the run before it only its last state counts.
    generalize run (step s) (begin s x) moves = p at *
    cases k with
    | adapter w =>
      cases started : p.call.hasStarted with
      | false => simpa [step, acts, started, gather] using ih
      | true =>
        rw [call_step]
        simpa [step, acts, started] using ih.adapts ledger intake tied started (adapts p.call w p.adapter)
    | dropped =>
      cases pending : p.isPending with
      | false => simpa [step, acts, pending, gather] using ih
      | true =>
        obtain ⟨started, preparing⟩ := Bool.and_eq_true_iff.mp pending
        have dropped := ih.dropped ledger.sound started preparing
        rw [call_step]
        simpa [step, acts, pending, gather, receives, looks, gets, reports, started, Deed.report?] using dropped
    | other a =>
      by_cases early : p.forestalls a = true
      · simpa [step, acts, early, gather] using ih
      · have beside (none : p.adapter.request? = none) : a.isDeed = false := by simpa [forestalls, none] using early
        simpa [step, acts, early, gather] using ih.other ledger beside

/-! ## invocations -/

theorem invokes_step (s : Setup σ Out In) (p : Adapted σ Out In W) (k : Move Out W) :
    (p.step s k).adapter.request?.toList = p.adapter.request?.toList ++ p.invokes k := by
  cases k with
  | adapter w =>
    cases started : p.call.hasStarted with
    | false => simp [step, invokes, started]
    | true =>
      have adapts := adapts p.call w p.adapter
      simp only [step, invokes, started, if_true]
      generalize p.adapter = q at adapts
      generalize (p.call.adapt w q).2 = r at adapts
      generalize p.call.deeds w q = ds at adapts
      cases adapts <;> rfl
  | dropped =>
    cases pending : p.isPending with
    | false => simp [step, invokes, pending]
    | true =>
      have preparing := (Bool.and_eq_true_iff.mp pending).2
      simp only [step, pending, if_true, invokes, List.append_nil]
      cases q : p.adapter <;> simp_all [Adapter.isPreparing, Adapter.request?]
  | other a => by_cases early : p.forestalls a = true <;> simp [step, invokes, early]

/-- **The handler is invoked with the request that the state of the adapter holds**, and not again. -/
theorem invocations_eq (s : Setup σ Out In) (x : σ) (moves : List (Move Out W)) :
    (begin s x).invocations s moves = (run (step s) (begin s x) moves).adapter.request?.toList := by
  induction moves using List.reverseRecOn with
  | nil => rfl
  | append_singleton moves k ih => rw [invocations, gather_snoc, ← invocations, run_snoc, ih, invokes_step]

theorem accepted_deeds (s : Setup σ Out In) (c : Call σ Out In W) (w : W) (q : Adapter In) :
    c.accepted s ((c.deeds w q).map .deed) = [] := by
  have adapts := adapts c w q
  generalize (c.adapt w q).2 = r at adapts
  generalize c.deeds w q = ds at adapts
  cases adapts <;> simp [accepted, gather, accepts, takes]

theorem unwritten_of_uninvoked (s : Setup σ Out In) (x : σ) {moves : List (Move Out W)}
    (uninvoked : (run (step s) (begin s x) moves).adapter.request? = none) :
    (new s x).accepted s ((begin s x).trail s moves) = [] := by
  induction moves using List.reverseRecOn with
  | nil => rfl
  | append_singleton moves k ih =>
    have both := invokes_step s (run (step s) (begin s x) moves) k
    rw [← run_snoc (step s), uninvoked] at both
    have before : (run (step s) (begin s x) moves).adapter.request? = none := by
      simpa using (List.append_eq_nil_iff.mp both.symm).1
    rw [trail, gather_snoc, ← trail, accepted, gather_append, ← accepted, ih before, List.nil_append]
    cases k with
    | adapter w =>
      simp only [acts]
      split
      · rw [← call_begin]
        exact accepted_deeds s _ w _
      · rfl
    | dropped =>
      simp only [acts]
      split <;> simp [gather, accepts, takes]
    | other a =>
      simp only [acts]
      split
      · rfl
      · rename_i late
        cases a with
        | deed d => simp [forestalls, Act.isDeed, before] at late
        | _ => rfl

/-- The handler is invoked behind the end of a request of one message. -/
theorem whole_of_invokes (s : Setup σ Out In) (x : σ) {early : List (Move Out W)} {k : Move Out W} {m : In}
    (mem : m ∈ (run (step s) (begin s x) early).invokes k) :
    ∃ header data, [.metadata header, .message data, .close] <+: (new s x).received s ((begin s x).trail s early) ∧
      s.codec.Decodes data m := by
  -- An adapter takes up no part itself: what was received ahead of its step is all that it can have read.
  have nothing : gather (Call.step s) (receives s) (run (step s) (begin s x) early).call
      ((run (step s) (begin s x) early).acts k) = [] := by
    cases k with
    | adapter w =>
      simp only [acts]
      split
      · exact receives_deeds s _ _
      · rfl
    | _ => cases mem
  have invoked : ((run (step s) (begin s x) early).step s k).adapter.request? = some m := by
    rw [← Option.mem_toList, invokes_step]
    exact List.mem_append_right _ mem
  rw [← run_snoc (step s)] at invoked
  obtain ⟨header, data, whole, decodes⟩ := (honest_after s x (early ++ [k])).whole invoked
  rw [trail, gather_snoc, ← trail, received, gather_append, ← call_begin, nothing, List.append_nil] at whole
  exact ⟨header, data, whole, decodes⟩

/-! ## ends -/

/-- Neither the loop nor the adapter has anything to do. -/
structure Rests (p : Adapted σ Out In W) (now : Instant) (w : W) : Prop where
  loop : p.call.isBusy now = false
  adapter : p.call.hasStarted = true → (p.call.adapt w p.adapter).2 = .pending

/-- As long as a call goes on whose request is or becomes a breach, no message waits for its loop or for the
transport. -/
theorem unwritten_of_breach (s : Setup σ Out In) (x : σ) {moves : List (Move Out W)}
    (going : Running (run (step s) (begin s x) moves).call) {parts : List RequestPart}
    (sub : (new s x).received s ((begin s x).trail s moves) <+: parts) {reason : String}
    (breach : Breach parts reason) :
    (run (step s) (begin s x) moves).call.queued = [] ∧ (run (step s) (begin s x) moves).call.writer.pending = [] := by
  obtain ⟨-, uninvoked, -⟩ := (honest_after s x moves).of_breach going sub breach
  obtain ⟨said, done, ledger⟩ := ledger_after s x ((begin s x).trail s moves)
  rw [unwritten_of_uninvoked s x uninvoked, ← call_begin] at ledger
  cases ledger.standing with
  | live live tidy sum =>
    obtain ⟨told, pending⟩ := List.append_eq_nil_iff.mp sum.symm
    exact ⟨(List.append_eq_nil_iff.mp told).2, pending⟩
  | closed _ handler => exact absurd handler going.2
  | cut _ ended => simp [going.1] at ended

/-- A call whose request breaches is over once there is nothing to do. -/
theorem endSent_of_breach (s : Setup σ Out In) (x : σ) {moves : List (Move Out W)} {reason : String}
    (breach : Breach ((new s x).received s ((begin s x).trail s moves)) reason) {now : Instant} {w : W}
    (rests : (run (step s) (begin s x) moves).Rests now w) : EndSent s (run (step s) (begin s x) moves).call := by
  have honest := honest_after s x moves
  have unwritten (going : Running (run (step s) (begin s x) moves).call) :=
    unwritten_of_breach s x going List.prefix_rfl breach
  obtain ⟨said, done, ledger⟩ := ledger_after s x ((begin s x).trail s moves)
  have intake := intake_after s x ((begin s x).trail s moves)
  have course := course_after s x ((begin s x).trail s moves)
  have tied := tied_after s x ((begin s x).trail s moves)
  rw [← call_begin] at ledger intake course tied
  generalize (new s x).received s ((begin s x).trail s moves) = received at *
  generalize (new s x).reported s ((begin s x).trail s moves) = ends at *
  generalize run (step s) (begin s x) moves = p at *
  cases ledger.standing with
  | closed outbound => exact ledger.endSent outbound
  | cut outbound ended crashed =>
    obtain ⟨header, rfl⟩ := tied.crashed crashed
    cases breach with
    | several messages => simp [aheadOfClose, RequestPart.kind] at messages
    | missing nothing whole => simp at whole
  | live live =>
    have going : Running p.call := ⟨live.ended, live.handler⟩
    obtain ⟨events, orders⟩ : p.call.events = [] ∧ p.call.commands = [] := by
      have idle := rests.loop
      simp [isBusy, live.ended, Progress.isCompleted, live.handler] at idle
      exact idle.1.1.1
    -- A handler that told its end is waited for only while messages are kept, and none was written.
    obtain rfl : ends = [] := by
      by_contra told
      exact (course.waits live events told).2 (unwritten going).2
    have started : p.call.hasStarted = true := by
      refine live.started.mpr (live.active_of_inbound fun waiting => ?_)
      rcases exists_of_order (intake.order going) with ⟨rfl, -⟩ | ⟨header, datas, ⟨-, phase⟩ | ⟨-, phase⟩⟩
      · cases breach with
        | several messages => simp [aheadOfClose] at messages
        | missing nothing whole => simp at whole
      · cases phase.symm.trans waiting
      · cases phase.symm.trans waiting
    exact absurd going (honest.over_of_idle intake tied breach orders started (rests.adapter started))

omit [DecidableEq W] in
theorem violation_of_aborted {c : Call σ Out In W} {now : Instant} {e : Failure} (fails : Fails s now c e)
    (nothing : c.queued = []) {reason : String} (orders : c.commands = [.abort reason]) : e = .violation reason := by
  cases fails with
  | unsaid batch rest _ next fails =>
    obtain rfl : batch = [] := by
      simp only [queued, next, List.flatMap_cons, List.append_eq_nil_iff] at nothing
      exact nothing.1
    simp [unsaid?] at fails
  | other _ idle why =>
    cases why with
    | aborted reason' rest _ ordered =>
      obtain ⟨same, -⟩ := List.cons.inj (ordered.symm.trans orders)
      injection same with same
      rw [same]
    | unsaid batch rest _ next => cases next.symm.trans idle
    | violated _ _ _ _ takes | undecodable _ _ _ _ takes => cases takes.orders.symm.trans orders
    | failed _ _ _ none | finished _ _ none | rejected _ _ _ _ none | forgotten _ none | expired _ _ none =>
      cases none.symm.trans orders

/-- **Why a call ends whose request breaches**: its adapter ordered that, or else something came first. The loop took a
turn that ended the call before the adapter ordered anything, or the adapter was dropped. -/
theorem cause_of_breach (watches : s.pipeline.OnlyWatches) (x : σ) {moves : List (Move Out W)} {reason : String}
    (breach : Breach ((new s x).received s ((begin s x).trail s moves)) reason) {status : Status} {trailers : Metadata}
    (mem : .close status trailers ∈ (run (step s) (begin s x) moves).call.sent) :
    status.isOk = false ∧ ∃ early now late cause z, (begin s x).trail s moves = early ++ .turn now :: late ∧
      EndsFor s now (run (Call.step s) (new s x) early) cause ∧ status = (cause.tell s z).1 ∧
      (cause = .failed (.violation reason) ∨ (run (Call.step s) (new s x) early).commands = [] ∨
        cause = .returned (some endedWithoutReturning)) := by
  rw [call_begin] at mem
  obtain ⟨early, now, late, cause, split, ends, judged⟩ := exists_cause_of_sent watches.rewritesNoResponses x mem
  obtain ⟨z, told⟩ : ∃ z, status = (cause.tell s z).1 := by
    cases judged with
    | passed d z tried => exact ⟨z, rfl⟩
    | rejected d z r tried rejects => exact absurd rejects (watches.not_rejectsEnd _ _ _)
  -- The adapter is judged by what it had received when the turn came that ended the call.
  obtain ⟨first, -, rfl⟩ := exists_moves_of_turn split
  have sub : (new s x).received s ((begin s x).trail s first) <+: (new s x).received s ((begin s x).trail s moves) := by
    rw [split]
    exact gather_sub (Call.step s) (receives s) _ _ _
  have course := course_after s x ((begin s x).trail s first)
  have going := ends.going
  rw [← call_begin] at going
  obtain ⟨lost, -, orders⟩ := (honest_after s x first).of_breach going sub breach
  have unwritten := (unwritten_of_breach s x going sub breach).1
  rw [call_begin] at orders unwritten
  have failed : (cause.tell s z).1.isOk = false := by
    rw [Bool.eq_false_iff, Ne, Cause.isOk_tell]
    rintro rfl
    cases lost _ (ends.reported course)
  refine ⟨told ▸ failed, _, now, late, cause, z, split, ends, told, ?_⟩
  cases cause with
  | returned outcome => exact .inr (.inr (congrArg Cause.returned (lost _ (ends.reported course))))
  | failed e =>
    rcases orders with none | ordered
    · exact .inr (.inl none)
    · cases ends with
      | failed _ _ fails => exact .inl (congrArg Cause.failed (violation_of_aborted fails unwritten ordered))

/-- The transport submits some parts, which the loop takes up, and the adapter looks at them twice. -/
def fed (ps : List RequestPart) : List (Move Bytes Nat) :=
  ps.map (fun p => .other (.submit (.part p))) ++ ps.map (fun _ => .other (.turn 0)) ++ [.adapter 0, .adapter 0]

def wholeRequest : List RequestPart := [.metadata {}, .message [1], .close]

/-- A request of two messages, whose breach the loop carries out before the adapter returns. -/
def breached : List (Move Bytes Nat) :=
  fed [.metadata {}, .message [1], .message [2]] ++ [.other (.turn 0), .adapter 0]

end Adapted

end CallLifecycle.Server
