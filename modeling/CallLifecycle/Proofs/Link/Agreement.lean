import CallLifecycle.Proofs.Link.Exchange
import CallLifecycle.Proofs.Server.Delivery
import CallLifecycle.Proofs.Server.Words

/-!
# The two halves agree

Behind interceptors that keep the kinds of parts, neither of two connected calls breaks the order of the parts that the
other expects.

* `receive_of_next?` — a request part that may come next is not a reason to give the call up;
* `next?_of_takesUp` — **what the server takes up may come next**, as its client sent it;
* `violation_of_brought` — **what the client is handed comes in order**, but for a message behind the single response;
* `order_of_keepsKinds` — the two together.
-/

namespace CallLifecycle

open Client (routedParts Stage)
open Server (submittedParts)

/-! ## requests -/

namespace Server

theorem InboundPhase.follow_of_prefix {i j : InboundPhase} {ks ls : List PartKind} (sub : ks <+: ls)
    (h : i.follow ls = some j) : ∃ k, i.follow ks = some k := by
  obtain ⟨rest, rfl⟩ := sub
  rw [InboundPhase.follow_append, Option.bind_eq_some_iff] at h
  obtain ⟨k, first, -⟩ := h
  exact ⟨k, first⟩

theorem InboundPhase.follow_close {i j : InboundPhase} {ks ls : List PartKind}
    (h : i.follow (ks ++ .close :: ls) = some j) : ls = [] ∧ j = .closed := by
  rw [follow_append, Option.bind_eq_some_iff] at h
  obtain ⟨k, -, behind⟩ := h
  have closed : InboundPhase.closed.follow ls = some j := by
    cases k <;> simp_all [follow, next?]
  cases ls with
  | nil => exact ⟨rfl, (Option.some.inj closed).symm⟩
  | cons k ls => simp [follow, next?] at closed

theorem receive_of_next? {p : Progress} {k : PartKind} {j : InboundPhase} (next : p.inbound.next? k = some j)
    (reason : String) : (p.receive k).2 ≠ .cancel reason := by
  rcases p with ⟨handler, inbound, outbound⟩
  cases handler <;> cases inbound <;> cases k <;>
    simp_all [InboundPhase.next?, Progress.receive, Progress.whileActive]

end Server

section Agreement

variable {σ Out In W τ Res Req V : Type} [DecidableEq W] [DecidableEq V] {l : Connection σ Out In τ Res Req}
  {near : List (Client.Act Out W)} {stage : Stage} {far : List (Server.Act Res V)}

/-- What the client sent is the beginning of a request. -/
theorem Exchange.follow_sent (h : Exchange l near stage far) (keeps : l.client.pipeline.KeepsRequestKinds) :
    ∃ phase, Server.InboundPhase.awaitingMetadata.follow ((l.clientAfter near).sent.map RequestPart.kind) =
      some phase := by
  obtain ⟨said, done, phase, ledger⟩ := h.ledger
  exact ⟨phase, by rw [kinds_of_comes keeps ledger.comes, ledger.order]⟩

/-- **What the server takes up may come next.** -/
theorem Exchange.next?_of_takesUp (h : Exchange l near stage far) (keeps : l.client.pipeline.KeepsRequestKinds)
    (keeps' : l.server.pipeline.KeepsRequestKinds) {p q : RequestPart} {rest : List Server.Inbound}
    (running : Server.Call.Running (l.serverAfter far))
    (takes : Server.Call.TakesUp l.server (l.serverAfter far) p q rest) :
    ∃ j, (l.serverAfter far).progress.inbound.next? q.kind = some j := by
  have intake := intake_serverAfter l far
  have handed : l.serverStart.handed l.server far <+: submittedParts far :=
    (Server.Call.handed_prefix l.server l.there far).1
  obtain ⟨phase, whole⟩ := h.follow_sent keeps
  have waiting := intake.waiting running
  obtain ⟨first, late, split, passed, none⟩ := intake.passed
  obtain rfl := none running
  rw [List.append_nil] at split
  subst split
  have kinds := kinds_of_comes keeps' passed
  -- What was looked at, and behind it this part, is the beginning of what the client sent.
  have sub : ((l.serverStart.lookedAt l.server far) ++ [p]).map RequestPart.kind <+:
      (l.clientAfter near).sent.map RequestPart.kind := by
    refine (List.IsPrefix.trans ?_ (handed.trans h.carried)).map _
    rw [waiting]
    refine (List.prefix_append_right_inj _).mpr ?_
    rw [takes.inbox]
    exact ⟨_, rfl⟩
  obtain ⟨j, next⟩ := Server.InboundPhase.follow_of_prefix sub whole
  rw [List.map_append, ← kinds, Server.InboundPhase.follow_append, intake.order running] at next
  refine ⟨j, ?_⟩
  rw [takes.comes.kind_eq keeps']
  simpa [Server.InboundPhase.follow] using next

/-! ## responses -/

theorem length_payloads (ps : List ResponsePart) :
    (payloads ps).length = (ps.map ResponsePart.kind).count .message := by
  induction ps with
  | nil => rfl
  | cons p ps ih =>
    rw [payloads] at ih ⊢
    cases p <;> simp [List.filterMap_cons, ResponsePart.payload?, ResponsePart.kind, ih]

/-- The handler wrote as many messages as were sent. -/
theorem count_sent_le (l : Connection σ Out In τ Res Req) (keeps : l.server.pipeline.KeepsResponseKinds)
    (far : List (Server.Act Res V)) :
    ((l.serverAfter far).sent.map ResponsePart.kind).count .message ≤ (l.serverStart.accepted l.server far).length := by
  obtain ⟨said, done, ledger⟩ := ledger_serverAfter l far
  calc ((l.serverAfter far).sent.map ResponsePart.kind).count .message
    _ = (payloads said).length := by rw [length_payloads, Server.Call.kinds_of_keeps keeps ledger.emerged]
    _ = done.length := ledger.codes.length_eq.symm
    _ ≤ (l.serverStart.accepted l.server far).length := ledger.done_prefix.length_le

/-- What was sent may be said, part by part. -/
theorem follow_of_sent (l : Connection σ Out In τ Res Req) (keeps : l.server.pipeline.KeepsResponseKinds)
    {ks : List PartKind} {k : PartKind} (sub : ks ++ [k] <+: (l.serverAfter far).sent.map ResponsePart.kind) :
    ∃ o, Server.OutboundPhase.headersPending.follow ks = some o ∧ ∃ o', o.next? k = some o' := by
  obtain ⟨said, done, ledger⟩ := ledger_serverAfter l far
  have order := ledger.order
  obtain ⟨rest, whole⟩ := sub
  rw [← Server.Call.kinds_of_keeps keeps ledger.emerged, ← whole, Server.OutboundPhase.follow_append,
    Server.OutboundPhase.follow_append, Option.bind_eq_some_iff] at order
  obtain ⟨o', first, -⟩ := order
  obtain ⟨o, before, now⟩ := Option.bind_eq_some_iff.mp first
  exact ⟨o, before, o', by simpa [Server.OutboundPhase.follow] using now⟩

/-- **What the client is handed comes in order**, but for a message behind the single response. -/
theorem violation_of_brought (l : Connection σ Out In τ Res Req) (keeps : l.client.pipeline.KeepsResponseKinds)
    (keeps' : l.server.pipeline.KeepsResponseKinds) {p : ResponsePart}
    (next : routedParts near ++ [p] <+: (l.serverAfter far).sent) {reason : String}
    (violation : (l.clientAfter near).violation? l.client p = some reason) :
    reason = "more than one response message for a single response call" ∧ l.shape.streamsResponses = false ∧
    2 ≤ (l.serverStart.accepted l.server far).length := by
  obtain ⟨going, q, admitted, breaks⟩ := Client.Call.violation?_cases violation
  have undecided := Client.Call.undecided_of_going l.client l.shape l.runtime l.here going
  have inflow : Client.Call.Inflow l.client (l.clientAfter near) (routedParts near)
      (l.clientStart.received l.client near) (l.clientStart.read l.client near) :=
    Client.Call.inflow_of_undecided l.client l.shape l.runtime l.here undecided
  obtain ⟨first, -, arrives, all⟩ := inflow.passed
  obtain rfl := all going.1
  have kinds := kinds_of_arrives keeps arrives
  have kind := (Client.Call.arrives_of_admitted? admitted).kind_eq keeps
  have sub : (routedParts near).map ResponsePart.kind ++ [q.kind] <+:
      (l.serverAfter far).sent.map ResponsePart.kind := by
    simpa [kind] using next.map ResponsePart.kind
  -- The kinds that were handed over so far, with this one, are the beginning of a response that the server said: each
  -- of the three ways to break the order is held against that.
  obtain ⟨o, before, o', now⟩ := follow_of_sent l keeps' sub
  rcases breaks with ⟨metadata, known⟩ | ⟨message, unknown⟩ | ⟨message, answered, rfl⟩
  · have mem := inflow.known.mp known
    rw [kinds] at mem
    rw [metadata] at now
    rcases Server.OutboundPhase.follow_cases before with ⟨-, nothing⟩ | ⟨rfl, -⟩ | ⟨rfl, -⟩
    · simp [nothing] at mem
    · cases now
    · cases now
  · rw [message] at now
    rcases Server.OutboundPhase.follow_cases before with ⟨rfl, -⟩ | ⟨-, n, word⟩ | ⟨rfl, -⟩
    · cases now
    · have known := inflow.known.mpr (by simp [kinds, word])
      simp [unknown] at known
    · cases now
  · refine ⟨rfl, ?_, ?_⟩
    · have single : (l.clientAfter near).isStream = false := by
        unfold Client.Call.hasResponse at answered
        unfold Client.Call.isStream
        split <;> simp_all
      exact (Client.Call.isStream_after l.client l.shape l.runtime l.here near).symm.trans single
    · have mem := inflow.answered answered
      rw [kinds] at mem
      have first := List.count_pos_iff.mpr mem
      have both := sub.sublist.count_le PartKind.message
      rw [message, List.count_append, List.count_singleton_self] at both
      have accepted := count_sent_le l keeps' far
      omega

/-- **The two halves agree on the order of the parts.** Behind interceptors that keep the kinds of parts, though they
may reject them, no request part that the server takes up is a reason to give the call up. No response part that is
handed to the client breaks the order, but for a message behind the single response of a call whose handler wrote
several. -/
theorem order_of_keepsKinds (l : Connection σ Out In τ Res Req) (clientRequests : l.client.pipeline.KeepsRequestKinds)
    (clientResponses : l.client.pipeline.KeepsResponseKinds) (serverRequests : l.server.pipeline.KeepsRequestKinds)
    (serverResponses : l.server.pipeline.KeepsResponseKinds) (h : Exchange l near stage far) :
    (∀ p q rest, (l.serverAfter far).ended = false → Server.Call.TakesUp l.server (l.serverAfter far) p q rest →
      ∀ reason, ((l.serverAfter far).progress.receive q.kind).2 ≠ .cancel reason) ∧
    ∀ p, routedParts near ++ [p] <+: (l.serverAfter far).sent →
      ∀ reason, (l.clientAfter near).violation? l.client p = some reason →
        reason = "more than one response message for a single response call" ∧ l.shape.streamsResponses = false ∧
        2 ≤ (l.serverStart.accepted l.server far).length := by
  refine ⟨fun p q rest going takes reason => ?_, fun p next reason violation => ?_⟩
  · by_cases completed : (l.serverAfter far).progress.handler = .completed
    · simp [Server.Progress.receive, completed]
    · obtain ⟨j, next⟩ := h.next?_of_takesUp clientRequests serverRequests ⟨going, completed⟩ takes
      exact Server.receive_of_next? next reason
  · exact violation_of_brought l clientResponses serverResponses next violation

end Agreement

/-- A call for one response, of a server whose handler may write more. -/
def oneResponse : Connection Unit Bytes Bytes Unit Bytes Bytes where
  client := { config := {}, options := {}, codec := .bytes, pipeline := [] }
  shape := .unary
  request := [1]
  runtime := true
  here := ()
  server := Server.Call.plain
  there := ()
  faulty := false

/-- The client starts its call, whose request is handed over; the handler starts and writes two messages, of which the
client is handed one. -/
theorem order_of_oneResponse :
    let start : List (Client.Act Bytes Nat) := Client.Call.beginning .unary [1] [] none
    let near := start ++ [.metadata {}, .message [7] { compress := false }].map fun p => .routed (.part p)
    let request : List (Server.Act Bytes Nat) :=
      [RequestPart.metadata {}, .message [1], .close].map fun p => .submit (.part p)
    let far := request ++ [.turn 0, .deed (.write ⟨[7], .inherit⟩), .deed (.write ⟨[8], .inherit⟩), .turn 0, .turn 0]
    let second := ResponsePart.message [8] { compress := false }
    Exchange oneResponse start .started request ∧
    (∃ rest,
      Server.Call.TakesUp oneResponse.server (oneResponse.serverAfter request) (.metadata {}) (.metadata {}) rest) ∧
    (∀ reason, ((oneResponse.serverAfter request).progress.receive .metadata).2 ≠ .cancel reason) ∧
    Exchange oneResponse near .started far ∧
    routedParts near ++ [second] <+: (oneResponse.serverAfter far).sent ∧
    (oneResponse.clientAfter near).violation? oneResponse.client second =
      some "more than one response message for a single response call" ∧
    2 ≤ (oneResponse.serverStart.accepted oneResponse.server far).length := by
  intro start near request far second
  have clientRequests : oneResponse.client.pipeline.KeepsRequestKinds := fun i mem => by cases mem
  have clientResponses : oneResponse.client.pipeline.KeepsResponseKinds := fun i mem => by cases mem
  have serverRequests : oneResponse.server.pipeline.KeepsRequestKinds := fun i mem => by cases mem
  have serverResponses : oneResponse.server.pipeline.KeepsResponseKinds := fun i mem => by cases mem
  have started : Exchange oneResponse start .started ([] : List (Server.Act Bytes Nat)) := .starts oneResponse
  have carried : Exchange oneResponse start .started request :=
    started.carries [.metadata {}, .message [1], .close] ⟨[], rfl⟩
  have served : Exchange oneResponse start .started far := carried.serves rfl
  have brought : Exchange oneResponse near .started far :=
    served.brings [.metadata {}, .message [7] { compress := false }] ⟨[second], rfl⟩
  have takes : Server.Call.TakesUp oneResponse.server (oneResponse.serverAfter request) (.metadata {}) (.metadata {})
      [.part (.message [1]), .part .close] := ⟨rfl, rfl, rfl, rfl⟩
  have violation : (oneResponse.clientAfter near).violation? oneResponse.client second =
      some "more than one response message for a single response call" := rfl
  have next : routedParts near ++ [second] <+: (oneResponse.serverAfter far).sent := ⟨[], rfl⟩
  obtain ⟨receives, -⟩ :=
    order_of_keepsKinds oneResponse clientRequests clientResponses serverRequests serverResponses carried
  obtain ⟨-, brings⟩ :=
    order_of_keepsKinds oneResponse clientRequests clientResponses serverRequests serverResponses brought
  exact ⟨carried, ⟨_, takes⟩, receives _ _ _ rfl takes, brought, next, violation, (brings second next _ violation).2.2⟩

end CallLifecycle
