import CallLifecycle.Proofs.Client.Cause
import CallLifecycle.Proofs.Link.Agreement
import CallLifecycle.Proofs.Server.Verdict

/-!
# What either side of two connected calls gets

Through a transport that fails nothing, interceptors that only watch, and codecs that undo each other.

* `Codec.UndoneBy`, `Connection.IsTransparent` — what is asked of a connection;
* `read_of_handler`, `clean_of_handler` — what the handler reads are the messages that were written, the clean end
  comes behind all of them;
* `read_of_client` — the same of what the client reads;
* `status_of_client` — the status of the client is the one that the server sent, unless it ended its call itself;
* `success_of_client` — a success means that the handler returned well, and that nothing is lost;
* `delivery_of_transparent` — all of these.
-/

namespace CallLifecycle

open Client (routedParts Stage)
open Server (submittedParts)

/-! ## codecs that undo each other -/

/-- What one codec encodes, the other decodes. -/
def Codec.UndoneBy {σ τ α β γ : Type} (k : Codec σ α β) (k' : Codec τ γ α) : Prop :=
  ∀ m x data, (k.encode m x).1 = .ok data → ∀ y, (k'.decode data y).1 = .ok m

namespace Codec.UndoneBy

variable {σ τ α β γ : Type} {k : Codec σ α β} {k' : Codec τ γ α}

theorem decoded (h : k.UndoneBy k') {ms : List (Outbound α)} {ds : List Bytes} {rs : List α}
    (codes : List.Forall₂ k.Encodes ms ds) (decodes : List.Forall₂ k'.Decodes ds rs) :
    rs = ms.map Outbound.message := by
  induction codes generalizing rs with
  | nil => exact List.forall₂_nil_left_iff.mp decodes
  | @cons m data ms ds encodes _ ih =>
    obtain ⟨r, rest, ⟨y, first⟩, others, rfl⟩ := List.forall₂_cons_left_iff.mp decodes
    obtain ⟨x, encoded⟩ := encodes
    have same := h m.message x data encoded y
    rw [first] at same
    rw [List.map_cons, ← ih others, Except.ok.inj same]

theorem decoded_first (h : k.UndoneBy k') {ms : List (Outbound α)} {ds first : List Bytes} {rs : List α}
    (codes : List.Forall₂ k.Encodes ms ds) (sub : first <+: ds) (decodes : List.Forall₂ k'.Decodes first rs) :
    rs <+: ms.map Outbound.message := by
  obtain ⟨rest, rfl⟩ := sub
  have codes' := List.forall₂_take_append ms first rest codes
  rw [h.decoded codes' decodes]
  exact (List.take_prefix _ _).map _

theorem decodes (h : k.UndoneBy k') {ms : List (Outbound α)} {ds : List Bytes} {data : Bytes}
    (codes : List.Forall₂ k.Encodes ms ds) (mem : data ∈ ds) (y : τ) : ∃ m, (k'.decode data y).1 = .ok m := by
  induction codes with
  | nil => cases mem
  | @cons m data' ms ds encodes _ ih =>
    rcases List.mem_cons.mp mem with rfl | mem
    · obtain ⟨x, encoded⟩ := encodes
      exact ⟨_, h m.message x data encoded y⟩
    · exact ih mem

end Codec.UndoneBy

/-! ## connections that change nothing -/

section Fidelity

variable {σ τ Req Res W V : Type} [DecidableEq W] [DecidableEq V]

/-- A connection of two streams whose transport fails nothing, whose interceptors only watch, and whose codecs undo
each other. What a codec refuses it does not call a success; one that encodes all messages refuses none. -/
structure Connection.IsTransparent (l : Connection σ Req Res τ Res Req) : Prop where
  bidi : l.shape = .bidi
  reliable : l.faulty = false
  clientWatches : l.client.pipeline.OnlyWatches
  serverWatches : l.server.pipeline.OnlyWatches
  requests : l.client.codec.UndoneBy l.server.codec
  responses : l.server.codec.UndoneBy l.client.codec
  refuses : ∀ m x status, (l.client.codec.encode m x).1 = .error status → status.isOk = false

variable {l : Connection σ Req Res τ Res Req} {near : List (Client.Act Req W)} {stage : Stage}
  {far : List (Server.Act Res V)}

/-! ## what the handler reads -/

theorem Exchange.received_sub (h : Exchange l near stage far) (t : l.IsTransparent) :
    l.serverStart.received l.server far <+: (l.clientAfter near).sent := by
  have intake := intake_serverAfter l far
  obtain ⟨first, rest, split, passed, -⟩ := intake.passed
  rw [t.serverWatches.all_of_comes passed]
  have handed : l.serverStart.handed l.server far <+: submittedParts far :=
    (Server.Call.handed_prefix l.server l.there far).1
  have looked : first <+: l.serverStart.lookedAt l.server far := ⟨rest, split.symm⟩
  exact looked.trans (intake.sub.trans (handed.trans h.carried))

theorem requestPayloads_sub {ps qs : List RequestPart} (h : ps <+: qs) : requestPayloads ps <+: requestPayloads qs :=
  h.filterMap _

theorem payloads_sub {ps qs : List ResponsePart} (h : ps <+: qs) : payloads ps <+: payloads qs :=
  h.filterMap _

/-- **The handler reads** the first messages that the request writer accepted. -/
theorem Exchange.read_of_handler (h : Exchange l near stage far) (t : l.IsTransparent) :
    l.serverStart.read l.server far <+: (l.clientStart.accepted l.client near).map Outbound.message := by
  obtain ⟨said, done, phase, ledger⟩ := h.ledger
  obtain ⟨first, sub, decodes⟩ := Server.Call.read_sub_received l.server l.there far
  have sent := t.clientWatches.all_of_comes ledger.comes
  have received := requestPayloads_sub (h.received_sub t)
  rw [sent] at received
  exact (t.requests.decoded_first ledger.codes (sub.trans received) decodes).trans (ledger.sub.map _)

/-- **The handler reads a clean end** only behind all messages that the request writer accepted before it was
finished. -/
theorem Exchange.clean_of_handler (h : Exchange l near stage far) (t : l.IsTransparent)
    (started : (l.serverAfter far).hasStarted = true) (going : l.serverStart.reported l.server far = []) {v : V}
    (clean : ((l.serverAfter far).readRequest v).2 = .ready (.ok none)) :
    .finish ∈ near ∧
    l.serverStart.read l.server far = (l.clientStart.accepted l.client near).map Outbound.message := by
  obtain ⟨said, done, phase, ledger⟩ := h.ledger
  have intake := intake_serverAfter l far
  rw [going] at intake
  obtain ⟨close, decodes⟩ := Server.Call.whole_of_clean intake started clean
  obtain ⟨rest, whole⟩ := h.received_sub t
  obtain ⟨ps, qs, split⟩ := List.append_of_mem close
  -- Nothing is sent behind the end, so that all was received.
  have order := ledger.order
  have sent := t.clientWatches.all_of_comes ledger.comes
  rw [← sent, ← whole, split, List.append_assoc, List.cons_append, List.map_append, List.map_cons] at order
  obtain ⟨nothing, rfl⟩ := Server.InboundPhase.follow_close order
  obtain ⟨-, rfl⟩ := List.append_eq_nil_iff.mp (List.map_eq_nil_iff.mp nothing)
  rw [List.append_nil] at whole
  obtain ⟨-, rfl, finished⟩ := ledger.closed rfl
  refine ⟨(finished (by rw [t.bidi]; rfl)).1, t.requests.decoded ledger.codes ?_⟩
  rw [← sent, ← whole]
  exact decodes

/-! ## what the client reads -/

theorem isStream_clientAfter (t : l.IsTransparent) (near : List (Client.Act Req W)) :
    (l.clientAfter near).isStream = true :=
  (Client.Call.isStream_after l.client l.shape l.runtime l.here near).trans (by rw [t.bidi]; rfl)

theorem inflow_clientAfter (l : Connection σ Req Res τ Res Req) {near : List (Client.Act Req W)}
    (undecided : Client.Call.Undecided l.client l.clientStart near) :
    Client.Call.Inflow l.client (l.clientAfter near) (routedParts near) (l.clientStart.received l.client near)
      (l.clientStart.read l.client near) :=
  Client.Call.inflow_of_undecided l.client l.shape l.runtime l.here undecided

theorem codes_of_server (t : l.IsTransparent) (far : List (Server.Act Res V)) :
    ∃ done, done <+: l.serverStart.accepted l.server far ∧
      List.Forall₂ l.server.codec.Encodes done (payloads (l.serverAfter far).sent) := by
  obtain ⟨said, done, ledger⟩ := ledger_serverAfter l far
  refine ⟨done, ledger.done_prefix, ?_⟩
  rw [t.serverWatches.all_of_emerges ledger.emerged]
  exact ledger.codes

/-- What was read before the end of the client's call, and what waits to be read, are the first messages that the
response writer accepted. -/
theorem read_of_undecided (t : l.IsTransparent) {early : List (Client.Act Req W)}
    (undecided : Client.Call.Undecided l.client l.clientStart early)
    (brought : routedParts early <+: (l.serverAfter far).sent) {ch : Channel Res Status W}
    (responses : (l.clientAfter early).responses = .stream ch) :
    l.clientStart.read l.client early ++ ch.queue <+:
      (l.serverStart.accepted l.server far).map Outbound.message := by
  have inflow := inflow_clientAfter l undecided
  obtain ⟨done, sub, codes⟩ := codes_of_server t far
  obtain ⟨first, told, arrives, -⟩ := inflow.passed
  have received : payloads (l.clientStart.received l.client early) <+: payloads (l.serverAfter far).sent := by
    rw [t.clientWatches.all_of_arrives arrives]
    exact payloads_sub (told.trans brought)
  exact (t.responses.decoded_first codes received (inflow.queue ch responses)).trans (sub.map _)

theorem Exchange.brought_early (h : Exchange l near stage far) (early late : List (Client.Act Req W))
    (split : near = early ++ late) : routedParts early <+: (l.serverAfter far).sent := by
  have brought := h.brought
  rw [split, Client.routedParts_append] at brought
  exact (List.prefix_append _ _).trans brought

theorem queue_outcome_sub {ρ Out In U : Type} (c : Client.Call ρ Out In U) (e : Client.Ending)
    {ch : Channel In Status U} (responses : c.responses = .stream ch) : (e.outcome c).queue <+: ch.queue := by
  unfold Client.Ending.outcome
  simp only [responses]
  split
  · exact List.nil_prefix
  · exact List.prefix_rfl

/-- The client's call ends at a step, in a way. -/
structure Ended (l : Connection σ Req Res τ Res Req) (early : List (Client.Act Req W)) (a : Client.Act Req W)
    (e : Client.Ending) : Prop where
  undecided : Client.Call.Undecided l.client l.clientStart early
  ends : (l.clientAfter early).ending? l.client a = some e

theorem undecided_or_ended (l : Connection σ Req Res τ Res Req) (near : List (Client.Act Req W)) :
    Client.Call.Undecided l.client l.clientStart near ∨
    ∃ early a late e, near = early ++ a :: late ∧ Ended l early a e := by
  rcases Client.Call.undecided_or_ends l.client l.clientStart near with
    undecided | ⟨early, a, late, e, split, undecided, ends⟩
  · exact .inl undecided
  · exact .inr ⟨early, a, late, e, split, undecided, ends⟩

section Ended

variable {early : List (Client.Act Req W)} {a : Client.Act Req W} {e : Client.Ending}

theorem Ended.over (h : Ended l early a e) (t : l.IsTransparent) (late : List (Client.Act Req W)) :
    (l.clientAfter (early ++ a :: late)).Over ((e.outcome (l.clientAfter early)).behindAll late) :=
  (Client.Call.read_of_ended l.shape l.runtime l.here (by rw [t.bidi]; rfl) h.undecided h.ends late).1

theorem Ended.read (h : Ended l early a e) (t : l.IsTransparent) (late : List (Client.Act Req W)) :
    l.clientStart.read l.client (early ++ a :: late) ++ ((e.outcome (l.clientAfter early)).behindAll late).queue =
      l.clientStart.read l.client early ++ (e.outcome (l.clientAfter early)).queue :=
  (Client.Call.read_of_ended l.shape l.runtime l.here (by rw [t.bidi]; rfl) h.undecided h.ends late).2

end Ended

theorem exists_stream (t : l.IsTransparent) (near : List (Client.Act Req W)) :
    ∃ ch, (l.clientAfter near).responses = .stream ch :=
  Client.Call.exists_stream (isStream_clientAfter t near)

/-- **The client reads** the first messages that the response writer accepted. -/
theorem Exchange.read_of_client (h : Exchange l near stage far) (t : l.IsTransparent) :
    l.clientStart.read l.client near <+: (l.serverStart.accepted l.server far).map Outbound.message := by
  rcases undecided_or_ended l near with undecided | ⟨early, a, late, e, rfl, ended⟩
  · obtain ⟨ch, responses⟩ := exists_stream t near
    exact (List.prefix_append _ _).trans (read_of_undecided t undecided h.brought responses)
  · obtain ⟨ch, responses⟩ := exists_stream t early
    have before := read_of_undecided t ended.undecided (h.brought_early early _ rfl) responses
    refine List.IsPrefix.trans ?_ before
    refine List.IsPrefix.trans ?_ ((List.prefix_append_right_inj _).mpr (queue_outcome_sub _ e responses))
    rw [← ended.read t late]
    exact List.prefix_append _ _

/-! ## the status of the client -/

/-- Where the transport fails nothing, a client is handed parts, and does all else by itself. -/
theorem Exchange.isLocal_or_part (h : Exchange l near stage far) (t : l.IsTransparent) {a : Client.Act Req W}
    (mem : a ∈ near) : a.isLocal = true ∨ ∃ p, a = .routed (.part p) := by
  induction h with
  | nil => cases mem
  | @client near stage next far b _ _ free ih =>
    rcases List.mem_append.mp mem with mem | mem
    · exact ih mem
    · obtain rfl := List.mem_singleton.mp mem
      rw [t.reliable] at free
      refine .inl ?_
      cases a with
      | routed r => cases r <;> first | rfl | cases free
      | refused => cases free
      | _ => rfl
  | server _ _ ih => exact ih mem
  | carry _ _ ih => exact ih mem
  | bring _ _ ih =>
    rcases List.mem_append.mp mem with mem | mem
    · exact ih mem
    · exact .inr ⟨_, List.mem_singleton.mp mem⟩

section Ended

variable {early late : List (Client.Act Req W)} {a : Client.Act Req W} {e : Client.Ending}

theorem Ended.going (h : Ended l early a e) : (l.clientAfter early).Going :=
  Client.Call.going_of_ending? (inflow_clientAfter l h.undecided).live h.ends

/-- **A call that ends** is closed by the end that the server sent, or is ended by the client itself, for a failure. -/
theorem Exchange.ended_cases (h : Exchange l (early ++ a :: late) stage far) (t : l.IsTransparent)
    (ended : Ended l early a e) :
    (∃ status trailers, a = .routed (.part (.close status trailers)) ∧ e = .closed status trailers) ∨
    a.isLocal = true ∧ ∃ status, e = .terminated status ∧ status.isOk = false := by
  have going := ended.going
  have brings := (Client.Call.ending?_eq_some_iff going a e).mp ended.ends
  rcases h.isLocal_or_part t (a := a) (by simp) with isLocal | ⟨p, rfl⟩
  · refine .inr ⟨isLocal, ?_⟩
    obtain ⟨status, same, failure | ⟨p, x, rejection⟩ | ⟨m, x, refused⟩⟩ := brings.terminated_of_isLocal isLocal
    · exact ⟨status, same, failure⟩
    · simp [(t.clientWatches.request p x).1] at rejection
    · exact ⟨status, same, t.refuses m x status refused⟩
  · refine .inl ?_
    have next : routedParts early ++ [p] <+: (l.serverAfter far).sent := by
      have brought := h.brought_early (early ++ [.routed (.part p)]) late (by simp)
      rwa [Client.routedParts_append] at brought
    cases brings with
    | closed _ status trailers admitted =>
      obtain rfl := t.clientWatches.eq_of_arrives (Client.Call.arrives_of_admitted? admitted)
      exact ⟨status, trailers, rfl, rfl⟩
    | rejected _ r rejection => simp [(t.clientWatches.response p _).1] at rejection
    | violated _ reason violation =>
      obtain ⟨-, single, -⟩ := violation_of_brought l t.clientWatches.keepsResponseKinds
        t.serverWatches.keepsResponseKinds next violation
      rw [t.bidi] at single
      cases single
    | undecodable _ data o status admitted known fails =>
      obtain rfl := t.clientWatches.eq_of_arrives (Client.Call.arrives_of_admitted? admitted)
      obtain ⟨done, -, codes⟩ := codes_of_server t far
      have mem : data ∈ payloads (l.serverAfter far).sent :=
        (payloads_sub next).subset (by simp [payloads, ResponsePart.payload?])
      obtain ⟨m, decoded⟩ := t.responses.decodes codes mem ((l.clientAfter early).beyond l.client (.message data o))
      rw [decoded] at fails
      cases fails
    | unsent _ r fails => cases fails

theorem status_of_ended (h : Ended l early a e) (t : l.IsTransparent) {w : W} {status : Status}
    (known : ((l.clientAfter (early ++ a :: late)).pollStatus w).2 = .ready status) : status = e.status := by
  have yields := (h.over t late).yields.status w
  rw [(Client.Call.behindAll_fixed _ late).1, known] at yields
  injection yields

end Ended

/-- Before its end the status of a call is not known. -/
theorem ended_of_known (l : Connection σ Req Res τ Res Req) {near : List (Client.Act Req W)} {w : W} {status : Status}
    (known : ((l.clientAfter near).pollStatus w).2 = .ready status) :
    ∃ early a late e, near = early ++ a :: late ∧ Ended l early a e := by
  obtain ⟨early, a, late, e, split, undecided, ends, -⟩ :=
    (Client.Call.pollStatus_eq_ready_iff l.client l.shape l.runtime l.here near w status).mp known
  exact ⟨early, a, late, e, split, undecided, ends⟩

/-- **The status of the client** is the one that the server sent, unless the client ended its call itself. -/
theorem Exchange.status_of_client (h : Exchange l near stage far) (t : l.IsTransparent) {w : W} {status : Status}
    (known : ((l.clientAfter near).pollStatus w).2 = .ready status) :
    (∃ trailers, .close status trailers ∈ routedParts near ∧
      ∃ ps, (l.serverAfter far).sent = ps ++ [.close status trailers]) ∨
    ∃ early a late, near = early ++ a :: late ∧ a.isLocal = true ∧ Ended l early a (.terminated status) := by
  obtain ⟨early, a, late, e, rfl, ended⟩ := ended_of_known l known
  obtain rfl := status_of_ended ended t known
  rcases h.ended_cases t ended with ⟨status, trailers, rfl, rfl⟩ | ⟨isLocal, status, rfl, -⟩
  · have mem : .close status trailers ∈ routedParts (early ++ .routed (.part (.close status trailers)) :: late) := by
      simp [routedParts]
    obtain ⟨said, done, ledger⟩ := ledger_serverAfter l far
    exact .inl ⟨trailers, mem, (ledger.close_last t.serverWatches.keepsResponseKinds (h.brought.subset mem)).1⟩
  · exact .inr ⟨early, a, late, rfl, isLocal, ended⟩

/-- A call that is closed by a success has read, or holds in its queue, all messages that the response writer
accepted, and the handler returned well. -/
theorem Exchange.whole_of_closed {early late : List (Client.Act Req W)} {status : Status} {trailers : Metadata}
    (h : Exchange l (early ++ .routed (.part (.close status trailers)) :: late) stage far) (t : l.IsTransparent)
    (ended : Ended l early (.routed (.part (.close status trailers))) (.closed status trailers))
    (ok : status.isOk = true) :
    none ∈ l.serverStart.reported l.server far ∧
    l.clientStart.read l.client early ++ ((Client.Ending.closed status trailers).outcome (l.clientAfter early)).queue =
      (l.serverStart.accepted l.server far).map Outbound.message := by
  obtain ⟨rest, split⟩ : routedParts early ++ [.close status trailers] <+: (l.serverAfter far).sent := by
    have brought := h.brought_early (early ++ [.routed (.part (.close status trailers))]) late (by simp)
    rwa [Client.routedParts_append] at brought
  have mem : .close status trailers ∈ (l.serverAfter far).sent := by simp [← split]
  obtain ⟨reported, ps, whole, codes⟩ : none ∈ l.serverStart.reported l.server far ∧
      ∃ ps, (l.serverAfter far).sent = ps ++ [ResponsePart.close status trailers] ∧
        List.Forall₂ l.server.codec.Encodes (l.serverStart.accepted l.server far) (payloads ps) :=
    Server.Call.success_of_sent t.serverWatches l.there mem ok
  refine ⟨reported, ?_⟩
  -- The end was handed over behind all that the server sent.
  obtain ⟨said, done, ledger⟩ := ledger_serverAfter l far
  rw [List.append_assoc, List.singleton_append] at split
  obtain ⟨rfl, -⟩ := ledger.nothing_behind t.serverWatches.keepsResponseKinds split.symm
  obtain rfl := List.append_cancel_right (split.trans whole)
  have inflow := inflow_clientAfter l ended.undecided
  obtain ⟨first, -, arrives, all⟩ := inflow.passed
  obtain rfl := all ended.going.1
  obtain ⟨ch, responses⟩ := exists_stream t early
  have queue : ((Client.Ending.closed status trailers).outcome (l.clientAfter early)).queue = ch.queue := by
    simp [Client.Ending.outcome, responses, Client.Ending.isLocal]
  have decodes := inflow.queue ch responses
  rw [t.clientWatches.all_of_arrives arrives] at decodes
  rw [queue]
  exact t.responses.decoded codes decodes

/-- **A success** means that the handler returned well. All messages that its response writer accepted are read, or
can still be read, and behind them the clean end. -/
theorem Exchange.success_of_client (h : Exchange l near stage far) (t : l.IsTransparent) {w : W} {status : Status}
    (known : ((l.clientAfter near).pollStatus w).2 = .ready status) (ok : status.isOk = true) :
    none ∈ l.serverStart.reported l.server far ∧
    ∃ rest, (l.serverStart.accepted l.server far).map Outbound.message = l.clientStart.read l.client near ++ rest ∧
      ∀ ws : List W, ws.length = rest.length →
        l.clientStart.read l.client (near ++ ws.map .read) =
          (l.serverStart.accepted l.server far).map Outbound.message ∧
        ∀ w, ((l.clientAfter (near ++ ws.map .read)).readResponse w).2 = .ready (.ok none) := by
  obtain ⟨early, a, late, e, rfl, ended⟩ := ended_of_known l known
  obtain rfl := status_of_ended ended t known
  rcases h.ended_cases t ended with ⟨status, trailers, rfl, rfl⟩ | ⟨-, status, rfl, failure⟩
  · obtain ⟨reported, whole⟩ := h.whole_of_closed t ended ok
    refine ⟨reported, _, (whole.symm.trans (ended.read t late).symm), fun ws length => ?_⟩
    have more := ended.read t (late ++ ws.map .read)
    have isOver := ended.over t (late ++ ws.map .read)
    -- As many reads as messages are left empty the queue.
    have nothing : (((Client.Ending.closed status trailers).outcome (l.clientAfter early)).behindAll
        (late ++ ws.map .read)).queue = [] := by
      rw [Client.Outcome.behindAll, run_append]
      exact (Client.Call.queue_behindAll_read _ ws).trans (List.drop_eq_nil_of_le length.ge)
    rw [nothing, List.append_nil, whole] at more
    rw [List.append_assoc, List.cons_append]
    refine ⟨more, fun w => ?_⟩
    obtain ⟨ch, responses⟩ :=
      exists_stream t (early ++ .routed (.part (.close status trailers)) :: (late ++ ws.map .read))
    have yields := isOver.yields.stream ch responses w
    have terminal : (Client.Ending.closed status trailers).terminal = .finished := if_pos ok
    rw [nothing, (Client.Call.behindAll_fixed _ _).2, Client.Ending.outcome, terminal] at yields
    exact yields
  · simp [Client.Ending.status, failure] at ok

/-- **What either side gets.** The handler reads the first messages that the request writer accepted, and a clean end
only behind all of them, once the writer was finished. The client reads the first messages that the response writer
accepted. Its status is the one that the server sent, unless it ended its call itself. A success means that the handler
returned well, and that all messages which its writer accepted are read or can still be read. -/
theorem delivery_of_transparent (l : Connection σ Req Res τ Res Req) (t : l.IsTransparent)
    (h : Exchange l near stage far) :
    l.serverStart.read l.server far <+: (l.clientStart.accepted l.client near).map Outbound.message ∧
    ((l.serverAfter far).hasStarted = true → l.serverStart.reported l.server far = [] →
      ∀ v, ((l.serverAfter far).readRequest v).2 = .ready (.ok none) →
        .finish ∈ near ∧
        l.serverStart.read l.server far = (l.clientStart.accepted l.client near).map Outbound.message) ∧
    l.clientStart.read l.client near <+: (l.serverStart.accepted l.server far).map Outbound.message ∧
    ∀ w status, ((l.clientAfter near).pollStatus w).2 = .ready status →
      ((∃ trailers, .close status trailers ∈ routedParts near ∧
          ∃ ps, (l.serverAfter far).sent = ps ++ [.close status trailers]) ∨
        ∃ early a late, near = early ++ a :: late ∧ a.isLocal = true ∧ Ended l early a (.terminated status)) ∧
      (status.isOk = true →
        none ∈ l.serverStart.reported l.server far ∧
        ∃ rest, (l.serverStart.accepted l.server far).map Outbound.message = l.clientStart.read l.client near ++ rest ∧
          ∀ ws : List W, ws.length = rest.length →
            l.clientStart.read l.client (near ++ ws.map .read) =
              (l.serverStart.accepted l.server far).map Outbound.message ∧
            ∀ w, ((l.clientAfter (near ++ ws.map .read)).readResponse w).2 = .ready (.ok none)) :=
  ⟨h.read_of_handler t, fun started going _ clean => h.clean_of_handler t started going clean, h.read_of_client t,
    fun _ _ known => ⟨h.status_of_client t known, h.success_of_client t known⟩⟩

end Fidelity

/-- Two streams of bytes that are connected. -/
def twoStreams : Connection Unit Bytes Bytes Unit Bytes Bytes where
  client := { config := {}, options := {}, codec := .bytes, pipeline := [] }
  shape := .bidi
  request := []
  runtime := true
  here := ()
  server := Server.Call.plain
  there := ()
  faulty := false

/-- The client writes a message and finishes its requests. The handler reads it and a clean end, writes another and
returns, and the client learns of the success before it has read. -/
theorem delivery_of_twoStreams :
    let start : List (Client.Act Bytes Nat) := Client.Call.beginning .bidi [] [] none
    let near := start ++ [.write ⟨[1], .inherit⟩, .finish]
    let request : List (Server.Act Bytes Nat) :=
      [RequestPart.metadata {}, .message [1], .close].map fun p => .submit (.part p)
    let far := request ++ [.turn 0, .turn 0, .turn 0, .deed (.read 0)]
    let far' := far ++ [.deed (.write ⟨[7], .inherit⟩), .turn 0, .deed (.returned none), .turn 0, .turn 0]
    let near' := near ++ [.metadata {}, .message [7] { compress := false }, .close (Status.of .ok "") {}].map
      fun p => .routed (.part p)
    Exchange twoStreams near .started far ∧
    ((twoStreams.serverAfter far).readRequest 0).2 = .ready (.ok none) ∧
    .finish ∈ near ∧ twoStreams.serverStart.read twoStreams.server far = [[1]] ∧
    Exchange twoStreams near' .started far' ∧
    ((twoStreams.clientAfter near').pollStatus 0).2 = .ready (Status.of .ok "") ∧
    none ∈ twoStreams.serverStart.reported twoStreams.server far' ∧
    twoStreams.clientStart.read twoStreams.client (near' ++ [.read 0]) = [[7]] := by
  intro start near request far far' near'
  have undone : (Codec.bytes (σ := Unit)).UndoneBy (Codec.bytes (σ := Unit)) := by
    intro m x data encoded y
    obtain rfl : m = data := Except.ok.inj encoded
    rfl
  have clientWatches : twoStreams.client.pipeline.OnlyWatches := fun i mem => by cases mem
  have serverWatches : twoStreams.server.pipeline.OnlyWatches := fun i mem => by cases mem
  have transparent : twoStreams.IsTransparent :=
    ⟨rfl, rfl, clientWatches, serverWatches, undone, undone, fun m x status refused => by cases refused⟩
  have started : Exchange twoStreams start .started ([] : List (Server.Act Bytes Nat)) := .starts twoStreams
  have wrote : Exchange twoStreams near .started ([] : List (Server.Act Bytes Nat)) := started.uses rfl
  have carried : Exchange twoStreams near .started request :=
    wrote.carries [.metadata {}, .message [1], .close] ⟨[], rfl⟩
  have read : Exchange twoStreams near .started far := carried.serves rfl
  have served : Exchange twoStreams near .started far' := read.serves rfl
  have brought : Exchange twoStreams near' .started far' :=
    served.brings [.metadata {}, .message [7] { compress := false }, .close (Status.of .ok "") {}] ⟨[], rfl⟩
  have clean : ((twoStreams.serverAfter far).readRequest 0).2 = .ready (.ok none) := rfl
  have known : ((twoStreams.clientAfter near').pollStatus 0).2 = .ready (Status.of .ok "") := rfl
  obtain ⟨-, whole, -⟩ := delivery_of_transparent twoStreams transparent read
  obtain ⟨-, -, -, ends⟩ := delivery_of_transparent twoStreams transparent brought
  obtain ⟨finished, all⟩ := whole rfl rfl 0 clean
  obtain ⟨-, success⟩ := ends 0 _ known
  obtain ⟨reported, rest, sum, reads⟩ := success rfl
  have left : rest = [[7]] := sum.symm
  obtain ⟨gets, -⟩ := reads [0] (by rw [left]; rfl)
  exact ⟨read, clean, finished, all, brought, known, reported, gets⟩

end CallLifecycle
