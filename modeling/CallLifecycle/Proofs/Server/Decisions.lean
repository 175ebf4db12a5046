import CallLifecycle.Proofs.Client.Words
import CallLifecycle.Proofs.Runs
import CallLifecycle.Proofs.Server.Words

/-!
# What the progress of a call decides

The progress of a call may be asked anything in any order, also what no driver would ask.

* `Query`, `Answer`, `ask`, `record` — what is asked and answered, and the record of a row of queries;
* `requests`, `responses` — the kinds of the parts that were forwarded in either direction;
* `receive_forwards`, `send_forwards`, … — what a decision says of the progress, and what it changes;
* `follow_responses`, `Account` — the progress stands as its record tells;
* `ask_of_completed`, `responses_of_completed` — what is left to decide of a call that is completed;
* `Answers`, `decisions_of_queries` — **what is decided in any row of queries**: in each direction the parts of one
  word are forwarded, and the handler starts once.
-/

namespace CallLifecycle.Server.Progress

/-- What the progress of a call is asked. -/
inductive Query where
  | receive (k : PartKind)
  | send (k : PartKind)
  | start
  | cancel
  deriving DecidableEq

inductive Answer where
  | decided (d : Decision)
  | started (b : Bool)
  | givenUp (a : Aftermath)
  deriving DecidableEq

/-- The progress behind a query, and the answer. -/
def ask (p : Progress) : Query → Progress × Answer
  | .receive k => ((p.receive k).1, .decided (p.receive k).2)
  | .send k => ((p.send k).1, .decided (p.send k).2)
  | .start => (p.start.1, .started p.start.2)
  | .cancel => (p.cancel.1, .givenUp p.cancel.2)

def step (p : Progress) (q : Query) : Progress := (p.ask q).1

def record (p : Progress) (qs : List Query) : List (Query × Answer) := gather step (fun p q => [(q, (p.ask q).2)]) p qs

theorem record_cons (p : Progress) (q : Query) (qs : List Query) :
    p.record (q :: qs) = (q, (p.ask q).2) :: (p.ask q).1.record qs := rfl

def request? : Query × Answer → Option PartKind
  | (.receive k, .decided .forward) => some k
  | _ => none

def response? : Query × Answer → Option PartKind
  | (.send k, .decided .forward) => some k
  | _ => none

theorem request?_eq_some {q : Query} {r : Answer} {k : PartKind} (h : request? (q, r) = some k) :
    q = .receive k ∧ r = .decided .forward := by
  unfold request? at h
  split at h
  · rename_i same
    obtain ⟨rfl, rfl⟩ := Prod.mk.inj same
    exact ⟨congrArg _ (Option.some.inj h), rfl⟩
  · cases h

theorem response?_eq_some {q : Query} {r : Answer} {k : PartKind} (h : response? (q, r) = some k) :
    q = .send k ∧ r = .decided .forward := by
  unfold response? at h
  split at h
  · rename_i same
    obtain ⟨rfl, rfl⟩ := Prod.mk.inj same
    exact ⟨congrArg _ (Option.some.inj h), rfl⟩
  · cases h

def requests (log : List (Query × Answer)) : List PartKind := log.filterMap request?

theorem requests_concat (log : List (Query × Answer)) (entry : Query × Answer) :
    requests (log ++ [entry]) = requests log ++ (request? entry).toList := by
  rw [requests, List.filterMap_append, ← requests]
  cases h : request? entry <;> simp [h]

def responses (log : List (Query × Answer)) : List PartKind := log.filterMap response?

/-! ## what a decision says and changes -/

section Decisions

variable {p : Progress} {k : PartKind}

theorem receive_forwards (h : (p.receive k).2 = .forward) :
    p.handler ≠ .completed ∧ (k ≠ .metadata → p.handler = .active) ∧
      p.inbound.next? k = some (p.receive k).1.inbound := by
  rcases p with ⟨handler, inbound, outbound⟩
  cases handler <;> cases inbound <;> cases k <;> simp_all [receive, whileActive, InboundPhase.next?]

theorem receive_holds (h : (p.receive k).2 ≠ .forward) :
    (p.receive k).1 = p ∨ p.inbound = .receiving ∧ (p.receive k).1 = { p with inbound := .closed } := by
  rcases p with ⟨handler, inbound, outbound⟩
  cases handler <;> cases inbound <;> cases k <;> simp_all [receive, whileActive]

theorem receive_breaks {reason : String} (h : (p.receive k).2 = .cancel reason) : (p.receive k).1 = p := by
  rcases p with ⟨handler, inbound, outbound⟩
  cases handler <;> cases inbound <;> cases k <;> simp_all [receive, whileActive]

theorem receive_keeps (p : Progress) (k : PartKind) :
    (p.receive k).1.handler = p.handler ∧ (p.receive k).1.outbound = p.outbound := by
  rcases p with ⟨handler, inbound, outbound⟩
  cases handler <;> cases inbound <;> cases k <;> exact ⟨rfl, rfl⟩

theorem send_forwards (h : (p.send k).2 = .forward) :
    (k ≠ .close → p.handler = .active) ∧ p.outbound.next? k = some (p.send k).1.outbound := by
  rcases p with ⟨handler, inbound, outbound⟩
  cases handler <;> cases outbound <;> cases k <;> simp_all [send, whileActive, OutboundPhase.next?]

theorem send_holds (h : (p.send k).2 ≠ .forward) : (p.send k).1 = p := by
  rcases p with ⟨handler, inbound, outbound⟩
  cases handler <;> cases outbound <;> cases k <;> simp_all [send, whileActive]

theorem send_keeps (p : Progress) (k : PartKind) :
    (p.send k).1.inbound = p.inbound ∧ ((p.send k).1.handler = p.handler ∨ (p.send k).1.handler = .completed) := by
  rcases p with ⟨handler, inbound, outbound⟩
  cases handler <;> cases outbound <;> cases k <;> simp [send, whileActive]

theorem start_starts (h : p.start.2 = true) :
    p.handler = .idle ∧ p.inbound ≠ .awaitingMetadata ∧ p.start.1 = { p with handler := .active } := by
  unfold start at h ⊢
  split at h
  · rename_i ready
    rw [if_pos ready]
    simpa using ready
  · cases h

theorem start_holds (h : p.start.2 = false) : p.start.1 = p := by
  unfold start at h ⊢
  split at h
  · cases h
  · rename_i unready
    rw [if_neg unready]

end Decisions

/-! ## the progress stands as its record tells -/

theorem follow_responses (p : Progress) (qs : List Query) :
    p.outbound.follow (responses (p.record qs)) = some (run step p qs).outbound := by
  induction qs generalizing p with
  | nil => rfl
  | cons q qs ih =>
    have behind := ih (p.ask q).1
    -- A query that forwards no response part leaves the phase of the response as it is.
    have still (none : response? (q, (p.ask q).2) = none) (same : (p.ask q).1.outbound = p.outbound) :
        p.outbound.follow (responses (p.record (q :: qs))) = some (run step (p.ask q).1 qs).outbound := by
      rw [← behind, record_cons, responses, List.filterMap_cons_none none, same]
      rfl
    cases q with
    | receive k => exact still rfl (receive_keeps p k).2
    | send k =>
      by_cases forward : (p.send k).2 = .forward
      · have said : response? (.send k, (p.ask (.send k)).2) = some k := by simp [response?, ask, forward]
        rw [record_cons, responses, List.filterMap_cons_some said, OutboundPhase.follow, (send_forwards forward).2]
        exact behind
      · refine still ?_ (by simp [ask, send_holds forward])
        simp only [response?, ask]
        split
        · simp_all
        · rfl
    | start =>
      refine still rfl ?_
      simp only [ask, start]
      split <;> rfl
    | cancel => exact still rfl rfl

/-- What a record tells of the requests and the handler. A request may be closed before its handler runs; its end is not
forwarded then. -/
structure Account (log : List (Query × Answer)) (p : Progress) : Prop where
  requests : ∃ i, InboundPhase.awaitingMetadata.follow (requests log) = some i ∧
    (p.handler ≠ .completed → i = p.inbound ∨ i = .receiving ∧ p.inbound = .closed)
  starts : log.count (.start, .started true) ≤ if p.handler = .idle then 0 else 1

section Account

variable {log : List (Query × Answer)} {p p' : Progress} {q : Query} {r : Answer}

theorem Account.still (h : Account log p) (nothing : request? (q, r) = none) (other : (q, r) ≠ (.start, .started true))
    (inbound : p'.handler ≠ .completed → p'.inbound = p.inbound)
    (handler : p'.handler = p.handler ∨ p'.handler = .completed) : Account (log ++ [(q, r)]) p' := by
  obtain ⟨i, follows, stands⟩ := h.requests
  refine ⟨⟨i, ?_, fun going => ?_⟩, ?_⟩
  · rwa [requests_concat, nothing, Option.toList_none, List.append_nil]
  · rw [inbound going]
    exact stands fun completed => going (handler.elim (fun same => same.trans completed) id)
  · have starts := h.starts
    rw [List.count_append, List.count_singleton, if_neg (by simpa using other)]
    rcases handler with same | completed
    · rwa [same]
    · rw [completed]
      split at starts
      · exact starts.trans (by decide)
      · exact starts

theorem Account.receive (h : Account log p) (k : PartKind) :
    Account (log ++ [(.receive k, .decided (p.receive k).2)]) (p.receive k).1 := by
  obtain ⟨handler, -⟩ := receive_keeps p k
  by_cases forward : (p.receive k).2 = .forward
  · obtain ⟨going, -, next⟩ := receive_forwards forward
    obtain ⟨i, follows, stands⟩ := h.requests
    have came : request? (.receive k, .decided (p.receive k).2) = some k := by rw [forward]; rfl
    -- What may come next is told by the phase of the call, and then also by the parts that were forwarded.
    obtain rfl : i = p.inbound := by
      refine (stands going).resolve_right fun closed => ?_
      rw [closed.2] at next
      cases k <;> cases next
    refine ⟨⟨(p.receive k).1.inbound, ?_, fun _ => .inl rfl⟩, ?_⟩
    · rw [requests_concat, came, InboundPhase.follow_append, follows]
      simp [InboundPhase.follow, next]
    · rw [List.count_append, List.count_singleton, if_neg (by simp), handler]
      exact h.starts
  · have nothing : request? (.receive k, .decided (p.receive k).2) = none := by
      cases decision : (p.receive k).2 <;> simp_all [request?]
    rcases receive_holds forward with same | ⟨receiving, closed⟩
    · exact h.still nothing (by simp) (fun _ => by rw [same]) (.inl handler)
    · obtain ⟨i, follows, stands⟩ := h.requests
      have kept : Account (log ++ [(.receive k, .decided (p.receive k).2)]) p :=
        h.still nothing (by simp) (fun _ => rfl) (.inl rfl)
      obtain ⟨j, follows', stands'⟩ := kept.requests
      refine ⟨⟨j, follows', fun going => .inr ?_⟩, by simpa only [handler] using kept.starts⟩
      rw [closed]
      have := stands' (handler ▸ going)
      simp_all

theorem Account.ask (h : Account log p) (q : Query) : Account (log ++ [(q, (p.ask q).2)]) (p.ask q).1 := by
  cases q with
  | receive k => exact h.receive k
  | send k =>
    obtain ⟨inbound, handler⟩ := send_keeps p k
    exact h.still rfl (by simp) (fun _ => inbound) handler
  | cancel => exact h.still rfl (by simp) (fun going => absurd rfl going) (.inr rfl)
  | start =>
    change Account (log ++ [(.start, .started p.start.2)]) p.start.1
    cases starts : p.start.2 with
    | false =>
      rw [start_holds starts]
      exact h.still rfl (by simp) (fun _ => rfl) (.inl rfl)
    | true =>
      obtain ⟨idle, -, active⟩ := start_starts starts
      obtain ⟨i, follows, stands⟩ := h.requests
      -- A handler that starts was idle, so none was started before.
      have none := h.starts
      rw [if_pos idle] at none
      rw [active]
      refine ⟨⟨i, ?_, fun _ => stands (by simp [idle])⟩, ?_⟩
      · rw [requests_concat]
        simpa [request?] using follows
      · rw [List.count_append, List.count_singleton, if_pos (beq_self_eq_true _), if_neg HandlerPhase.noConfusion]
        exact Nat.add_le_add_right none 1

theorem account_after (qs : List Query) : Account (record {} qs) (run step {} qs) := by
  induction qs using List.reverseRecOn with
  | nil => exact ⟨⟨_, rfl, fun _ => .inl rfl⟩, Nat.le_refl 0⟩
  | append_singleton qs q ih =>
    rw [record, gather_snoc, ← record, run_snoc]
    exact ih.ask q

end Account

/-! ## calls that are completed -/

/-- A call that is completed stays so; it drops every request part, and forwards no response part but the end. -/
theorem ask_of_completed {p : Progress} (completed : p.handler = .completed) (q : Query) :
    (p.ask q).1.handler = .completed ∧ (∀ k, q = .receive k → (p.ask q).2 = .decided .drop) ∧
      ∀ k, response? (q, (p.ask q).2) = some k → k = .close := by
  rcases p with ⟨handler, inbound, outbound⟩
  obtain rfl : handler = .completed := completed
  cases q with
  | receive k => simp [ask, receive, response?]
  | send k => cases outbound <;> cases k <;> simp [ask, send, whileActive, response?]
  | start => simp [ask, start, response?]
  | cancel => simp [ask, cancel, response?]

theorem handler_of_completed {p : Progress} (completed : p.handler = .completed) (qs : List Query) :
    (run step p qs).handler = .completed := by
  induction qs generalizing p with
  | nil => exact completed
  | cons q qs ih => exact ih (ask_of_completed completed q).1

theorem responses_of_completed {p : Progress} (completed : p.handler = .completed) (qs : List Query) :
    responses (p.record qs) = [] ∨ responses (p.record qs) = [.close] := by
  have ends : ∀ k ∈ responses (p.record qs), k = .close := by
    induction qs generalizing p with
    | nil => simp [record, gather, responses]
    | cons q qs ih =>
      obtain ⟨stays, -, only⟩ := ask_of_completed completed q
      intro k mem
      rw [record_cons, responses, List.mem_filterMap] at mem
      obtain ⟨entry, among, same⟩ := mem
      rcases List.mem_cons.mp among with rfl | later
      · exact only k same
      · exact ih stays k (List.mem_filterMap.mpr ⟨entry, later, same⟩)
  have follows := follow_responses p qs
  cases said : responses (p.record qs) with
  | nil => exact .inl rfl
  | cons k ks =>
    rw [said] at ends follows
    obtain rfl := ends k List.mem_cons_self
    have behind : p.outbound.follow ([] ++ .close :: ks) = some (run step p qs).outbound := follows
    obtain ⟨rfl, -⟩ := OutboundPhase.follow_close behind
    exact .inr rfl

theorem outbound_eq_ended_iff (qs : List Query) :
    (run step {} qs).outbound = .ended ↔ .close ∈ responses (record {} qs) := by
  rcases OutboundPhase.follow_cases (follow_responses {} qs) with ⟨phase, word⟩ | ⟨phase, n, word⟩ | ⟨phase, word⟩
  · simp [phase, word]
  · simp [phase, word]
  · refine iff_of_true phase (List.count_pos_iff.mp ?_)
    rw [word.count_close]
    exact Nat.one_pos

/-! ## what is decided in any row of queries -/

/-- What holds of a query and those behind it, if others came before. -/
structure Answers (early : List Query) (q : Query) (late : List Query) : Prop where
  /-- The handler starts only behind the metadata of the request. -/
  behind : (ask (run step {} early) q).2 = .started true → .metadata ∈ requests (record {} early)
  /-- Request messages and their end are forwarded only while the handler runs. -/
  receives : ∀ k, request? (q, (ask (run step {} early) q).2) = some k → k ≠ .metadata →
    (run step {} early).handler = .active
  /-- Response headers and messages are forwarded only while the handler runs. -/
  sends : ∀ k, response? (q, (ask (run step {} early) q).2) = some k → k ≠ .close →
    (run step {} early).handler = .active
  /-- A part that breaks the protocol changes nothing. -/
  breaks : ∀ reason, (ask (run step {} early) q).2 = .decided (.cancel reason) →
    (ask (run step {} early) q).1 = run step {} early
  /-- Of a call that is given up the end is asked for just if it was not forwarded before. -/
  lacks : ∀ a, (ask (run step {} early) q).2 = .givenUp a →
    (a.sendEnd = true ↔ .close ∉ responses (record {} early))
  /-- A call that is completed stays so, drops every request part, and forwards no more than one end. -/
  stays : (run step {} early).handler = .completed →
    (run step {} (early ++ q :: late)).handler = .completed ∧
    (∀ k, q = .receive k → (ask (run step {} early) q).2 = .decided .drop) ∧
    (responses (record (run step {} early) (q :: late)) = [] ∨
      responses (record (run step {} early) (q :: late)) = [.close] ∧ .close ∉ responses (record {} early))

theorem answers (early : List Query) (q : Query) (late : List Query) : Answers early q late := by
  have account := account_after early
  refine ⟨fun started => ?_, fun k forwarded other => ?_, fun k forwarded other => ?_, fun reason breaks => ?_,
    fun a lost => ?_, fun completed => ⟨?_, (ask_of_completed completed q).2.1, ?_⟩⟩
  · obtain rfl : q = .start := by cases q <;> simp_all [ask]
    obtain ⟨idle, inbound, -⟩ := start_starts (p := run step {} early) (by simpa [ask] using started)
    obtain ⟨i, follows, stands⟩ := account.requests
    rcases Client.Call.follow_cases follows with ⟨-, rfl⟩ | ⟨n, ⟨word, -⟩ | ⟨word, -⟩⟩
    · rcases stands (by simp [idle]) with same | ⟨same, -⟩
      · exact absurd same.symm inbound
      · cases same
    · simp [word]
    · simp [word]
  · obtain ⟨rfl, forward⟩ := request?_eq_some forwarded
    exact (receive_forwards (Answer.decided.inj forward)).2.1 other
  · obtain ⟨rfl, forward⟩ := response?_eq_some forwarded
    exact (send_forwards (Answer.decided.inj forward)).1 other
  · cases q with
    | receive k => exact receive_breaks (by simpa [ask] using breaks)
    | send k => exact send_holds (by simp_all [ask])
    | start => cases breaks
    | cancel => cases breaks
  · obtain rfl : q = .cancel := by cases q <;> simp_all [ask]
    simp only [ask, cancel, Answer.givenUp.injEq] at lost
    rw [← lost, ← outbound_eq_ended_iff]
    simp
  · rw [run_append]
    exact handler_of_completed completed _
  · refine (responses_of_completed completed (q :: late)).imp id fun said => ⟨said, fun before => ?_⟩
    have follows := follow_responses (run step {} early) (q :: late)
    rw [said, (outbound_eq_ended_iff early).mpr before] at follows
    cases follows

/-- **What is decided in any row of queries.** The request parts that are forwarded are the beginning of one request,
the response parts that are forwarded are the beginning of one response, and the handler starts at most once; and each
answer is one that the queries before allow. -/
theorem decisions_of_queries (qs : List Query) :
    Client.Call.IsRequest (requests (record {} qs)) ∧
    (∃ whole, IsResponse whole ∧ responses (record {} qs) <+: whole) ∧
    (record {} qs).count (.start, .started true) ≤ 1 ∧
    ∀ early q late, qs = early ++ q :: late → Answers early q late := by
  have account := account_after qs
  obtain ⟨i, follows, -⟩ := account.requests
  refine ⟨Client.Call.isRequest_of_follow follows, ?_, ?_, fun early q late _ => answers early q late⟩
  · rcases OutboundPhase.follow_cases (follow_responses {} qs) with ⟨-, word⟩ | ⟨-, n, word⟩ | ⟨-, word⟩
    · exact ⟨_, .alone, word ▸ List.nil_prefix⟩
    · exact ⟨_, .streamed n, word ▸ ⟨[.close], rfl⟩⟩
    · exact ⟨_, word, List.prefix_rfl⟩
  · have starts := account.starts
    split at starts
    · omega
    · exact starts

end CallLifecycle.Server.Progress
