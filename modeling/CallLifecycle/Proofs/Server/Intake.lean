import CallLifecycle.Proofs.Server.Advance
import CallLifecycle.Proofs.Server.Ledger
import CallLifecycle.Proofs.Stream.Reading

/-!
# The intake of a server call

What the transport hands in and what the handler reads are kept beside the state of a call, step by step.

* `handed`, `lookedAt`, `received` — the request parts that are handed in, that the loop looks at, and that come out
  of the interceptors;
* `read`, `reported` — the messages that the handler reads, and how it says that it ended;
* `Fetched` — what a step but a turn does to the request stream;
* `Intake`, `intake_after` — **in every run** what the handler has read, and behind it what waits in its request
  stream, are the first of the messages that were received; unless the stream was cut off they are all of them.
-/

namespace CallLifecycle

def RequestPart.payload? : RequestPart → Option Bytes
  | .message data => some data
  | _ => none

def requestPayloads (ps : List RequestPart) : List Bytes := ps.filterMap RequestPart.payload?

@[simp] theorem requestPayloads_nil : requestPayloads [] = [] := rfl

@[simp] theorem requestPayloads_append (ps qs : List RequestPart) :
    requestPayloads (ps ++ qs) = requestPayloads ps ++ requestPayloads qs := by
  simp [requestPayloads]

@[simp] theorem requestPayloads_message (data : Bytes) : requestPayloads [.message data] = [data] := rfl

@[simp] theorem requestPayloads_metadata (m : Metadata) : requestPayloads [.metadata m] = [] := rfl

@[simp] theorem requestPayloads_close : requestPayloads [.close] = [] := rfl

/-- Some bytes are decoded as a message, as the codec may remember one thing or the other. -/
def Codec.Decodes {σ Out In : Type} (k : Codec σ Out In) (data : Bytes) (m : In) : Prop :=
  ∃ x, (k.decode data x).1 = .ok m

namespace Server

/-! ## the order of the parts -/

namespace InboundPhase

/-- How far the requests are behind one more part, if it may come. -/
def next? : InboundPhase → PartKind → Option InboundPhase
  | .awaitingMetadata, .metadata => some .receiving
  | .receiving, .message => some .receiving
  | .receiving, .close => some .closed
  | _, _ => none

/-- How far the requests are behind some more parts, if they may come. -/
def follow : InboundPhase → List PartKind → Option InboundPhase
  | i, [] => some i
  | i, k :: ks => (i.next? k).bind fun i => follow i ks

theorem follow_append (i : InboundPhase) (ks ls : List PartKind) :
    i.follow (ks ++ ls) = (i.follow ks).bind fun i => i.follow ls := by
  induction ks generalizing i with
  | nil => rfl
  | cons k ks ih => cases h : i.next? k <;> simp [follow, h, ih]

end InboundPhase

def Deed.report? {Out W : Type} : Deed Out W → Option (Option Failure)
  | .returned outcome => some outcome
  | .lost => some (some Call.endedWithoutReturning)
  | _ => none

def partsOf (is : List Inbound) : List RequestPart :=
  is.filterMap fun
    | .part p => some p
    | _ => none

@[simp] theorem partsOf_append (is js : List Inbound) : partsOf (is ++ js) = partsOf is ++ partsOf js := by
  simp [partsOf]

@[simp] theorem partsOf_cons_part (p : RequestPart) (is : List Inbound) :
    partsOf (.part p :: is) = p :: partsOf is := rfl

namespace Call

variable {σ Out In W : Type} {s : Setup σ Out In} {c c' : Call σ Out In W}

def hands (c : Call σ Out In W) : Act Out W → List RequestPart
  | .submit i => if c.ended || !c.handles then [] else partsOf [i]
  | _ => []

/-- The request part that the next turn looks at. -/
def upcoming (c : Call σ Out In W) : List RequestPart :=
  if c.ended || c.progress.isCompleted then []
  else
    match c.events, c.commands, c.inbox with
    | [], [], i :: _ => partsOf [i]
    | _, _, _ => []

def looks (c : Call σ Out In W) : Act Out W → List RequestPart
  | .turn _ => c.upcoming
  | _ => []

/-- The request part that comes out of the interceptors at a step. -/
def receives (s : Setup σ Out In) (c : Call σ Out In W) (a : Act Out W) : List RequestPart :=
  (c.looks a).filterMap (c.admitted? s)

section Reads

variable [DecidableEq W]

def gets (c : Call σ Out In W) : Act Out W → List In
  | .deed (.read w) =>
    match c.hasStarted, (c.readRequest w).2 with
    | true, .ready (.ok (some m)) => [m]
    | _, _ => []
  | _ => []

omit [DecidableEq W] in
def reports (c : Call σ Out In W) : Act Out W → List (Option Failure)
  | .deed d => if c.hasStarted then d.report?.toList else []
  | _ => []

def handed (s : Setup σ Out In) (c : Call σ Out In W) (acts : List (Act Out W)) : List RequestPart :=
  gather (step s) hands c acts

def lookedAt (s : Setup σ Out In) (c : Call σ Out In W) (acts : List (Act Out W)) : List RequestPart :=
  gather (step s) looks c acts

def received (s : Setup σ Out In) (c : Call σ Out In W) (acts : List (Act Out W)) : List RequestPart :=
  gather (step s) (receives s) c acts

def read (s : Setup σ Out In) (c : Call σ Out In W) (acts : List (Act Out W)) : List In := gather (step s) gets c acts

def reported (s : Setup σ Out In) (c : Call σ Out In W) (acts : List (Act Out W)) : List (Option Failure) :=
  gather (step s) reports c acts

end Reads

/-! ## steps that take up no request part -/

/-- What a step does to the request stream that takes up no request part: `got` is taken from its queue, and only the
end of the handler closes it. -/
structure Fetched (c c' : Call σ Out In W) (more : List RequestPart) (got : List In)
    (ends : List (Option Failure)) : Prop where
  inbound : c'.progress.inbound = c.progress.inbound
  handler : c'.progress.handler = c.progress.handler ∨ c'.progress.handler = .completed
  hasStarted : c'.hasStarted = c.hasStarted
  engaged : c.progress.handler ≠ .completed → c'.engaged = c.engaged
  ended : c'.ended = false → c.ended = false
  inbox : c'.ended = false → partsOf c'.inbox = partsOf c.inbox ++ more
  queue : c.requests.queue = got ++ c'.requests.queue
  terminal : c'.requests.terminal = c.requests.terminal ∨ ends ≠ []
  open' : c'.requests.terminal = .live → ends = [] ∧ c.requests.terminal = .live
  started : ends ≠ [] → c.hasStarted = true
  raised : c'.cancellation.raised = c.cancellation.raised ∨
    c.progress.handler = .completed ∧ c'.cancellation.raised = true

theorem fetched_of_kept {more : List RequestPart} (inbound : c'.progress.inbound = c.progress.inbound)
    (handler : c'.progress.handler = c.progress.handler ∨ c'.progress.handler = .completed)
    (hasStarted : c'.hasStarted = c.hasStarted) (engaged : c'.engaged = c.engaged) (ended : c'.ended = c.ended)
    (inbox : partsOf c'.inbox = partsOf c.inbox ++ more) (requests : c'.requests = c.requests)
    (raised : c'.cancellation.raised = c.cancellation.raised) : Fetched c c' more [] [] :=
  ⟨inbound, handler, hasStarted, fun _ => engaged, fun h => ended ▸ h, fun _ => inbox, by simp [requests],
    .inl (by rw [requests]), fun h => ⟨rfl, requests ▸ h⟩, by simp, .inl raised⟩

theorem fetched_of_same {more : List RequestPart} (progress : c'.progress = c.progress)
    (hasStarted : c'.hasStarted = c.hasStarted) (engaged : c'.engaged = c.engaged) (ended : c'.ended = c.ended)
    (inbox : partsOf c'.inbox = partsOf c.inbox ++ more) (requests : c'.requests = c.requests)
    (raised : c'.cancellation.raised = c.cancellation.raised) : Fetched c c' more [] [] :=
  fetched_of_kept (by rw [progress]) (.inl (by rw [progress])) hasStarted engaged ended inbox requests raised

/-- What the handler does, as far as it does not read or end. -/
theorem Worked.fetched {added : List (Outbound Out)} (h : Worked c c' added) (inbox : c'.inbox = c.inbox)
    (requests : c'.requests = c.requests) (raised : c'.cancellation.raised = c.cancellation.raised) :
    Fetched c c' [] [] [] :=
  fetched_of_same h.frame.progress h.frame.hasStarted_eq h.engaged h.ended (by simp [inbox]) requests raised

/-- The end of the handler closes the request stream. -/
theorem Worked.fetched_end {added : List (Outbound Out)} (h : Worked c c' added) (started : c.hasStarted = true)
    (inbox : c'.inbox = c.inbox) (requests : c'.requests = (c.requests.terminate .finished).1)
    (raised : c'.cancellation.raised = c.cancellation.raised) (outcome : Option Failure) :
    Fetched c c' [] [] [outcome] :=
  ⟨by rw [h.frame.progress], .inl (by rw [h.frame.progress]), h.frame.hasStarted_eq, fun _ => h.engaged,
    fun e => h.ended ▸ e, fun _ => by simp [inbox], by simp [requests], .inr (by simp),
    fun live => absurd (requests ▸ live) (Channel.terminal_terminate_ne (by simp)), fun _ => started, .inl raised⟩

section Steps

variable [DecidableEq W]

theorem fetched_read (started : c.hasStarted = true) (w : W) :
    Fetched c (c.readRequest w).1 [] (c.gets (.deed (.read w))) [] := by
  have reading := reading c.cancellation c.requests w
  unfold gets readRequest
  simp only [started]
  generalize readMessage c.cancellation c.requests w = r at reading ⊢
  rcases r with ⟨t, ch, r⟩
  refine ⟨rfl, .inl rfl, rfl, fun _ => rfl, id, fun _ => by simp, ?_, ?_, ?_, by simp, ?_⟩ <;>
    cases reading <;> simp_all

theorem fetched_perform (sound : c.writer.Sound) (started : c.hasStarted = true) (d : Deed Out W) :
    Fetched c (c.perform d) [] (c.gets (.deed d)) (c.reports (.deed d)) := by
  have worked := worked_perform sound d
  have ends : c.reports (.deed d) = d.report?.toList := by simp [reports, started]
  rw [ends]
  cases d with
  | read w => exact fetched_read started w
  | returned outcome =>
    refine worked.fetched_end started ?_ ?_ ?_ outcome <;>
      simp only [perform, returned, report, finishResponses, closeRequests_eq, tell_eq, withWriter_eq]
  | lost =>
    refine worked.fetched_end started ?_ ?_ ?_ _ <;>
      simp only [perform, lost, report, finishResponses, closeRequests_eq, tell_eq, withWriter_eq]
  | write m => refine worked.fetched ?_ ?_ ?_ <;> simp only [perform, write, withWriter_eq]
  | finish => refine worked.fetched ?_ ?_ ?_ <;> simp only [perform, finishResponses, withWriter_eq]
  | set setting => refine worked.fetched ?_ ?_ ?_ <;> simp only [perform, issue] <;> split <;> rfl
  | abort reason => refine worked.fetched ?_ ?_ ?_ <;> simp only [perform, abort] <;> split <;> rfl
  | awaitReply id w =>
    refine worked.fetched ?_ ?_ ?_ <;> simp only [perform, pollReply] <;> split <;> try split
    all_goals rfl
  | awaitCancelled w =>
    refine worked.fetched rfl rfl ?_
    simp only [perform, pollCancelled, Token.poll]
    split <;> rfl
  | awaitWrite w => exact worked.fetched rfl rfl rfl
  | awaitDrained w => exact worked.fetched rfl rfl rfl

theorem fetched_step (s : Setup σ Out In) (sound : c.writer.Sound) {a : Act Out W} (other : ∀ now, a ≠ .turn now) :
    Fetched c (c.step s a) (c.hands a) (c.gets a) (c.reports a) := by
  cases a with
  | submit i =>
    simp only [step, submit, hands]
    split
    · exact fetched_of_same rfl rfl rfl rfl (by simp) rfl rfl
    · refine fetched_of_same rfl ?_ rfl rfl (by simp [emit]) rfl rfl
      simp [emit, hasStarted, Effect.isStart]
  | hangUp =>
    simp only [step, hangUp]
    split
    · split
      · exact fetched_of_same rfl rfl rfl rfl (by simp [hands]) rfl rfl
      · refine fetched_of_same rfl ?_ rfl rfl (by simp [emit, hands]) rfl rfl
        simp [emit, hasStarted, Effect.isStart]
    · exact fetched_of_same rfl rfl rfl rfl (by simp [hands]) rfl rfl
  | awaitEnd w =>
    simp only [step, pollCompleted]
    split <;> exact fetched_of_same rfl rfl rfl rfl (by simp [hands]) rfl rfl
  | deed d =>
    by_cases started : c.hasStarted = true
    · simpa [step, started, hands] using fetched_perform sound started d
    · have nothing : c.gets (.deed d) = [] := by
        cases d <;> simp [gets, started]
      simp only [step, started, nothing, hands, reports]
      exact fetched_of_same rfl rfl rfl rfl (by simp) rfl rfl
  | turn now => exact absurd rfl (other now)
  | conclude =>
    rcases concluded_conclude c with same | ⟨frame, completed, before, ended, -⟩
    · simp only [step, same]
      exact fetched_of_same rfl rfl rfl rfl (by simp [hands]) rfl rfl
    · have isOver : c.progress.handler = .completed := by simpa [Progress.isCompleted] using completed
      have requests : c.conclude.requests = c.requests := by
        simp only [conclude]
        split
        · rfl
        · simp only [emit]
          split <;> rfl
      refine ⟨by rw [step, frame.progress], .inl (by rw [step, frame.progress]), frame.hasStarted_eq,
        fun h => absurd isOver h, fun h => ?_, fun h => ?_, by simp [step, requests, gets], .inl ?_, fun h => ?_,
        by simp [reports], ?_⟩
      · simp [step, ended] at h
      · simp [step, ended] at h
      · simp [step, requests]
      · simpa [step, requests, reports] using h
      · simp only [step, conclude]
        split
        · exact .inl rfl
        · simp only [emit]
          split
          · refine .inr ⟨isOver, ?_⟩
            simp only [raiseCancellation_eq, Token.raise]
            split <;> simp_all
          · exact .inl rfl

end Steps

/-! ## turns -/

theorem upcoming_of_events {e : HandlerEvent Out} {rest : List (HandlerEvent Out)} (next : c.events = e :: rest) :
    c.upcoming = [] := by
  simp [upcoming, next]

theorem upcoming_of_commands {o : Command} {rest : List Command} (orders : c.commands = o :: rest) :
    c.upcoming = [] := by
  simp [upcoming, orders]

theorem upcoming_of_inbox {i : Inbound} {rest : List Inbound} (live : Live c) (idle : c.events = [])
    (orders : c.commands = []) (inbox : c.inbox = i :: rest) : c.upcoming = partsOf [i] := by
  rw [upcoming, if_neg live.going]
  simp [idle, orders, inbox]

theorem upcoming_of_turn {now : Instant} (turn : c.turn s now = none) : c.upcoming = [] := by
  unfold Call.turn at turn
  unfold upcoming
  split at turn
  · rename_i isOver
    rw [if_pos isOver]
  · rename_i going
    rw [if_neg going]
    split at turn <;> simp_all

theorem upcoming_prefix (c : Call σ Out In W) : c.upcoming <+: partsOf c.inbox := by
  unfold upcoming
  split
  · exact List.nil_prefix
  · split
    · rename_i i rest _ _ inbox
      exact ⟨partsOf rest, by rw [inbox, ← partsOf_append]; rfl⟩
    · exact List.nil_prefix

theorem upcoming_cases (c : Call σ Out In W) : c.upcoming = [] ∨ ∃ p, c.upcoming = [p] := by
  unfold upcoming
  split
  · exact .inl rfl
  · split
    · rename_i i rest _ _ _
      cases i <;> simp [partsOf]
    · exact .inl rfl

theorem TakesUp.comes {p q : RequestPart} {rest : List Inbound} (h : TakesUp s c p q rest) :
    Comes s.pipeline p q := ⟨_, h.passed⟩

theorem TakesUp.upcoming {p q : RequestPart} {rest : List Inbound} (h : TakesUp s c p q rest) (live : Live c) :
    c.upcoming = [p] :=
  upcoming_of_inbox live h.idle h.orders h.inbox

theorem TakesUp.receives {p q : RequestPart} {rest : List Inbound} (h : TakesUp s c p q rest) (live : Live c)
    (now : Instant) : c.receives s (.turn now : Act Out W) = [q] := by
  simp [Call.receives, looks, h.upcoming live, h.admitted]

/-! ## the intake -/

/-- A call that is neither completed nor cut off. -/
def Running (c : Call σ Out In W) : Prop := c.ended = false ∧ c.progress.handler ≠ .completed

theorem Ledger.live_of_running {taken done : List (Outbound Out)} {said : List ResponsePart}
    (h : Ledger s c taken said done) (going : Running c) : Live c := by
  cases h.standing with
  | live live => exact live
  | closed _ handler => exact absurd handler going.2
  | cut _ ended => simp [going.1] at ended

/-- The intake of a call: of the parts that were `handed` in, the loop has `looked` at some, of which the `received`
came out of the interceptors; the handler has `got` some messages and said how it ended. -/
structure Intake (s : Setup σ Out In) (c : Call σ Out In W) (handed looked received : List RequestPart)
    (got : List In) (ends : List (Option Failure)) : Prop where
  sub : looked <+: handed
  waiting : Running c → handed = looked ++ partsOf c.inbox
  passed : ∃ first rest, looked = first ++ rest ∧ List.Forall₂ (Comes s.pipeline) first received ∧
    (Running c → rest = [])
  order : Running c →
    InboundPhase.awaitingMetadata.follow (received.map RequestPart.kind) = some c.progress.inbound
  engaged : c.progress.handler = .active → c.engaged = true
  uncut : Running c → c.cancellation.raised = false
  open' : c.requests.terminal = .live → ends = []
  fresh : Running c → c.progress.handler = .idle →
    c.hasStarted = false ∧ received = [] ∧ got = [] ∧ c.requests.queue = [] ∧ c.requests.terminal = .live
  decoded : ∃ first, first <+: requestPayloads received ∧
    List.Forall₂ s.codec.Decodes first (got ++ c.requests.queue)
  whole : c.hasStarted = true → ends = [] → c.cancellation.raised = false →
    List.Forall₂ s.codec.Decodes (requestPayloads received) (got ++ c.requests.queue) ∧
    (c.requests.terminal = .live ∨
      c.requests.terminal = .finished ∧ c.progress.inbound = .closed ∧ .close ∈ received)

theorem intake_new (s : Setup σ Out In) (x : σ) : Intake s (new s x : Call σ Out In W) [] [] [] [] [] := by
  refine ⟨List.prefix_rfl, fun _ => rfl, ⟨[], [], rfl, .nil, fun _ => rfl⟩, fun _ => rfl, by simp [new],
    fun _ => rfl, fun _ => rfl, fun _ _ => ⟨rfl, rfl, rfl, rfl, rfl⟩, ⟨[], List.prefix_rfl, .nil⟩,
    by simp [new, hasStarted]⟩

section Step

variable {handed looked received more : List RequestPart} {got got' : List In} {ends ends' : List (Option Failure)}

theorem Intake.fetched (h : Intake s c handed looked received got ends) (fetched : Fetched c c' more got' ends') :
    Intake s c' (handed ++ more) looked received (got ++ got') (ends ++ ends') := by
  have running (k : Running c') : Running c := by
    refine ⟨fetched.ended k.1, fun completed => k.2 ?_⟩
    rcases fetched.handler with same | same
    · exact same.trans completed
    · exact same
  have handler (k : Running c') : c'.progress.handler = c.progress.handler :=
    fetched.handler.resolve_right k.2
  -- A read only moves the border between what was read and what still waits.
  have queue : got ++ got' ++ c'.requests.queue = got ++ c.requests.queue := by
    rw [fetched.queue, List.append_assoc]
  obtain ⟨first, rest, split, passed, none⟩ := h.passed
  refine ⟨h.sub.trans (List.prefix_append _ _), fun k => ?_,
    ⟨first, rest, split, passed, fun k => none (running k)⟩, fun k => ?_, fun active => ?_, fun k => ?_,
    fun live => ?_, fun k idle => ?_, ?_, fun started isOver raised => ?_⟩
  · rw [fetched.inbox k.1, ← List.append_assoc, ← h.waiting (running k)]
  · rw [fetched.inbound]
    exact h.order (running k)
  · have before : c.progress.handler = .active := by
      rcases fetched.handler with same | same <;> simp_all
    rw [fetched.engaged (by simp [before]), h.engaged before]
  · rw [fetched.raised.resolve_right fun past => (running k).2 past.1]
    exact h.uncut (running k)
  · obtain ⟨nothing, before⟩ := fetched.open' live
    simp [nothing, h.open' before]
  · rw [handler k] at idle
    obtain ⟨unstarted, nothing, unread, empty, live⟩ := h.fresh (running k) idle
    have taken := fetched.queue
    rw [empty] at taken
    obtain ⟨rfl, empty'⟩ := List.append_eq_nil_iff.mp taken.symm
    refine ⟨fetched.hasStarted.trans unstarted, nothing, by simp [unread], empty', ?_⟩
    rw [fetched.terminal.resolve_right fun ended => by simp [fetched.started ended] at unstarted, live]
  · rw [queue]
    exact h.decoded
  · obtain ⟨going, nothing⟩ := List.append_eq_nil_iff.mp isOver
    have uncut := fetched.raised.resolve_right fun past => by simp [raised] at past
    rw [queue, fetched.terminal.resolve_right (by simp [nothing]), fetched.inbound]
    exact h.whole (fetched.hasStarted ▸ started) going (uncut ▸ raised)

theorem Intake.sub_turn (h : Intake s c handed looked received got ends) (running : Running c) :
    looked ++ c.upcoming <+: handed := by
  rw [h.waiting running]
  exact (List.prefix_append_right_inj looked).mpr c.upcoming_prefix

/-- What the loop looks at comes out of the interceptors, or is rejected as the last part. -/
theorem Intake.passed_turn (h : Intake s c handed looked received got ends) (running : Running c) (now : Instant) :
    ∃ first rest, looked ++ c.upcoming = first ++ rest ∧
      List.Forall₂ (Comes s.pipeline) first (received ++ c.receives s (.turn now : Act Out W)) ∧
      ((∀ p ∈ c.upcoming, c.admitted? s p ≠ none) → rest = []) := by
  obtain ⟨first, rest, split, passed, none⟩ := h.passed
  -- A part that was rejected would have ended the call: all that was looked at so far came out.
  obtain rfl := none running
  rw [List.append_nil] at split
  subst split
  rcases c.upcoming_cases with nothing | ⟨p, next⟩
  · exact ⟨looked, [], by simp [nothing], by simpa [receives, looks, nothing] using passed, fun _ => rfl⟩
  · cases admitted : c.admitted? s p with
    | none =>
      refine ⟨looked, [p], by rw [next], by simpa [receives, looks, next, admitted] using passed, fun all => ?_⟩
      exact absurd admitted (all p (by simp [next]))
    | some q =>
      have comes : Comes s.pipeline p q := by
        unfold admitted? at admitted
        split at admitted
        · cases admitted
        · rename_i passed
          exact ⟨_, passed, Option.some.inj admitted⟩
      refine ⟨looked ++ [p], [], by rw [next, List.append_nil], ?_, fun _ => rfl⟩
      simpa [receives, looks, next, admitted] using List.rel_append passed (.cons comes .nil)

theorem Intake.givenUp (h : Intake s c handed looked received got ends) (live : Live c) (now : Instant)
    {d : Call σ Out In W} {e : Failure} (tried : Tried c d) (givenUp : GivenUp s e d c') :
    Intake s c' handed (looked ++ c.upcoming) (received ++ c.receives s (.turn now : Act Out W)) got ends := by
  have running : Running c := ⟨live.ended, live.handler⟩
  obtain ⟨first, rest, split, passed, -⟩ := h.passed_turn running now
  have completed : c'.progress.handler = .completed := by rw [givenUp.same]
  -- Most of an intake speaks of calls that go on, and this one does not.
  have stopped (k : Running c') : False := k.2 completed
  have requests : c'.requests =
      if c.engaged then (c.requests.terminate (.failed callWasCancelled)).1 else c.requests := by
    rw [givenUp.same, tried.same]
  have queue : c'.requests.queue = c.requests.queue := by
    rw [requests]
    split
    · exact Channel.queue_terminate _ _
    · rfl
  refine ⟨h.sub_turn running, fun k => (stopped k).elim, ⟨first, rest, split, passed, fun k => (stopped k).elim⟩,
    fun k => (stopped k).elim, fun active => by simp [completed] at active, fun k => (stopped k).elim, fun open' => ?_,
    fun k => (stopped k).elim, ?_, fun started _ raised => ?_⟩
  · rw [requests] at open'
    split at open'
    · exact absurd open' (Channel.terminal_terminate_ne (by simp))
    · exact h.open' open'
  · obtain ⟨some, sub, decodes⟩ := h.decoded
    rw [queue, requestPayloads_append]
    exact ⟨some, sub.trans (List.prefix_append _ _), decodes⟩
  · have active := live.started.mp (by rwa [givenUp.hasStarted, tried.hasStarted] at started)
    have engaged := h.engaged active
    have cut : c'.cancellation = c.cancellation.raise.1 := by
      rw [givenUp.same, tried.same]
      simp [engaged]
    rw [cut] at raised
    simp [Token.raise, h.uncut running] at raised

theorem Intake.still (h : Intake s c handed looked received got ends) (now : Instant) (nothing : c.upcoming = [])
    (fetched : Fetched c c' [] [] []) :
    Intake s c' handed (looked ++ c.upcoming) (received ++ c.receives s (.turn now : Act Out W)) got ends := by
  simpa [receives, looks, nothing] using h.fetched fetched

/-- What a turn takes up comes out of the interceptors, and the rest still waits. -/
theorem Intake.taken (h : Intake s c handed looked received got ends) (live : Live c) (now : Instant)
    {p q : RequestPart} {rest : List Inbound} (takes : TakesUp s c p q rest) :
    handed = looked ++ c.upcoming ++ partsOf rest ∧
    List.Forall₂ (Comes s.pipeline) (looked ++ c.upcoming) (received ++ c.receives s (.turn now : Act Out W)) := by
  have running : Running c := ⟨live.ended, live.handler⟩
  obtain ⟨first, tail, split, passed, none⟩ := h.passed_turn running now
  obtain rfl := none (by simp [takes.upcoming live, takes.admitted])
  refine ⟨?_, by simpa [split] using passed⟩
  rw [h.waiting running, takes.inbox, takes.upcoming live]
  simp

theorem Intake.took (h : Intake s c handed looked received got ends) (live : Live c) (now : Instant)
    {p q : RequestPart} {rest : List Inbound} (takes : TakesUp s c p q rest)
    (receiving : c.progress.inbound = .receiving)
    (same : c' = { c with inbox := rest, progress := { c.progress with inbound := c'.progress.inbound },
                          requests := c'.requests, surroundings := c'.surroundings, trace := c'.trace })
    (hasStarted : c'.hasStarted = c.hasStarted)
    (next : InboundPhase.receiving.next? q.kind = some c'.progress.inbound)
    (open' : c'.requests.terminal = .live → ends = [])
    (decoded : ∃ first, first <+: requestPayloads (received ++ [q]) ∧
      List.Forall₂ s.codec.Decodes first (got ++ c'.requests.queue))
    (whole : c.requests.terminal = .live →
      List.Forall₂ s.codec.Decodes (requestPayloads received) (got ++ c.requests.queue) →
      List.Forall₂ s.codec.Decodes (requestPayloads (received ++ [q])) (got ++ c'.requests.queue) ∧
        (c'.requests.terminal = .live ∨
          c'.requests.terminal = .finished ∧ c'.progress.inbound = .closed ∧ .close ∈ received ++ [q])) :
    Intake s c' handed (looked ++ c.upcoming) (received ++ c.receives s (.turn now : Act Out W)) got ends := by
  have running : Running c := ⟨live.ended, live.handler⟩
  have active := live.active_of_inbound (by simp [receiving])
  have handler : c'.progress.handler = .active := by rw [same]; exact active
  have inbox : c'.inbox = rest := by rw [same]
  obtain ⟨sum, comes⟩ := h.taken live now takes
  rw [takes.receives live] at comes ⊢
  refine ⟨h.sub_turn running, fun _ => inbox ▸ sum, ⟨_, [], (List.append_nil _).symm, comes, fun _ => rfl⟩,
    fun _ => ?_, fun _ => ?_, fun _ => ?_, open', fun _ idle => ?_, decoded, fun started unended _ => ?_⟩
  · rw [List.map_append, InboundPhase.follow_append, h.order running, receiving]
    simpa [InboundPhase.follow] using next
  · rw [same]
    exact h.engaged active
  · rw [same]
    exact h.uncut running
  · exact absurd (handler.symm.trans idle) (by simp)
  · obtain ⟨all, before | ⟨-, closed, -⟩⟩ := h.whole (hasStarted ▸ started) unended (h.uncut running)
    · exact whole before all
    · simp [receiving] at closed

/-- Nothing was read yet when the handler starts. -/
theorem Intake.launched (h : Intake s c handed looked received got ends) (live : Live c) (now : Instant)
    {p : RequestPart} {m : Metadata} {rest : List Inbound} (takes : TakesUp s c p (.metadata m) rest)
    (idle : c.progress.handler = .idle) (inbox : c'.inbox = rest) (requests : c'.requests = c.requests)
    (progress : c'.progress = { c.progress with handler := .active, inbound := .receiving })
    (engaged : c'.engaged = true) (cancellation : c'.cancellation = c.cancellation) :
    Intake s c' handed (looked ++ c.upcoming) (received ++ c.receives s (.turn now : Act Out W)) got ends := by
  have running : Running c := ⟨live.ended, live.handler⟩
  obtain ⟨sum, comes⟩ := h.taken live now takes
  obtain ⟨-, rfl, rfl, empty, open'⟩ := h.fresh running idle
  refine ⟨h.sub_turn running, fun _ => inbox ▸ sum, ⟨_, [], (List.append_nil _).symm, comes, fun _ => rfl⟩,
    fun _ => ?_, fun _ => engaged, fun _ => by rw [cancellation, h.uncut running], fun live => h.open' (requests ▸ live),
    fun _ active => by simp [progress] at active, ⟨[], List.nil_prefix, ?_⟩,
    fun _ _ _ => ⟨?_, .inl (by rw [requests, open'])⟩⟩
  · simp [takes.receives live, progress, InboundPhase.follow, RequestPart.kind, InboundPhase.next?]
  · simp [requests, empty]
  · simp [takes.receives live, requests, empty]

theorem Intake.crashed (h : Intake s c handed looked received got ends) (live : Live c) (now : Instant)
    {p q : RequestPart} {rest : List Inbound} (takes : TakesUp s c p q rest) (crashes : Crashes c c')
    (requests : c'.requests = c.requests) :
    Intake s c' handed (looked ++ c.upcoming) (received ++ c.receives s (.turn now : Act Out W)) got ends := by
  have running : Running c := ⟨live.ended, live.handler⟩
  obtain ⟨sum, comes⟩ := h.taken live now takes
  obtain ⟨unstarted, rfl, rfl, empty, open'⟩ := h.fresh running crashes.idle
  have stopped (k : Running c') : False := by
    have ended := crashes.ended
    simp [k.1] at ended
  refine ⟨h.sub_turn running, fun k => (stopped k).elim, ⟨_, [], (List.append_nil _).symm, comes, fun _ => rfl⟩,
    fun k => (stopped k).elim, fun active => by simp [crashes.handler] at active, fun k => (stopped k).elim,
    fun open' => h.open' (requests ▸ open'), fun k => (stopped k).elim, ⟨[], List.nil_prefix, ?_⟩,
    fun started => ?_⟩
  · simp [requests, empty]
  · simp [crashes.hasStarted, unstarted] at started

theorem Intake.delivered (h : Intake s c handed looked received got ends) (live : Live c) (now : Instant)
    {p : RequestPart} {data : Bytes} {m : In} {rest : List Inbound} {x : σ} {es : List (Effect W)}
    (takes : TakesUp s c p (.message data) rest) (receiving : c.progress.inbound = .receiving)
    (decoded : s.codec.decode data (c.beyond s p) = (.ok m, x)) (silent : Silent es)
    (same : c' = { c with inbox := rest, surroundings := x,
                          requests := if c.engaged then (c.requests.push m).1 else c.requests,
                          trace := c.trace ++ es }) :
    Intake s c' handed (looked ++ c.upcoming) (received ++ c.receives s (.turn now : Act Out W)) got ends := by
  have running : Running c := ⟨live.ended, live.handler⟩
  have active := live.active_of_inbound (by simp [receiving])
  have requests : c'.requests = (c.requests.push m).1 := by rw [same]; simp [h.engaged active]
  have inbound : c'.progress.inbound = .receiving := by rw [same]; exact receiving
  have parts : requestPayloads (received ++ [.message data]) = requestPayloads received ++ [data] := by simp
  -- Behind a live channel nothing is missing; behind another one the message is dropped.
  have more (open' : c.requests.terminal = .live)
      (all : List.Forall₂ s.codec.Decodes (requestPayloads received) (got ++ c.requests.queue)) :
      List.Forall₂ s.codec.Decodes (requestPayloads received ++ [data]) (got ++ c'.requests.queue) := by
    rw [requests, (Channel.push_of_live open' m).1, ← List.append_assoc]
    exact List.rel_append all (.cons ⟨_, by rw [decoded]⟩ .nil)
  refine h.took live now takes receiving (by rw [same]) ?_ (by rw [inbound]; rfl) (fun open' => ?_) ?_
    fun open' all => ⟨parts ▸ more open' all, .inl ?_⟩
  · rw [same]
    simp [hasStarted, silent.any_eq]
  · by_cases open'' : c.requests.terminal = .live
    · exact h.open' open''
    · rw [requests, Channel.push_of_not_live open''] at open'
      exact h.open' open'
  · rw [parts]
    by_cases open' : c.requests.terminal = .live
    · obtain ⟨all, -⟩ := h.whole (live.started.mpr active) (h.open' open') (h.uncut running)
      exact ⟨_, List.prefix_rfl, more open' all⟩
    · rw [requests, Channel.push_of_not_live open']
      obtain ⟨first, sub, decodes⟩ := h.decoded
      exact ⟨first, sub.trans (List.prefix_append _ _), decodes⟩
  · rw [requests]
    exact (Channel.push_of_live open' m).2

theorem Intake.closes (h : Intake s c handed looked received got ends) (live : Live c) (now : Instant)
    {p : RequestPart} {rest : List Inbound} {es : List (Effect W)} (takes : TakesUp s c p .close rest)
    (receiving : c.progress.inbound = .receiving) (silent : Silent es)
    (same : c' = { c with inbox := rest, surroundings := c.beyond s p,
                          progress := { c.progress with inbound := .closed },
                          requests := if c.engaged then (c.requests.terminate .finished).1 else c.requests,
                          trace := c.trace ++ es }) :
    Intake s c' handed (looked ++ c.upcoming) (received ++ c.receives s (.turn now : Act Out W)) got ends := by
  have active := live.active_of_inbound (by simp [receiving])
  have requests : c'.requests = (c.requests.terminate .finished).1 := by rw [same]; simp [h.engaged active]
  have inbound : c'.progress.inbound = .closed := by rw [same]
  have parts : requestPayloads (received ++ [.close]) = requestPayloads received := by simp
  refine h.took live now takes receiving (by rw [same]) ?_ (by rw [inbound]; rfl) (fun open' => ?_) ?_
    fun open' all => ⟨?_, .inr ⟨?_, inbound, by simp⟩⟩
  · rw [same]
    simp [hasStarted, silent.any_eq]
  · rw [requests] at open'
    exact absurd open' (Channel.terminal_terminate_ne (by simp))
  · rw [parts, requests, Channel.queue_terminate]
    exact h.decoded
  · rw [parts, requests, Channel.queue_terminate]
    exact all
  · rw [requests]
    exact Channel.terminal_terminate_of_live open' _

theorem Intake.advance (h : Intake s c handed looked received got ends) (live : Live c) {now : Instant}
    (advance : Advance s now c c') :
    Intake s c' handed (looked ++ c.upcoming) (received ++ c.receives s (.turn now : Act Out W)) got ends := by
  cases advance with
  | gaveUp e d fails tried givenUp => exact h.givenUp live now tried givenUp
  | spoke batch rest ps next speaks =>
    refine h.still now (upcoming_of_events next) ?_
    have hasStarted := speaks.hasStarted_eq
    have handler := speaks.handler_eq
    rw [speaks.same] at hasStarted handler ⊢
    exact fetched_of_kept rfl (.inl rfl) hasStarted rfl rfl (by simp) rfl rfl
  | noted e rest next news same =>
    refine h.still now (upcoming_of_events next) ?_
    rw [same]
    exact fetched_of_kept rfl (.inl rfl) rfl rfl rfl (by simp) rfl rfl
  | concluded e rest outcome next news drained reported concludes =>
    refine h.still now (upcoming_of_events next) ?_
    have hasStarted := concludes.hasStarted
    rw [concludes.same] at hasStarted ⊢
    exact fetched_of_kept rfl (.inr rfl) hasStarted rfl rfl (by simp) rfl rfl
  | applied id setting rest idle orders same =>
    refine h.still now (upcoming_of_commands orders) ?_
    rw [same]
    exact fetched_of_kept rfl (.inl rfl) (by simp [hasStarted, (silent_woke c.replyWaiters).any_eq]) rfl rfl (by simp)
      rfl rfl
  | started p m rest deadline vs takes idle same =>
    rw [same]
    exact h.launched live now takes idle rfl rfl rfl rfl rfl
  | cutOff p m rest takes cut crashes requests writer => exact h.crashed live now takes crashes requests
  | delivered p data m rest x es takes receiving decoded silent same =>
    exact h.delivered live now takes receiving decoded silent same
  | closed p rest es takes receiving silent same => exact h.closes live now takes receiving silent same
  | writable b rest idle orders inbox same =>
    refine h.still now (by rw [upcoming_of_inbox live idle orders inbox]; rfl) ?_
    have waiting : partsOf c.inbox = partsOf rest := by rw [inbox]; rfl
    rw [same]
    split
    · have hasStarted := (undisturbed_withWriter { c with inbox := rest, writable := b }
        (c.writer.setWritable b)).hasStarted_eq
      rw [withWriter_eq] at hasStarted ⊢
      exact fetched_of_kept rfl (.inl rfl) hasStarted rfl rfl (by simp [waiting]) rfl rfl
    · exact fetched_of_kept rfl (.inl rfl) rfl rfl rfl (by simp [waiting]) rfl rfl
  | noticed idle orders inbox handles unnoticed whole same =>
    refine h.still now (by simp [upcoming, idle, orders, inbox]) ?_
    rw [same]
    exact fetched_of_kept rfl (.inl rfl) rfl rfl rfl (by simp) rfl rfl

theorem Intake.step [DecidableEq W] (h : Intake s c handed looked received got ends) {taken done : List (Outbound Out)}
    {said : List ResponsePart} (ledger : Ledger s c taken said done) (a : Act Out W) :
    Intake s (c.step s a) (handed ++ c.hands a) (looked ++ c.looks a) (received ++ c.receives s a) (got ++ c.gets a)
      (ends ++ c.reports a) := by
  by_cases turns : ∃ now, a = .turn now
  · obtain ⟨now, rfl⟩ := turns
    cases turn : c.turn s now with
    | none =>
      have nothing : c.upcoming = [] := upcoming_of_turn turn
      simpa [Call.step, turn, hands, gets, reports, receives, looks, nothing] using h
    | some c' =>
      obtain ⟨live, -⟩ := ledger.live_of_turn turn
      simpa [Call.step, turn, hands, gets, reports, looks] using h.advance live (Call.advance live turn)
  · have fetched := fetched_step s ledger.sound (c := c) fun now e => turns ⟨now, e⟩
    have nothing : c.looks a = [] := by
      cases a with
      | turn now => exact absurd ⟨now, rfl⟩ turns
      | _ => rfl
    simpa [receives, nothing] using h.fetched fetched

end Step

/-- **The intake of every run.** -/
theorem intake_after [DecidableEq W] (s : Setup σ Out In) (x : σ) (acts : List (Act Out W)) :
    Intake s (run (step s) (new s x) acts) ((new s x).handed s acts) ((new s x).lookedAt s acts)
      ((new s x).received s acts) ((new s x).read s acts) ((new s x).reported s acts) := by
  induction acts using List.reverseRecOn with
  | nil => exact intake_new s x
  | append_singleton acts a ih =>
    obtain ⟨said, done, ledger⟩ := ledger_after s x acts
    unfold handed lookedAt received read reported at ih ⊢
    rw [gather_snoc, gather_snoc, gather_snoc, gather_snoc, gather_snoc, run_append]
    exact ih.step ledger a

end Call

end Server

end CallLifecycle
