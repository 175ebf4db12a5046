import CallLifecycle.Proofs.Server.Draft
import CallLifecycle.Proofs.Server.Release
import CallLifecycle.Proofs.Server.Verdict

/-!
# Handlers that await what they do

A recital is a call together with a handler that carries out a script: it waits for each operation before it begins
the next, and returns behind the last.

* `Recital`, `Recital.proceed` — how far the handler is, and what it does when it is run;
* `Cue`, `Recital.step` — a recital among all that the transport, the loop and the clock do;
* `Carries`, `carries_turn` — what waits for the loop is said in its order, whatever the loop does;
* `Faithful`, `faithful_after` — **in every run** whose settings spare the messages that are kept, what was sent and
  what waits is what the script makes when each of its operations is carried out at once;
* `told_of_script` — the response that ends such a run, and the answers in it;
* `same_of_spared` — **two such runs** give the same answers and send the same parts, whenever the transport was
  writable in them;
* `flush_decides` — without that the moment at which the transport becomes writable decides.
-/

namespace CallLifecycle.Server

/-- What a handler waits for that awaits each of its operations. -/
inductive Pause where
  /-- For nothing: it goes on with its script. -/
  | free
  /-- For room in the writer that took its message over. -/
  | room
  /-- For the answer to a setting. -/
  | answer (id : Nat)
  /-- It has returned. -/
  | returned

/-- A call, and how far its handler is with its script. -/
structure Recital (σ Out In W : Type) where
  call : Call σ Out In W
  todo : List (Operation Out)
  pause : Pause := .free
  answers : List (Except Status Unit) := []

inductive Cue (Out W : Type) where
  | handler (k : W)
  | other (a : Act Out W)

namespace Recital

variable {σ Out In W : Type}

def begin (s : Setup σ Out In) (x : σ) (script : List (Operation Out)) : Recital σ Out In W :=
  { call := .new s x, todo := script }

section Steps

variable [DecidableEq W]

/-- The handler is run: it looks at what it waits for, or goes on with its script. -/
def proceed (r : Recital σ Out In W) (k : W) : Recital σ Out In W :=
  match r.pause, r.todo with
  | .free, [] => { r with call := r.call.returned none, pause := .returned }
  | .free, .send m :: todo =>
    match r.call.write m with
    | (call, .refused why) => { r with call, todo, answers := r.answers ++ [.error why.status] }
    | (call, .done) => { r with call, todo, answers := r.answers ++ [.ok ()] }
    | (call, .suspended) => { r with call, todo, pause := .room }
  | .free, .set setting :: todo =>
    match r.call.issue setting with
    | (call, .error e) => { r with call, todo, answers := r.answers ++ [.error e] }
    | (call, .ok id) => { r with call, todo, pause := .answer id }
  | .room, _ =>
    match r.call.pollWrite k with
    | (call, .pending) => { r with call }
    | (call, .ready a) => { r with call, pause := .free, answers := r.answers ++ [a.mapError WriteFailure.status] }
  | .answer id, _ =>
    match r.call.pollReply id k with
    | (call, .pending) => { r with call }
    | (call, .ready a) => { r with call, pause := .free, answers := r.answers ++ [a] }
  | .returned, _ => r

/-- One step. Before the call starts its handler, there is none to run, and it does no more than its script says. -/
def step (s : Setup σ Out In) (r : Recital σ Out In W) : Cue Out W → Recital σ Out In W
  | .handler k => if r.call.hasStarted then r.proceed k else r
  | .other a => if a.isDeed then r else { r with call := r.call.step s a }

omit [DecidableEq W] in
/-- What the handler does when it is run. -/
def deed? (r : Recital σ Out In W) (k : W) : Option (Deed Out W) :=
  match r.pause, r.todo with
  | .free, [] => some (.returned none)
  | .free, .send m :: _ => some (.write m)
  | .free, .set setting :: _ => some (.set setting)
  | .room, _ => some (.awaitWrite k)
  | .answer id, _ => some (.awaitReply id k)
  | .returned, _ => none

omit [DecidableEq W] in
def acts (r : Recital σ Out In W) : Cue Out W → List (Act Out W)
  | .handler k => ((r.deed? k).map .deed).toList
  | .other a => if a.isDeed then [] else [a]

theorem call_proceed (r : Recital σ Out In W) (k : W) :
    (r.proceed k).call = ((r.deed? k).map r.call.perform).getD r.call := by
  rcases r with ⟨call, todo, pause, answers⟩
  cases pause with
  | free =>
    rcases todo with _ | ⟨m | setting, todo⟩
    · rfl
    · simp only [proceed, deed?, Option.map_some, Option.getD_some, Call.perform]
      rcases call.write m with ⟨c, _ | _ | _⟩ <;> rfl
    · simp only [proceed, deed?, Option.map_some, Option.getD_some, Call.perform]
      rcases call.issue setting with ⟨c, _ | _⟩ <;> rfl
  | room =>
    simp only [proceed, deed?, Option.map_some, Option.getD_some, Call.perform]
    rcases call.pollWrite k with ⟨c, _ | _⟩ <;> rfl
  | answer id =>
    simp only [proceed, deed?, Option.map_some, Option.getD_some, Call.perform]
    rcases call.pollReply id k with ⟨c, _ | _⟩ <;> rfl
  | returned => rfl

theorem call_step (s : Setup σ Out In) (r : Recital σ Out In W) (q : Cue Out W) :
    (r.step s q).call = run (Call.step s) r.call (r.acts q) := by
  cases q with
  | handler k =>
    by_cases started : r.call.hasStarted = true
    · rw [step, if_pos started, call_proceed, acts]
      cases r.deed? k <;> simp [Call.step, started]
    · rw [step, if_neg started, acts]
      cases r.deed? k <;> simp [Call.step, started]
  | other a =>
    by_cases deed : a.isDeed = true <;> simp [step, acts, deed]

end Steps

end Recital

/-! ## what the loop does to what waits -/

namespace Call

variable {σ τ Out In W : Type} {s : Setup σ Out In} {v : Voice τ Out} {view : σ → τ} {c c' : Call σ Out In W}

/-- The messages that wait: for the loop, and behind them for the transport. -/
def backlog (c : Call σ Out In W) : List (Outbound Out) := c.queued ++ c.writer.pending

/-- A call goes on: of the messages that waited it has said the first, and it has carried out no setting. -/
structure Carries (v : Voice τ Out) (view : σ → τ) (c c' : Call σ Out In W) : Prop where
  said : ∃ ms, (c.draft view).sayAll? v ms = some (c'.draft view) ∧ c.backlog = ms ++ c'.backlog
  orders : c'.commands = c.commands
  replies : c'.replies = c.replies
  config : c'.writer.config = c.writer.config
  active : c.writer.completion = .active → c'.writer.completion = .active
  kept : c'.writer.pending = c.writer.pending ∨ c'.writer.pending = []

theorem carries_of_same (draft : c'.draft view = c.draft view) (queued : c'.queued = c.queued)
    (orders : c'.commands = c.commands) (replies : c'.replies = c.replies)
    (config : c'.writer.config = c.writer.config) (completion : c'.writer.completion = c.writer.completion)
    (pending : c'.writer.pending = c.writer.pending) : Carries v view c c' :=
  ⟨⟨[], by simp [draft], by simp [backlog, queued, pending]⟩, orders, replies, config,
    fun active => completion ▸ active, .inl pending⟩

/-- What a writer takes waits behind all else, whether it hands it over or keeps it. -/
theorem backlog_of_passes {added : List (Outbound Out)} {es : List (WriterEvent (Outbound Out) Failure)}
    (passes : c.writer.Passes c'.writer added es) (rs : List (HandlerEvent Out))
    (returns : ∀ e ∈ rs, ∃ o, e = .returned o) (events : c'.events = c.events ++ es.map ofWriterEvent ++ rs) :
    c'.backlog = c.backlog ++ added := by
  have nothing : rs.flatMap HandlerEvent.elements = [] := List.flatMap_eq_nil_iff.mpr fun e mem => by
    obtain ⟨o, rfl⟩ := returns e mem
    rfl
  simp only [backlog, queued, events, List.flatMap_append, flatMap_ofWriterEvent, nothing, List.append_nil,
    List.append_assoc, passes.sum]

theorem Worked.backlog_eq {added : List (Outbound Out)} (h : Worked c c' added) (going : c.ended = false) :
    c'.backlog = c.backlog ++ added := by
  obtain ⟨es, rs, passes, returns, events⟩ := h.events
  exact backlog_of_passes passes rs returns (by simpa [going] using events)

theorem carries_setWritable (live : Live c) (b : Bool) (rest : List Inbound)
    (same : c' = { c with inbox := rest, writable := b }.withWriter (c.writer.setWritable b)) :
    Carries v view c c' := by
  have passes := Writer.passes_setWritable live.sound b
  have draft : c'.draft view = c.draft view := by
    rw [same]
    exact (undisturbed_withWriter { c with inbox := rest, writable := b } _).draft_eq
  rw [withWriter_eq] at same
  have writer : c'.writer = (c.writer.setWritable b).1 := by rw [same]
  have waits : c'.backlog = c.backlog ++ [] :=
    backlog_of_passes (writer ▸ passes) [] (by simp) (by simp [same, live.ended])
  obtain ⟨config, active, kept⟩ : c'.writer.config = c.writer.config ∧
      (c.writer.completion = .active → c'.writer.completion = .active) ∧
      (c'.writer.pending = c.writer.pending ∨ c'.writer.pending = []) := by
    rw [writer]
    rcases Writer.setWritable_cases live.sound b with
      ⟨-, e⟩ | ⟨-, -, e⟩ | ⟨-, -, -, e⟩ | ⟨-, -, reason, ending, e⟩ <;> rw [e]
    · exact ⟨rfl, id, .inl rfl⟩
    · exact ⟨rfl, id, .inl rfl⟩
    · exact ⟨rfl, id, .inr rfl⟩
    · exact ⟨rfl, fun active => (by rw [ending] at active; cases active), .inr rfl⟩
  exact ⟨⟨[], congrArg some draft.symm, by simpa using waits.symm⟩, by rw [same], by rw [same], config, active, kept⟩

/-- A request part leaves the response as it is. -/
theorem draft_of_silent (speaks : s.SpeaksBy v view) {es : List (Effect W)} (nothing : es.filterMap Effect.part? = [])
    (outbound : c'.progress.outbound = c.progress.outbound) (headers : c'.headers = c.headers)
    (trailers : c'.trailers = c.trailers) (compression : c'.compressionDefault = c.compressionDefault)
    (trace : c'.trace = c.trace ++ es) {p : RequestPart}
    (memory : view c'.surroundings = view (c.beyond s p)) : c'.draft view = c.draft view := by
  have request := speaks.request p c.surroundings
  simp only [beyond, request] at memory
  simp only [draft, outbound, headers, trailers, compression, memory, Call.sent_eq, trace, List.filterMap_append,
    nothing, List.append_nil]

theorem carries_onEvent (speaks : s.SpeaksBy v view) (live : Live c) {e : HandlerEvent Out}
    {rest : List (HandlerEvent Out)} (next : c.events = e :: rest)
    (running : Running ({ c with events := rest }.onEvent s e)) :
    Carries v view c ({ c with events := rest }.onEvent s e) := by
  have isOpen : IsOpen { c with events := rest } := ⟨live.attached, live.outbound⟩
  cases news : e.isYielded with
  | true =>
    obtain ⟨batch, rfl⟩ : ∃ batch, e = .yielded batch := by cases e <;> simp_all [HandlerEvent.isYielded]
    have active := live.active_of_events (by simp [next])
    rw [onEvent] at running ⊢
    have spoken := draft_sendMessages speaks isOpen active batch
    rcases sendMessages_cases (s := s) isOpen active batch with ⟨ps, said, -⟩ | ⟨ps, n, closes, -⟩
    · have going : ({ c with events := rest }.sendMessages s batch).progress.isCompleted = false := by
        simpa [Progress.isCompleted] using running.2
      rw [draft?, going] at spoken
      have same := said.same
      refine ⟨⟨batch, spoken.symm, ?_⟩, ?_, ?_, ?_, ?_, ?_⟩ <;> rw [same]
      · simp [backlog, queued, next, HandlerEvent.elements]
      · exact id
      · exact .inl rfl
    · exact absurd closes.handler running.2
  | false =>
    rcases onEvent_cases (s := s) isOpen news with ⟨same, -⟩ | ⟨outcome, -, -, concludes⟩
    · rw [same]
      refine carries_of_same rfl ?_ rfl rfl rfl rfl rfl
      simp [queued, next, elements_of_news news]
    · exact absurd (by rw [concludes.same]) running.2

/-- **A turn says the first of what waits**, or carries out the first setting once nothing waits for the loop. -/
theorem carries_turn (speaks : s.SpeaksBy v view) (live : Live c) {now : Instant} (turn : c.turn s now = some c')
    (running : Running c') :
    Carries v view c c' ∨ ∃ id setting rest, c.events = [] ∧ c.commands = .set id setting :: rest ∧
      c' = { c with commands := rest }.onCommand s (.set id setting) := by
  obtain idle | ⟨e, rest, next⟩ : c.events = [] ∨ ∃ e rest, c.events = e :: rest := by cases c.events <;> simp
  · cases Call.advance live turn with
    | spoke batch rest ps next => cases idle.symm.trans next
    | noted e rest next => cases idle.symm.trans next
    | concluded e rest outcome next => cases idle.symm.trans next
    | gaveUp e d fails tried h => exact absurd (by rw [h.same]) running.2
    | applied id setting rest idle orders same =>
      refine .inr ⟨id, setting, rest, idle, orders, ?_⟩
      exact Option.some.inj (turn.symm.trans (turn_of_orders live now idle orders))
    | started p m rest deadline vs takes idle same =>
      have nothing : (vs.map .visited ++ [.started m deadline] : List (Effect W)).filterMap Effect.part? = [] := by
        simp [(silent_visited vs).filterMap_eq, Effect.part?]
      left
      rw [same]
      refine carries_of_same
        (draft_of_silent (p := p) speaks nothing rfl rfl rfl rfl (List.append_assoc ..) rfl) rfl rfl rfl ?_ ?_ ?_ <;>
        dsimp only <;> split <;> rfl
    | cutOff p m rest takes cut h => exact absurd h.ended (by simp [running.1])
    | delivered p data m rest x es takes receiving decoded silent same =>
      -- Decoding a request may change the surroundings, but not what is remembered of the responses.
      have memory : view x = view (c.beyond s p) := by
        have decode := speaks.decode data (c.beyond s p)
        rwa [decoded] at decode
      left
      rw [same]
      exact carries_of_same (draft_of_silent speaks silent.filterMap_eq rfl rfl rfl rfl rfl memory)
        rfl rfl rfl rfl rfl rfl
    | closed p rest es takes receiving silent same =>
      left
      rw [same]
      exact carries_of_same (draft_of_silent speaks silent.filterMap_eq rfl rfl rfl rfl rfl rfl) rfl rfl rfl rfl rfl rfl
    | writable b rest idle orders inbox same =>
      left
      split at same
      · exact carries_setWritable live b rest same
      · rw [same]
        exact carries_of_same rfl rfl rfl rfl rfl rfl rfl
    | noticed idle orders inbox handles unnoticed whole same =>
      rw [same]
      exact .inl (carries_of_same rfl rfl rfl rfl rfl rfl rfl)
  · obtain rfl := Option.some.inj (turn.symm.trans (turn_of_events live now next))
    exact .inl (carries_onEvent speaks live next running)

/-- The response of a call, once what waits is said, with the answers that its handler has. -/
def account (v : Voice τ Out) (view : σ → τ) (c : Call σ Out In W) (answers : List (Except Status Unit)) :
    Option (Draft τ × List (Except Status Unit)) :=
  ((c.draft view).sayAll? v c.backlog).map (·, answers)

theorem account_congr (draft : c'.draft view = c.draft view) (waits : c'.backlog = c.backlog)
    (answers : List (Except Status Unit)) : c'.account v view answers = c.account v view answers := by
  rw [account, account, draft, waits]

theorem Carries.account_eq (h : Carries v view c c') (answers : List (Except Status Unit)) :
    c'.account v view answers = c.account v view answers := by
  obtain ⟨ms, said, waits⟩ := h.said
  rw [account, account, waits, Draft.sayAll?_append, said, Option.bind_some]

/-- A message that is taken over will be said. -/
theorem account_of_taken {m : Outbound Out} (draft : c'.draft view = c.draft view)
    (waits : c'.backlog = c.backlog ++ [m]) (answers : List (Except Status Unit)) :
    c'.account v view (answers ++ [.ok ()]) = (c.account v view answers).bind (Draft.carryOut? v · (.send m)) := by
  rw [account, account, waits, draft, Draft.sayAll?_append]
  cases (c.draft view).sayAll? v c.backlog with
  | none => rfl
  | some d => simp [Draft.sayAll?, Draft.carryOut?]

/-- A setting that the loop carries out, and that spares what is kept, is as good as carried out behind it. -/
theorem account_of_applied (going : c.progress.isCompleted = false) {setting : Setting}
    (spares : (c.draft view).Spares v c.writer.pending setting) (idle : c.events = [])
    (draft : c'.draft view = (c.apply setting).1.draft view) (waits : c'.backlog = c.backlog)
    (answers : List (Except Status Unit)) :
    c'.account v view (answers ++ [(c.apply setting).2]) =
      (c.account v view answers).bind (Draft.carryOut? v · (.set setting)) := by
  obtain ⟨adopted, answer⟩ := draft_apply view going setting
  have kept : c.backlog = c.writer.pending := by simp [backlog, queued, idle]
  rw [account, account, waits, draft, adopted, answer, kept]
  exact Draft.sayAll?_adopt spares answers

theorem onCommand_set_eq (s : Setup σ Out In) (c : Call σ Out In W) (id : Nat) (setting : Setting) :
    ∃ headers trailers compressionDefault, c.onCommand s (.set id setting) =
      { c with headers, trailers, compressionDefault, replies := c.replies ++ [(id, (c.apply setting).2)],
               replyWaiters := [], trace := c.trace ++ c.replyWaiters.map .woke } := by
  obtain ⟨headers, trailers, compressionDefault, e⟩ := apply_eq c setting
  exact ⟨headers, trailers, compressionDefault, by simp only [onCommand, e, emit]⟩

theorem draft_onCommand_set (view : σ → τ) (s : Setup σ Out In) (c : Call σ Out In W) (id : Nat) (setting : Setting) :
    (c.onCommand s (.set id setting)).draft view = (c.apply setting).1.draft view :=
  Undisturbed.draft_eq ⟨rfl, rfl, rfl, rfl, rfl, rfl, rfl, rfl, rfl, rfl, rfl, _, silent_woke _, rfl⟩

end Call

namespace Recital

open Call

variable {σ τ Out In W : Type} {s : Setup σ Out In} {v : Voice τ Out} {view : σ → τ} {memory : τ}
  {past script : List (Operation Out)} {r : Recital σ Out In W} {c' : Call σ Out In W}

/-- How the response of a call, and the answers in it, stand to the operations that its handler has begun. -/
inductive Tells (v : Voice τ Out) (view : σ → τ) (memory : τ) (past : List (Operation Out))
    (r : Recital σ Out In W) : Prop
  /-- Every operation was answered. -/
  | settled (pause : r.pause = .free ∨ r.pause = .returned) (orders : r.call.commands = [])
      (tells : r.call.account v view r.answers = recite? v memory past)
  /-- The last message was taken over. -/
  | taken (pause : r.pause = .room) (orders : r.call.commands = [])
      (tells : r.call.account v view (r.answers ++ [.ok ()]) = recite? v memory past)
  /-- The last setting waits for the loop, and spares what is kept. -/
  | ordered (id : Nat) (setting : Setting) (before : List (Operation Out)) (pause : r.pause = .answer id)
      (last : past = before ++ [.set setting]) (orders : r.call.commands = [.set id setting])
      (spares : (r.call.draft view).Spares v r.call.writer.pending setting)
      (tells : r.call.account v view r.answers = recite? v memory before)
  /-- The last setting was carried out. -/
  | answered (id : Nat) (answer : Except Status Unit) (pause : r.pause = .answer id) (orders : r.call.commands = [])
      (reply : r.call.replies.find? (fun r => r.1 = id) = some (id, answer))
      (tells : r.call.account v view (r.answers ++ [answer]) = recite? v memory past)

/-- A recital goes as its script makes it: its call has said, or is to say, what the operations that were begun make if
each is carried out at once, and there is room for the next. -/
structure Faithful (s : Setup σ Out In) (v : Voice τ Out) (view : σ → τ) (memory : τ) (script : List (Operation Out))
    (r : Recital σ Out In W) : Prop where
  told : ∃ past, script = past ++ r.todo ∧ Tells v view memory past r
  done : r.pause = .returned → r.todo = []
  config : r.call.writer.config = s.config.writer.normalized
  active : r.pause ≠ .returned → r.call.writer.completion = .active
  room : r.pause ≠ .returned → r.pause ≠ .room → r.call.writer.pending.length < s.config.writer.normalized.limit

theorem faithful_begin (s : Setup σ Out In) (v : Voice τ Out) (view : σ → τ) (x : σ) (script : List (Operation Out))
    (room : 0 < s.config.writer.normalized.limit) :
    Faithful s v view (view x) script (begin s x script : Recital σ Out In W) := by
  refine ⟨⟨[], rfl, .settled (.inl rfl) rfl rfl⟩, fun ended => ?_, rfl, fun _ => rfl, fun _ _ => room⟩
  cases ended

/-! ### steps of the loop -/

theorem Faithful.carries (h : Faithful s v view memory script r) (carries : Carries v view r.call c') :
    Faithful s v view memory script { r with call := c' } := by
  have spared {setting : Setting} (spares : (r.call.draft view).Spares v r.call.writer.pending setting) :
      (c'.draft view).Spares v c'.writer.pending setting := by
    obtain ⟨ms, said, -⟩ := carries.said
    rcases carries.kept with kept | none
    · exact kept ▸ spares.sayAll? said
    · exact none ▸ Draft.spares_nil v _ setting
  obtain ⟨past, split, tells⟩ := h.told
  refine ⟨⟨past, split, ?_⟩, h.done, carries.config.trans h.config, fun going => carries.active (h.active going),
    fun going free => ?_⟩
  · -- How far the handler is with its script does not change; only its call has moved on.
    cases tells with
    | settled pause orders tells =>
      exact .settled pause (carries.orders.trans orders) ((carries.account_eq _).trans tells)
    | taken pause orders tells => exact .taken pause (carries.orders.trans orders) ((carries.account_eq _).trans tells)
    | ordered id setting before pause last orders spares tells =>
      exact .ordered id setting before pause last (carries.orders.trans orders) (spared spares)
        ((carries.account_eq _).trans tells)
    | answered id answer pause orders reply tells =>
      exact .answered id answer pause (carries.orders.trans orders) (by rw [carries.replies]; exact reply)
        ((carries.account_eq _).trans tells)
  · rcases carries.kept with kept | none
    · exact kept ▸ h.room going free
    · simp only [none, List.length_nil]
      exact Nat.zero_lt_of_lt (h.room going free)

theorem fresh_of_ordered {c : Call σ Out In W} (live : Live c) (numbered : Numbered c) {id : Nat} {setting : Setting}
    (orders : c.commands = [.set id setting]) : c.replies.find? (fun r => r.1 = id) = none := by
  have nodup := numbered.nodup live.ended
  rw [numbers, orders] at nodup
  have apart := (List.nodup_append.mp nodup).2.2
  refine List.find?_eq_none.mpr fun reply mem => ?_
  simpa [Command.number?] using apart reply.1 (List.mem_map_of_mem mem)

theorem Faithful.applied (h : Faithful s v view memory script r) (live : Live r.call) (numbered : Numbered r.call)
    {id : Nat} {setting : Setting} {rest : List Command} (idle : r.call.events = [])
    (orders : r.call.commands = .set id setting :: rest) :
    Faithful s v view memory script
      { r with call := { r.call with commands := rest }.onCommand s (.set id setting) } := by
  obtain ⟨past, split, tells⟩ := h.told
  cases tells with
  | settled pause none => cases none.symm.trans orders
  | taken pause none => cases none.symm.trans orders
  | answered id answer pause none => cases none.symm.trans orders
  | ordered id' setting' before pause last ordered spares tells =>
    obtain ⟨⟨rfl, rfl⟩, rfl⟩ : (id' = id ∧ setting' = setting) ∧ rest = [] := by simpa [ordered] using orders
    have going : { r.call with commands := [] }.progress.isCompleted = false := by
      simpa [Progress.isCompleted] using live.handler
    have fresh := fresh_of_ordered live numbered orders
    obtain ⟨headers, trailers, compressionDefault, e⟩ := onCommand_set_eq s { r.call with commands := [] } id' setting'
    have draft := draft_onCommand_set view s { r.call with commands := [] } id' setting'
    -- The operation that was begun last is the one that is carried out now, and `recite?` carries it out behind all
    -- that were begun before.
    have behind :
        (r.call.account v view r.answers).bind (Draft.carryOut? v · (.set setting')) = recite? v memory past := by
      rw [tells, last, recite?_snoc]
    have counts := (account_of_applied going spares idle draft (by rw [e]; rfl) r.answers).trans behind
    rw [e] at counts ⊢
    exact ⟨⟨past, split, .answered id' _ pause rfl (by simp [List.find?_append, fresh]) counts⟩, h.done, h.config,
      h.active, h.room⟩

/-! ### steps of the handler -/

/-- The setting that the handler is to order, if any, spares what is kept. -/
def Spares (v : Voice τ Out) (view : σ → τ) (r : Recital σ Out In W) : Prop :=
  match r.pause, r.todo with
  | .free, .set setting :: _ => (r.call.draft view).Spares v r.call.writer.pending setting
  | _, _ => True

instance (v : Voice τ Out) (view : σ → τ) : (r : Recital σ Out In W) → Decidable (r.Spares v view)
  | ⟨call, .set setting :: _, .free, _⟩ =>
    inferInstanceAs (Decidable ((call.draft view).Spares v call.writer.pending setting))
  | ⟨_, [], .free, _⟩ | ⟨_, .send _ :: _, .free, _⟩ => inferInstanceAs (Decidable True)
  | ⟨_, _, .room, _⟩ | ⟨_, _, .answer _, _⟩ | ⟨_, _, .returned, _⟩ => inferInstanceAs (Decidable True)

/-- A message for which there is room is taken over, and waits behind all else. -/
theorem taken_of_room (view : σ → τ) {c : Call σ Out In W} (live : Live c) {limits : WriterConfig}
    (config : c.writer.config = limits.normalized) (active : c.writer.completion = .active)
    (room : c.writer.pending.length < limits.normalized.limit) (m : Outbound Out) :
    (c.write m).1.draft view = c.draft view ∧ (c.write m).1.backlog = c.backlog ++ [m] ∧
      (c.write m).1.commands = c.commands ∧ (c.write m).1.writer.config = limits.normalized ∧
      (c.write m).1.writer.completion = .active ∧
      ((c.write m).2 = .suspended ∨
        (c.write m).2 = .done ∧ (c.write m).1.writer.pending.length < limits.normalized.limit) := by
  have high := limits.high_normalized_le_limit
  have worked : Worked c (c.write m).1 _ :=
    worked_withWriter (r := (_, _, [])) (Writer.passes_offer live.sound m)
  have waits := worked.backlog_eq live.ended
  have draft : (c.write m).1.draft view = c.draft view := worked.frame.draft_eq
  have writer : (c.write m).1.writer = (c.writer.offer m).1 := by simp only [write, withWriter_eq]
  have orders : (c.write m).1.commands = c.commands := by simp only [write, withWriter_eq]
  have admission : (c.write m).2 = (c.writer.offer m).2.1 := rfl
  rw [draft, waits, writer, orders, admission, ← config]
  rw [← config] at room high
  rcases Writer.offer_verdict c.writer m with ⟨ended, -⟩ | ⟨-, -, e⟩ | ⟨-, -, full, -⟩ | ⟨-, -, -, e⟩
  · exact absurd active ended
  · rw [e]
    exact ⟨rfl, rfl, rfl, rfl, active, .inr ⟨rfl, room⟩⟩
  · omega
  · rw [e]
    -- At the high mark the message is kept and its handler has to wait; below it there is room for the next.
    by_cases mark : c.writer.config.high ≤ c.writer.pending.length + 1
    · exact ⟨rfl, by simp [mark, Admission.isAccepted], rfl, rfl, active, .inl (by simp [mark])⟩
    · refine ⟨rfl, by simp [mark, Admission.isAccepted], rfl, rfl, active, .inr ⟨by simp [mark], ?_⟩⟩
      simp only [List.length_append, List.length_singleton]
      omega

variable [DecidableEq W]

theorem Faithful.returns (h : Faithful s v view memory script r) (live : Live r.call) (pause : r.pause = .free)
    (done : r.todo = []) (split : script = past ++ r.todo) (orders : r.call.commands = [])
    (tells : r.call.account v view r.answers = recite? v memory past) (k : W) :
    Faithful s v view memory script (r.proceed k) := by
  have now : r.proceed k = { r with call := r.call.returned none, pause := .returned } := by
    simp only [proceed, pause, done]
  have worked : Worked r.call (r.call.returned none) [] := worked_perform live.sound (.returned none)
  have waits := (worked.backlog_eq live.ended).trans (List.append_nil _)
  have config : (r.call.returned none).writer.config = r.call.writer.config := by
    simp only [returned, report, finishResponses, closeRequests_eq, tell_eq, withWriter_eq]
    rcases Writer.finish_cases live.sound none with ⟨-, e⟩ | ⟨-, -, e⟩ | ⟨-, -, e⟩ <;> rw [e]
  have same : (r.call.returned none).commands = r.call.commands := by
    simp only [returned, report, finishResponses, closeRequests_eq, tell_eq, withWriter_eq]
  rw [now]
  exact ⟨⟨past, split, .settled (.inr rfl) (same.trans orders)
    ((account_congr worked.frame.draft_eq waits _).trans tells)⟩, fun _ => done, config.trans h.config,
    fun going => absurd rfl going, fun going => absurd rfl going⟩

/-- A message of the script is taken over, since there is room for it. -/
theorem Faithful.sends (h : Faithful s v view memory script r) (live : Live r.call) (pause : r.pause = .free)
    {m : Outbound Out} {todo : List (Operation Out)} (next : r.todo = .send m :: todo) (split : script = past ++ r.todo)
    (orders : r.call.commands = []) (tells : r.call.account v view r.answers = recite? v memory past) (k : W) :
    Faithful s v view memory script (r.proceed k) := by
  obtain ⟨draft, waits, same, config, active, taken⟩ := taken_of_room view live h.config
    (h.active (by simp [pause])) (h.room (by simp [pause]) (by simp [pause])) m
  have counts := account_of_taken (v := v) draft waits r.answers
  rw [tells, ← recite?_snoc] at counts
  have split' : script = past ++ [.send m] ++ todo := by rw [split, next, List.append_assoc]; rfl
  rcases hw : r.call.write m with ⟨c', admission⟩
  rw [hw] at taken counts same config active
  rcases taken with rfl | ⟨rfl, room⟩
  · have now : r.proceed k = { r with call := c', todo, pause := .room } := by
      simp only [proceed, pause, next, hw]
    rw [now]
    exact ⟨⟨_, split', .taken rfl (same.trans orders) counts⟩, (fun ended => by cases ended), config, fun _ => active,
      fun _ free => absurd rfl free⟩
  · have now : r.proceed k = { r with call := c', todo, answers := r.answers ++ [.ok ()] } := by
      simp only [proceed, pause, next, hw]
    rw [now]
    exact ⟨⟨_, split', .settled (.inl pause) (same.trans orders) counts⟩, fun ended => by simp [pause] at ended, config,
      fun _ => active, fun _ _ => room⟩

theorem Faithful.sets (h : Faithful s v view memory script r) (live : Live r.call) (pause : r.pause = .free)
    (spares : r.Spares v view) {setting : Setting} {todo : List (Operation Out)} (next : r.todo = .set setting :: todo)
    (split : script = past ++ r.todo) (orders : r.call.commands = [])
    (tells : r.call.account v view r.answers = recite? v memory past) (k : W) :
    Faithful s v view memory script (r.proceed k) := by
  have issued : r.call.issue setting =
      ({ r.call with commands := r.call.commands ++ [.set r.call.nextReply setting],
                     nextReply := r.call.nextReply + 1, trace := r.call.trace ++ [.wokeLoop] },
        .ok r.call.nextReply) := by
    rw [issue, if_neg (by simp [live.ended])]
    rfl
  have worked := worked_perform live.sound (.set setting)
  simp only [perform, issued] at worked
  have split' : script = past ++ [.set setting] ++ todo := by rw [split, next, List.append_assoc]; rfl
  have active := h.active (by simp [pause])
  have room := h.room (by simp [pause]) (by simp [pause])
  have now : r.proceed k =
      { r with call := { r.call with commands := r.call.commands ++ [.set r.call.nextReply setting],
                                     nextReply := r.call.nextReply + 1, trace := r.call.trace ++ [.wokeLoop] },
               todo, pause := .answer r.call.nextReply } := by
    simp only [proceed, pause, next, issued]
  rw [now]
  refine ⟨⟨_, split', .ordered r.call.nextReply setting past rfl rfl (by simp [orders]) ?_
    ((account_congr worked.frame.draft_eq rfl _).trans tells)⟩, (fun ended => by cases ended), h.config,
    fun _ => active, fun _ _ => room⟩
  rw [Spares, pause, next] at spares
  rw [worked.frame.draft_eq]
  exact spares

/-- A message that was taken over is answered once there is room for the next. -/
theorem Faithful.awaits (h : Faithful s v view memory script r) (pause : r.pause = .room)
    (apart : s.config.writer.normalized.low < s.config.writer.normalized.limit) (split : script = past ++ r.todo)
    (orders : r.call.commands = []) (tells : r.call.account v view (r.answers ++ [.ok ()]) = recite? v memory past)
    (k : W) : Faithful s v view memory script (r.proceed k) := by
  have active := h.active (by simp [pause])
  rcases Writer.pollCapacity_verdict r.call.writer k with ⟨cancelled, -⟩ | ⟨-, low, e⟩ | ⟨-, -, e⟩
  · rw [active] at cancelled
    cases cancelled
  · have now : r.proceed k = { r with pause := .free, answers := r.answers ++ [.ok ()] } := by
      simp only [proceed, pause, pollWrite, e, Except.mapError]
    rw [now]
    refine ⟨⟨past, split, .settled (.inl rfl) orders tells⟩, (fun ended => by cases ended), h.config, fun _ => active,
      fun _ _ => ?_⟩
    -- The look found the buffer emptied to the low mark, which lies below the limit.
    rw [h.config] at low
    exact Nat.lt_of_le_of_lt low apart
  · have now : r.proceed k =
        { r with call := { r.call with
          writer := { r.call.writer with writeWaiters := register k r.call.writer.writeWaiters } } } := by
      simp only [proceed, pause, pollWrite, e]
    rw [now]
    exact ⟨⟨past, split, .taken pause orders tells⟩, fun ended => by simp [pause] at ended, h.config, fun _ => active,
      fun _ free => absurd pause free⟩

/-- What the handler does faithfully stays so. -/
theorem Faithful.proceed (h : Faithful s v view memory script r) (live : Live r.call) (numbered : Numbered r.call)
    (spares : r.Spares v view) (apart : s.config.writer.normalized.low < s.config.writer.normalized.limit) (k : W) :
    Faithful s v view memory script (r.proceed k) := by
  obtain ⟨past, split, tells⟩ := h.told
  cases tells with
  | settled pause orders tells =>
    rcases pause with pause | pause
    · rcases next : r.todo with _ | ⟨m | setting, todo⟩
      · exact h.returns live pause next split orders tells k
      · exact h.sends live pause next split orders tells k
      · exact h.sets live pause spares next split orders tells k
    · have now : r.proceed k = r := by simp only [Recital.proceed, pause]
      rw [now]
      exact h
  | taken pause orders tells => exact h.awaits pause apart split orders tells k
  | answered id answer pause orders reply tells =>
    have now : r.proceed k = { r with pause := .free, answers := r.answers ++ [answer] } := by
      simp only [Recital.proceed, pause, pollReply, reply]
    rw [now]
    exact ⟨⟨past, split, .settled (.inl rfl) orders tells⟩, (fun ended => by cases ended), h.config,
      fun _ => h.active (by simp [pause]), fun _ _ => h.room (by simp [pause]) (by simp [pause])⟩
  | ordered id setting before pause last orders spares tells =>
    have now : r.proceed k = { r with call := { r.call with replyWaiters := register k r.call.replyWaiters } } := by
      simp only [Recital.proceed, pause, pollReply, fresh_of_ordered live numbered orders, live.ended,
        Bool.false_eq_true, if_false]
    rw [now]
    exact ⟨⟨past, split, .ordered id setting before pause last orders spares tells⟩, h.done, h.config, h.active, h.room⟩

/-! ### every run -/

/-- In a run every setting spares what is kept when it is ordered. -/
def Spared (s : Setup σ Out In) (v : Voice τ Out) (view : σ → τ) (r : Recital σ Out In W) (cues : List (Cue Out W)) :
    Prop :=
  ∀ early k late, cues = early ++ .handler k :: late → (run (step s) r early).Spares v view

theorem spared_nil (s : Setup σ Out In) (v : Voice τ Out) (view : σ → τ) (r : Recital σ Out In W) :
    Spared s v view r [] :=
  fun early k late split => by simp at split

theorem spared_cons {q : Cue Out W} {cues : List (Cue Out W)} :
    Spared s v view r (q :: cues) ↔ (∀ k, q = .handler k → r.Spares v view) ∧ Spared s v view (r.step s q) cues := by
  constructor
  · intro h
    refine ⟨fun k is => h [] k cues (by rw [is]; rfl), fun early k late split => ?_⟩
    exact h (q :: early) k late (by rw [split]; rfl)
  · rintro ⟨first, rest⟩ early k late split
    rcases early with _ | ⟨q', early⟩
    · exact first k (List.cons.inj split).1
    · obtain ⟨same, behind⟩ := List.cons.inj split
      exact same ▸ rest early k late behind

instance decidableSpared (s : Setup σ Out In) (v : Voice τ Out) (view : σ → τ) (r : Recital σ Out In W) :
    (cues : List (Cue Out W)) → Decidable (Spared s v view r cues)
  | [] => isTrue (spared_nil s v view r)
  | .handler k :: cues =>
    have := decidableSpared s v view (r.step s (.handler k)) cues
    decidable_of_iff (r.Spares v view ∧ Spared s v view (r.step s (.handler k)) cues) (by simp [spared_cons])
  | .other a :: cues =>
    have := decidableSpared s v view (r.step s (.other a)) cues
    decidable_of_iff (Spared s v view (r.step s (.other a)) cues) (by simp [spared_cons])

theorem Spared.of_append {cues more : List (Cue Out W)} (h : Spared s v view r (cues ++ more)) :
    Spared s v view r cues :=
  fun early k late split => h early k (late ++ more) (by simp [split])

theorem step_of_returned (returned : r.pause = .returned) (q : Cue Out W) :
    r.step s q = { r with call := (r.step s q).call } := by
  cases q with
  | handler k =>
    have now : r.proceed k = r := by simp only [proceed, returned]
    simp only [step, now, ite_self]
  | other a =>
    simp only [step]
    split <;> rfl

theorem reports_of_going {q : Cue Out W} (going : (r.step s q).pause ≠ .returned) :
    gather (Call.step s) reports r.call (r.acts q) = [] := by
  cases q with
  | other a => cases a <;> simp [acts, Act.isDeed, gather, reports]
  | handler k =>
    by_cases started : r.call.hasStarted = true
    · rw [step, if_pos started] at going
      cases pause : r.pause with
      | free =>
        rcases todo : r.todo with _ | ⟨m | setting, todo⟩
        · exact absurd (by simp only [proceed, pause, todo]) going
        · simp [acts, deed?, pause, todo, gather, reports, Deed.report?]
        · simp [acts, deed?, pause, todo, gather, reports, Deed.report?]
      | room => simp [acts, deed?, pause, gather, reports, Deed.report?]
      | answer id => simp [acts, deed?, pause, gather, reports, Deed.report?]
      | returned => simp [acts, deed?, pause, gather]
    · rw [acts]
      cases r.deed? k <;> simp [gather, reports, started]

/-- A recital is a run of its call, in which the handler reports only when it has returned. -/
theorem exists_acts (s : Setup σ Out In) (x : σ) (script : List (Operation Out)) (cues : List (Cue Out W)) :
    ∃ acts, (run (step s) (begin s x script) cues).call = run (Call.step s) (new s x) acts ∧
      ((run (step s) (begin s x script) cues).pause ≠ .returned →
        (new s x : Call σ Out In W).reported s acts = []) := by
  induction cues using List.reverseRecOn with
  | nil => exact ⟨[], rfl, fun _ => rfl⟩
  | append_singleton cues q ih =>
    obtain ⟨acts, same, silent⟩ := ih
    rw [run_snoc]
    generalize run (step s) (begin s x script) cues = r at same silent
    refine ⟨acts ++ r.acts q, by rw [call_step, same, run_append], fun going => ?_⟩
    have before : r.pause ≠ .returned := fun returned => going (by rw [step_of_returned returned, returned])
    rw [reported, gather_append, ← same, reports_of_going going, List.append_nil]
    exact silent before

/-- What happens beside the handler leaves a recital faithful. -/
theorem Faithful.other (h : Faithful s v view memory script r) (speaks : s.SpeaksBy v view) (live : Live r.call)
    (numbered : Numbered r.call) {a : Act Out W} (beside : a.isDeed = false) (running : Running (r.call.step s a)) :
    Faithful s v view memory script { r with call := r.call.step s a } := by
  cases outside : a.isOutside with
  | true =>
    obtain ⟨inbox, handles, completionWaiters, es, silent, same⟩ := step_of_outside s r.call outside
    have frame : Undisturbed r.call (r.call.step s a) := by
      rw [same]
      exact ⟨rfl, rfl, rfl, rfl, rfl, rfl, rfl, rfl, rfl, rfl, rfl, es, silent, rfl⟩
    refine h.carries (carries_of_same frame.draft_eq ?_ ?_ ?_ ?_ ?_ ?_) <;> rw [same]
    rfl
  | false =>
    cases a with
    | deed d => cases beside
    | conclude =>
      rcases concluded_conclude r.call with same | concluded
      · simpa only [Call.step, same] using h
      · exact absurd concluded.ended (by simpa [Call.step] using running.1)
    | turn now =>
      cases turn : r.call.turn s now with
      | none => simpa [Call.step, turn] using h
      | some c' =>
        have same : r.call.step s (.turn now) = c' := by simp [Call.step, turn]
        rw [same] at running ⊢
        rcases carries_turn speaks live turn running with carries | ⟨id, setting, rest, idle, orders, rfl⟩
        · exact h.carries carries
        · exact h.applied live numbered idle orders
    | _ => cases outside

/-- **In every run** whose settings spare what is kept, a recital whose call goes on is faithful. -/
theorem faithful_after (speaks : s.SpeaksBy v view)
    (apart : s.config.writer.normalized.low < s.config.writer.normalized.limit) (x : σ) (script : List (Operation Out))
    (cues : List (Cue Out W)) (spared : Spared s v view (begin s x script) cues)
    (running : Running (run (step s) (begin s x script) cues).call) :
    Faithful s v view (view x) script (run (step s) (begin s x script) cues) := by
  induction cues using List.reverseRecOn with
  | nil => exact faithful_begin s v view x script (Nat.zero_lt_of_lt apart)
  | append_singleton cues q ih =>
    obtain ⟨acts, same, -⟩ := exists_acts (W := W) s x script cues
    obtain ⟨said, done, ledger⟩ := ledger_after (W := W) s x acts
    have numbered := numbered_after (W := W) s x acts
    have late := spared cues
    have before := ih spared.of_append
    rw [run_snoc] at running ⊢
    -- The call goes on at the end, so it went on before the last cue: the induction hypothesis applies.
    have going : Running (run (step s) (begin s x script) cues).call := by
      rw [same]
      refine running_of_append s x acts ((run (step s) (begin s x script) cues).acts q) ?_
      rwa [run_append, ← same, ← call_step]
    rw [← same] at ledger numbered
    generalize run (step s) (begin s x script) cues = r at *
    have live := ledger.live_of_running going
    cases q with
    | handler k =>
      rw [step]
      split
      · exact (before going).proceed live numbered (late k [] rfl) apart k
      · exact before going
    | other a =>
      rw [step] at running ⊢
      split
      · exact before going
      · rename_i beside
        rw [if_neg beside] at running
        exact (before going).other speaks live numbered (by simpa using beside) running

/-! ### how a run ends -/

theorem after_of_returned (returned : r.pause = .returned) (past : IsOver r.call) (late : List (Cue Out W)) :
    (run (step s) r late).answers = r.answers ∧ (run (step s) r late).call.sent = r.call.sent := by
  -- Nothing of the recital but its call moves on behind the return, so the answers stay, and the call is over.
  have quiet : ∃ acts, run (step s) r late = { r with call := run (Call.step s) r.call acts } := by
    refine run_induction
      (P := fun y : Recital σ Out In W => ∃ acts, y = { r with call := run (Call.step s) r.call acts }) ⟨[], rfl⟩ ?_
    rintro early q ⟨acts, same⟩
    refine ⟨acts ++ (run (step s) r early).acts q, ?_⟩
    rw [step_of_returned (by rw [same]; exact returned), call_step, run_append, same]
  obtain ⟨acts, same⟩ := quiet
  exact ⟨by rw [same], by rw [same]; exact (past.after acts).2⟩

omit [DecidableEq W] in
/-- The turn that ends a call whose handler returned well sends no more than the end. -/
theorem sent_of_endsFor (speaks : s.SpeaksBy v view) {c c' : Call σ Out In W} (live : Live c) {now : Instant}
    (ends : EndsFor s now c (.returned none)) (turn : c.turn s now = some c') : c'.sent = (c.draft view).closed v := by
  cases ends with
  | returned e rest outcome going next news drained reported =>
    have ended : c' = { c with events := rest, drained := true, outcome := none }.sendEnd s (Status.of .ok "") {} := by
      rw [← Option.some.inj ((turn_of_events live now next).symm.trans turn)]
      cases e with
      | yielded batch => cases news
      | drained reason =>
        have noted : c.outcome = some none := reported
        simp only [onEvent, endOnceDone, noted]
        rfl
      | returned outcome =>
        obtain rfl : outcome = none := Option.some.inj reported
        have noted : c.drained = true := by simpa [HandlerEvent.isDrained] using drained
        simp only [onEvent, endOnceDone, noted]
        rfl
    rw [ended]
    exact sent_sendEnd speaks ⟨live.attached, live.outbound⟩

/-- A run that the handler of its call ends well. -/
def EndsWell (s : Setup σ Out In) (r : Recital σ Out In W) (cues : List (Cue Out W)) : Prop :=
  ∃ early now late, cues = early ++ .other (.turn now) :: late ∧
    EndsFor s now (run (step s) r early).call (.returned none)

/-- **The response of a script.** In every run that its handler ends well, and whose settings spare what is kept, the
handler gets the answers and the transport is sent the parts that the script makes when each of its operations is
carried out at once. -/
theorem told_of_script (speaks : s.SpeaksBy v view)
    (apart : s.config.writer.normalized.low < s.config.writer.normalized.limit) (x : σ) (script : List (Operation Out))
    {cues : List (Cue Out W)} (spared : Spared s v view (begin s x script) cues)
    (ends : EndsWell s (begin s x script) cues) :
    ∃ d, recite? v (view x) script = some (d, (run (step s) (begin s x script) cues).answers) ∧
      (run (step s) (begin s x script) cues).call.sent = d.closed v := by
  obtain ⟨early, now, late, rfl, ends⟩ := ends
  obtain ⟨acts, same, silent⟩ := exists_acts (W := W) s x script early
  obtain ⟨said, done, ledger⟩ := ledger_after (W := W) s x acts
  have course := course_after (W := W) s x acts
  have faithful := faithful_after speaks apart x script early spared.of_append ends.going
  have split : run (step s) (begin s x script) (early ++ .other (.turn now) :: late) =
      run (step s) ((run (step s) (begin s x script) early).step s (.other (.turn now))) late := by
    simp [run]
  rw [split]
  rw [← same] at ledger course
  generalize run (step s) (begin s x script) early = r at *
  have live := ledger.live_of_running ends.going
  -- A handler that had not returned would not have reported an end.
  have returned : r.pause = .returned := by
    by_contra going
    have reported := ends.reported course
    rw [silent going] at reported
    cases reported
  obtain ⟨c', turn, tells⟩ := tells_of_endsFor live ends
  have handlerEnds : HandlerEnds s now r.call := by
    cases ends with
    | returned e rest outcome going next news => exact ⟨e, rest, next, news, c', turn, live.outbound, tells.ended⟩
  obtain ⟨rfl, c'', turn', past, -⟩ := done_of_handlerEnds ledger handlerEnds
  obtain rfl : c'' = c' := Option.some.inj (turn'.symm.trans turn)
  have step : r.step s (.other (.turn now)) = { r with call := c'' } := by
    simp [Recital.step, Act.isDeed, Call.step, turn]
  obtain ⟨-, -, sum⟩ := ledger.live_of_turn turn
  -- The turn ends the call for its handler, so no message waits: the account of the call is what it has sent.
  have nothing : r.call.backlog = [] := by
    simpa [backlog, List.append_assoc] using sum
  obtain ⟨answers, sent⟩ := after_of_returned (s := s) (r := { r with call := c'' }) returned past late
  obtain ⟨begun, whole, told⟩ := faithful.told
  rw [faithful.done returned, List.append_nil] at whole
  refine ⟨r.call.draft view, ?_, ?_⟩
  · rw [step, answers]
    cases told with
    | settled pause orders tells => rw [whole, ← tells, account, nothing]; rfl
    | taken pause => rw [returned] at pause; cases pause
    | ordered id setting before pause => rw [returned] at pause; cases pause
    | answered id answer pause => rw [returned] at pause; cases pause
  · rw [step, sent]
    exact sent_of_endsFor speaks live ends turn

/-- **When the transport is writable does not matter.** Two runs of a script that its handler ends well, and whose
settings spare what is kept, give the handler the same answers and send the same parts. -/
theorem same_of_spared (speaks : s.SpeaksBy v view)
    (apart : s.config.writer.normalized.low < s.config.writer.normalized.limit) (script : List (Operation Out))
    {x y : σ} (alike : view x = view y) {cues cues' : List (Cue Out W)}
    (spared : Spared s v view (begin s x script) cues) (spared' : Spared s v view (begin s y script) cues')
    (ends : EndsWell s (begin s x script) cues) (ends' : EndsWell s (begin s y script) cues') :
    (run (step s) (begin s x script) cues).answers = (run (step s) (begin s y script) cues').answers ∧
      (run (step s) (begin s x script) cues).call.sent = (run (step s) (begin s y script) cues').call.sent := by
  obtain ⟨d, made, sent⟩ := told_of_script speaks apart x script spared ends
  obtain ⟨d', made', sent'⟩ := told_of_script speaks apart y script spared' ends'
  rw [alike, made'] at made
  obtain ⟨rfl, answers⟩ := Prod.mk.inj (Option.some.inj made)
  exact ⟨answers.symm, sent.trans sent'.symm⟩

def compressing : Setup Unit Bytes Bytes := { plain with config := { compression := true } }

def verbatim : Voice Unit Bytes where
  compression := true
  code m x := (.ok m, x)
  pass p x := (.ok p, x)

theorem compressing_speaksBy : compressing.SpeaksBy verbatim id :=
  ⟨rfl, fun _ _ => rfl, fun _ _ => rfl, fun _ _ => rfl, fun _ _ => rfl⟩

/-- A request comes in, to a transport that is writable or is not. -/
def opening (writable : Bool) : List (Cue Bytes Nat) :=
  [.other (.submit (.writable writable)), .other (.submit (.part (.metadata {}))), .other (.turn 0)]

def rounds (n : Nat) : List (Cue Bytes Nat) := (List.replicate n [.other (.turn 0), .handler 0]).flatten

/-- A script that sets the default ahead of its messages, of which one does not ask for it. -/
def settled : List (Operation Bytes) :=
  [.set (.compression false), .send ⟨[1], .inherit⟩, .set (.trailers {}), .send ⟨[2], .enable⟩]

/-- The transport becomes writable when the handler has returned: the response is that of one that always was. -/
theorem same_of_settled :
    let prompt := opening true ++ rounds 8 ++ [.other (.turn 0)]
    let held := opening false ++ rounds 8 ++ [.other (.submit (.writable true))] ++ rounds 2 ++ [.other (.turn 0)]
    Spared compressing verbatim id (begin compressing () settled) prompt ∧
    Spared compressing verbatim id (begin compressing () settled) held ∧
    EndsWell compressing (begin compressing () settled) prompt ∧
    EndsWell compressing (begin compressing () settled) held ∧
    (run (step compressing) (begin compressing () settled) held).answers = [.ok (), .ok (), .ok (), .ok ()] ∧
    (run (step compressing) (begin compressing () settled) held).call.sent =
      [.metadata {}, .message [1] { compress := false }, .message [2] { compress := true },
       .close (Status.of .ok "") {}] := by
  intro prompt held
  have spared : Spared compressing verbatim id (begin compressing () settled) prompt := by decide
  have spared' : Spared compressing verbatim id (begin compressing () settled) held := by decide
  have ends : EndsWell compressing (begin compressing () settled) prompt :=
    ⟨opening true ++ rounds 8, 0, [], rfl, .returned (.returned none) [] none ⟨rfl, by decide⟩ rfl rfl rfl rfl⟩
  have ends' : EndsWell compressing (begin compressing () settled) held :=
    ⟨opening false ++ rounds 8 ++ [.other (.submit (.writable true))] ++ rounds 2, 0, [], rfl,
      .returned (.drained none) [] none ⟨rfl, by decide⟩ rfl rfl rfl rfl⟩
  obtain ⟨answers, sent⟩ := same_of_spared compressing_speaksBy (by decide) settled rfl spared spared' ends ends'
  exact ⟨spared, spared', ends, ends', answers.symm, sent.symm⟩

/-- A script that changes the default behind a message which asks for it. -/
def overtaken : List (Operation Bytes) := [.send ⟨[1], .inherit⟩, .set (.compression false)]

/-- **The flush decides.** The message was sent, and answered, before the default was changed; if the transport is not
writable then, it goes by the default that came later. -/
theorem flush_decides :
    let prompt := opening true ++ rounds 5 ++ [.other (.turn 0)]
    let held := opening false ++ rounds 5 ++ [.other (.submit (.writable true))] ++ rounds 2 ++ [.other (.turn 0)]
    EndsWell compressing (begin compressing () overtaken) prompt ∧
    EndsWell compressing (begin compressing () overtaken) held ∧
    Spared compressing verbatim id (begin compressing () overtaken) prompt ∧
    ¬ Spared compressing verbatim id (begin compressing () overtaken) held ∧
    (run (step compressing) (begin compressing () overtaken) prompt).call.sent =
      [.metadata {}, .message [1] { compress := true }, .close (Status.of .ok "") {}] ∧
    (run (step compressing) (begin compressing () overtaken) held).call.sent =
      [.metadata {}, .message [1] { compress := false }, .close (Status.of .ok "") {}] := by
  intro prompt held
  have ends : EndsWell compressing (begin compressing () overtaken) prompt :=
    ⟨opening true ++ rounds 5, 0, [], rfl, .returned (.returned none) [] none ⟨rfl, by decide⟩ rfl rfl rfl rfl⟩
  have ends' : EndsWell compressing (begin compressing () overtaken) held :=
    ⟨opening false ++ rounds 5 ++ [.other (.submit (.writable true))] ++ rounds 2, 0, [], rfl,
      .returned (.drained none) [] none ⟨rfl, by decide⟩ rfl rfl rfl rfl⟩
  exact ⟨ends, ends', by decide, by decide, rfl, rfl⟩

end Recital

end CallLifecycle.Server
