import CallLifecycle.Proofs.Metadata.Merging
import CallLifecycle.Proofs.Server.Replies
import CallLifecycle.Proofs.Server.Verdict

/-!
# What a response bears

The headers that a handler sets go ahead of its first message, or with the end if there is no message. The trailers go
with the end.

* `lastHeaders`, `lastTrailers` — what was set last, of the settings that were carried out;
* `announced`, `Closing` — the metadata that went ahead, and what the metadata of an end hold of each name;
* `Bears` — a call holds what was set last, unless it went ahead;
* `sendMessages_bears`, `bears_turn`, `bears_after` — **a call that goes on bears what was set last**;
* `Finishes`, `finishes_of_endsFor` — an end bears it too, whatever ends the call;
* `Honours`, `settings_of_run` — **what becomes of the settings of a handler** in every run.
-/

namespace CallLifecycle

def ResponsePart.headers? : ResponsePart → Option Metadata
  | .metadata m => some m
  | _ => none

/-- The metadata that went ahead among some parts. -/
def announced (ps : List ResponsePart) : List Metadata := ps.filterMap ResponsePart.headers?

@[simp] theorem announced_nil : announced [] = [] := rfl

@[simp] theorem announced_append (ps qs : List ResponsePart) : announced (ps ++ qs) = announced ps ++ announced qs := by
  simp [announced]

@[simp] theorem announced_metadata (m : Metadata) : announced [.metadata m] = [m] := rfl

@[simp] theorem announced_message (data : Bytes) (o : SendOptions) : announced [.message data o] = [] := rfl

@[simp] theorem announced_close (status : Status) (m : Metadata) : announced [.close status m] = [] := rfl

/-- Metadata `m` of an end hold, of every name, the values of the trailers that were set and then of those that are
told, and before them the values of the headers that were set, unless metadata went ahead. -/
def Closing (ahead : List Metadata) (headers trailers told m : Metadata) : Prop :=
  ∀ n, m.values n = (if ahead = [] then headers.values n else []) ++ trailers.values n ++ told.values n

namespace Server

def Settlement.headers? (y : Settlement) : Option Metadata :=
  match y.setting, y.answer with
  | .headers m, .ok () => some m
  | _, _ => none

def Settlement.trailers? (y : Settlement) : Option Metadata :=
  match y.setting, y.answer with
  | .trailers m, .ok () => some m
  | _, _ => none

/-- What was set last, nothing if nothing was set. -/
def lastSet (set? : Settlement → Option Metadata) (ys : List Settlement) : Metadata :=
  (ys.filterMap set?).getLast?.getD {}

def lastHeaders (ys : List Settlement) : Metadata := lastSet Settlement.headers? ys

def lastTrailers (ys : List Settlement) : Metadata := lastSet Settlement.trailers? ys

theorem lastSet_concat (set? : Settlement → Option Metadata) (ys : List Settlement) (y : Settlement) :
    lastSet set? (ys ++ [y]) = (set? y).getD (lastSet set? ys) := by
  cases h : set? y <;> simp [lastSet, h]

namespace Call

variable {σ Out In W : Type} {s : Setup σ Out In} {c c' : Call σ Out In W} {H R : Metadata} {cause : Cause}

/-! ## calls that go on -/

/-- A call that holds the headers `H`, unless they went ahead, and the trailers `R`. -/
structure Bears (c : Call σ Out In W) (H R : Metadata) : Prop extends IsOpen c where
  headers : c.progress.outbound = .headersPending → c.headers = H
  trailers : c.trailers = R
  ahead : announced c.sent = if c.progress.outbound = .headersPending then [] else [H]

theorem bears_new (s : Setup σ Out In) (x : σ) : Bears (new s x : Call σ Out In W) {} {} :=
  ⟨⟨rfl, by simp [new]⟩, fun _ => rfl, rfl, rfl⟩

theorem Bears.of_same (h : Bears c H R) (attached : c'.attached = c.attached)
    (outbound : c'.progress.outbound = c.progress.outbound) (headers : c'.headers = c.headers)
    (trailers : c'.trailers = c.trailers) (sent : c'.sent = c.sent) : Bears c' H R :=
  ⟨⟨attached.trans h.attached, outbound ▸ h.outbound⟩, fun pending => headers.trans (h.headers (outbound ▸ pending)),
    trailers.trans h.trailers, by rw [sent, outbound, h.ahead]⟩

theorem Bears.undisturbed (h : Bears c H R) (frame : Undisturbed c c') : Bears c' H R :=
  h.of_same frame.attached (by rw [frame.progress]) frame.headers frame.trailers frame.sent_eq

theorem Bears.ahead_cases (h : Bears c H R) : announced c.sent = [] ∨ announced c.sent = [H] := by
  rw [h.ahead]
  split
  · exact .inl rfl
  · exact .inr rfl

theorem Bears.closing (h : Bears c H R) (told : Metadata) : Closing (announced c.sent) H R told (c.closing told) := by
  intro n
  rw [Call.closing, h.ahead, h.trailers]
  have rest := (Metadata.merges_merge R told).joins.values n
  by_cases pending : c.progress.outbound = .headersPending
  · have whole := (Metadata.merges_merge H (R.merge told)).joins.values n
    rw [if_pos pending, if_pos pending, if_pos rfl, h.headers pending, whole, rest, List.append_assoc]
  · rw [if_neg pending, if_neg pending, if_neg (List.cons_ne_nil H []), rest, List.nil_append]

/-! ### messages -/

/-- Interceptors that only watch let every part pass. -/
theorem sendPart_of_watches (watches : s.pipeline.OnlyWatches) (attached : c.attached = true) (p : ResponsePart) :
    ∃ d, c.sendPart s p = (d, true) ∧ d.sent = c.sent ++ [p] ∧
      d = { c with surroundings := d.surroundings, trace := d.trace } := by
  obtain ⟨passed, part⟩ := watches.response p c.surroundings
  refine ⟨{ c with surroundings := (s.pipeline.response p c.surroundings).2,
                   trace := c.trace ++ (s.pipeline.response p c.surroundings).1.visits.map .visited ++ [.sent p] },
    ?_, ?_, rfl⟩
  · simp only [sendPart, intercept, transmit, attached, emit, passed, part, if_true]
  · simp [Call.sent_eq, (silent_visited _).filterMap_eq, Effect.part?]

/-- The headers that were set go ahead of the first message. -/
theorem sendHeaders_bears (watches : s.pipeline.OnlyWatches) (active : c.progress.handler = .active)
    (bears : Bears c H R) : ∃ d, c.sendHeaders s = (d, true) ∧ c.unheaded? s = none ∧ Bears d H R ∧
      d.progress = { c.progress with outbound := .streaming } := by
  by_cases pending : c.progress.outbound = .headersPending
  · have attached : { c with progress := { c.progress with outbound := .streaming }, headers := {} }.attached = true :=
      bears.attached
    obtain ⟨d, passes, sent, same⟩ := sendPart_of_watches watches attached (.metadata c.headers)
    have before : announced c.sent = [] := by rw [bears.ahead, if_pos pending]
    have behind : announced d.sent = [H] := by
      rw [sent, announced_append, announced_metadata, bears.headers pending]
      exact congrArg (· ++ [H]) before
    have progress : d.progress = { c.progress with outbound := .streaming } := by rw [same]
    refine ⟨d, ?_, ?_, ⟨⟨?_, ?_⟩, ?_, ?_, ?_⟩, progress⟩
    · rw [sendHeaders, if_pos pending, send_metadata active pending]
      exact passes
    · simp [unheaded?, (watches.response _ _).1]
    · rw [same]
      exact attached
    · simp [progress]
    · simp [progress]
    · rw [same]
      exact bears.trailers
    · simp [behind, progress]
  · have streaming : c.progress.outbound = .streaming := by
      have going := bears.outbound
      cases h : c.progress.outbound <;> simp_all
    refine ⟨c, by rw [sendHeaders, if_neg pending], by rw [unheaded?, if_neg pending], bears, ?_⟩
    rw [← streaming]

/-- A message is sent, unless it cannot be encoded; then the call is given up, and bears what it bore. -/
theorem sendMessage_bears (watches : s.pipeline.OnlyWatches) (active : c.progress.handler = .active)
    (streaming : c.progress.outbound = .streaming) (bears : Bears c H R) (m : Outbound Out) :
    (∃ d, c.sendMessage s m = (d, true) ∧ c.unspoken? s m = none ∧ Bears d H R ∧ d.progress = c.progress) ∨
    ∃ e d, c.sendMessage s m = (d.cancel s e, false) ∧ c.unspoken? s m = some e ∧ Bears d H R := by
  rcases encoded : s.codec.encode m.message c.surroundings with ⟨status | data, x⟩
  · right
    refine ⟨.status status, { c with surroundings := x }, ?_, ?_, bears.of_same rfl rfl rfl rfl rfl⟩
    · simp only [sendMessage, encoded]
    · simp only [unspoken?, encoded]
  · left
    have attached : { c with surroundings := x }.attached = true := bears.attached
    obtain ⟨d, passes, sent, same⟩ := sendPart_of_watches watches attached (.message data
      { compress := shouldCompress s.config.compression m.compression c.compressionDefault })
    have progress : d.progress = c.progress := by rw [same]
    refine ⟨d, ?_, ?_, ⟨⟨?_, ?_⟩, ?_, ?_, ?_⟩, progress⟩
    · simp only [sendMessage, encoded, send_message active streaming]
      exact passes
    · simp only [unspoken?, encoded, (watches.response _ _).1, Option.map_none]
    · rw [same]
      exact attached
    · rw [progress]
      exact bears.outbound
    · simp [progress, streaming]
    · rw [same]
      exact bears.trailers
    · rw [sent, announced_append, announced_message, List.append_nil, progress]
      exact bears.ahead

/-- Messages are sent up to the first that cannot be encoded. -/
theorem sendMessages_bears (watches : s.pipeline.OnlyWatches) (active : c.progress.handler = .active)
    (bears : Bears c H R) (batch : List (Outbound Out)) :
    (c.unsaid? s batch = none ∧ Bears (c.sendMessages s batch) H R) ∨
    ∃ e d, c.sendMessages s batch = d.cancel s e ∧ c.unsaid? s batch = some e ∧ Bears d H R := by
  induction batch generalizing c with
  | nil => exact .inl ⟨rfl, bears⟩
  | cons m rest ih =>
    have going : c.progress.isCompleted = false := by simp [Progress.isCompleted, active]
    obtain ⟨c₁, headed, fine, bears₁, progress₁⟩ := sendHeaders_bears watches active bears
    have active₁ : c₁.progress.handler = .active := by rw [progress₁]; exact active
    have streaming : c₁.progress.outbound = .streaming := by rw [progress₁]
    rw [unsaid?, fine, Option.none_or, headed]
    rcases sendMessage_bears watches active₁ streaming bears₁ m with
      ⟨c₂, spoken, fine, bears₂, progress₂⟩ | ⟨e, d, stops, fails, bears₂⟩
    · have goesOn : c.sendMessages s (m :: rest) = c₂.sendMessages s rest := by
        simp [sendMessages, going, headed, spoken]
      rw [fine, Option.none_or, spoken, goesOn]
      exact ih (progress₂ ▸ active₁) bears₂
    · right
      refine ⟨e, d, ?_, by rw [fails, Option.some_or], bears₂⟩
      simp [sendMessages, going, headed, stops]

/-! ### settings -/

theorem Bears.apply (bears : Bears c H R) (going : Running c) {y : Settlement}
    (answer : y.answer = (c.apply y.setting).2) :
    Bears (c.apply y.setting).1 (y.headers?.getD H) (y.trailers?.getD R) := by
  obtain ⟨number, setting, answer'⟩ := y
  simp only at answer ⊢
  subst answer
  have handler : c.progress.isCompleted = false := by simpa [Progress.isCompleted] using going.2
  cases setting with
  | headers m =>
    by_cases pending : c.progress.outbound = .headersPending
    · have carried : c.apply (.headers m) = ({ c with headers := m }, .ok ()) := by simp [Call.apply, handler, pending]
      rw [carried]
      have ahead : announced c.sent = [] := by rw [bears.ahead, if_pos pending]
      refine ⟨⟨bears.attached, bears.outbound⟩, fun _ => rfl, bears.trailers, ?_⟩
      rw [if_pos pending]
      exact ahead
    · have refused : c.apply (.headers m) = (c, .error headersAlreadySent) := by simp [Call.apply, handler, pending]
      rw [refused]
      exact bears
  | trailers m =>
    have carried : c.apply (.trailers m) = ({ c with trailers := m }, .ok ()) := by simp [Call.apply, handler]
    rw [carried]
    exact ⟨⟨bears.attached, bears.outbound⟩, bears.headers, rfl, bears.ahead⟩
  | compression enabled =>
    have carried : c.apply (.compression enabled) = ({ c with compressionDefault := enabled }, .ok ()) := by
      simp [Call.apply, handler]
    rw [carried]
    exact bears.of_same rfl rfl rfl rfl rfl

theorem not_running_of_givenUp {e : Failure} (h : GivenUp s e c c') : ¬ Running c' := by
  intro going
  rw [h.same] at going
  exact going.2 rfl

/-- A turn that sends messages sends the headers that were set ahead of them, and one that takes a setting up notes it.
No other leaves a call that goes on with other headers and trailers. -/
theorem bears_turn (watches : s.pipeline.OnlyWatches) (live : Live c) {ys : List Settlement}
    (bears : Bears c (lastHeaders ys) (lastTrailers ys)) {now : Instant} (turn : c.turn s now = some c')
    (going : Running c') :
    Bears c' (lastHeaders (ys ++ c.settles (.turn now : Act Out W)))
      (lastTrailers (ys ++ c.settles (.turn now : Act Out W))) := by
  have before : Running c := ⟨live.ended, live.handler⟩
  -- A turn that takes up a setting does nothing else, and no other turn sets anything.
  cases settles : c.settles (.turn now : Act Out W) with
  | cons y zs =>
    obtain ⟨-, -, -, rfl, answer, -⟩ := settles_eq_cons settles
    obtain ⟨rest, -, same⟩ := turn_of_settles (s := s) settles
    obtain rfl := Option.some.inj (turn.symm.trans same)
    rw [lastHeaders, lastTrailers, lastSet_concat, lastSet_concat]
    have trace : (c.apply y.setting).1.trace = c.trace := by
      obtain ⟨headers, trailers, compressionDefault, e⟩ := apply_eq c y.setting
      rw [e]
    refine (bears.apply before answer).of_same rfl rfl rfl rfl ?_
    simp [Call.sent_eq, trace, (silent_woke _).filterMap_eq]
  | nil =>
    rw [List.append_nil]
    have silent {es : List (Effect W)} (h : Silent es) (trace : c'.trace = c.trace ++ es) : c'.sent = c.sent := by
      rw [Call.sent_eq, Call.sent_eq, trace, List.filterMap_append, h.filterMap_eq, List.append_nil]
    cases advance live turn with
    | spoke batch rest ps next speaks =>
      have active : { c with events := rest }.progress.handler = .active := live.active_of_events (by simp [next])
      obtain rfl := Option.some.inj (turn.symm.trans (turn_of_events live now next))
      have held : Bears { c with events := rest } (lastHeaders ys) (lastTrailers ys) :=
        bears.of_same rfl rfl rfl rfl rfl
      rcases sendMessages_bears watches active held batch with ⟨-, bears'⟩ | ⟨e, d, gaveUp, -, bears'⟩
      · exact bears'
      · rw [onEvent, gaveUp] at going
        exact absurd going (not_running_of_givenUp (cancel_givenUp bears'.toIsOpen e))
    | noted e rest next news same =>
      rw [same]
      exact bears.of_same rfl rfl rfl rfl rfl
    | concluded e rest outcome next news drained reported concludes =>
      rw [concludes.same] at going
      exact absurd rfl going.2
    | gaveUp e d fails tried givenUp => exact absurd going (not_running_of_givenUp givenUp)
    | applied number setting rest idle orders => simp [settles_of_set before now idle orders] at settles
    | started p m rest deadline vs takes idle same =>
      rw [same]
      refine bears.of_same rfl rfl rfl rfl ?_
      simp [Call.sent_eq, (silent_visited vs).filterMap_eq, Effect.part?]
    | cutOff p m rest takes cut crashes => exact absurd going.1 (by simp [crashes.ended])
    | delivered p data m rest x es takes receiving decoded quiet same =>
      have sent := silent quiet (by rw [same])
      rw [same] at sent ⊢
      exact bears.of_same rfl rfl rfl rfl sent
    | closed p rest es takes receiving quiet same =>
      have sent := silent quiet (by rw [same])
      rw [same] at sent ⊢
      exact bears.of_same rfl rfl rfl rfl sent
    | writable b rest idle orders inbox same =>
      rw [same]
      have held : Bears { c with inbox := rest, writable := b } (lastHeaders ys) (lastTrailers ys) :=
        bears.of_same rfl rfl rfl rfl rfl
      split
      · exact held.undisturbed (undisturbed_withWriter _ _)
      · exact held
    | noticed idle orders inbox handles unnoticed whole same =>
      rw [same]
      exact bears.of_same rfl rfl rfl rfl rfl

/-- **A call that goes on bears what was set last**, where the interceptors only watch. -/
theorem bears_after [DecidableEq W] (watches : s.pipeline.OnlyWatches) (x : σ) (acts : List (Act Out W))
    (going : Running (run (step s) (new s x) acts)) :
    Bears (run (step s) (new s x) acts) (lastHeaders ((new s x).settlements s acts))
      (lastTrailers ((new s x).settlements s acts)) := by
  induction acts using List.reverseRecOn with
  | nil => exact bears_new s x
  | append_singleton acts a ih =>
    obtain ⟨said, done, ledger⟩ := ledger_after s x acts
    rw [run_append, run_cons, run_nil] at going ⊢
    have before := running_of_step ledger.sound going
    rw [settlements, gather_snoc, ← settlements]
    by_cases turns : ∃ now, a = .turn now
    · obtain ⟨now, rfl⟩ := turns
      cases turn : (run (step s) (new s x) acts).turn s now with
      | none => simpa [Call.step, turn, settles_of_turn turn] using ih before
      | some c' =>
        have same : (run (step s) (new s x) acts).step s (.turn now) = c' := by simp [Call.step, turn]
        rw [same] at going ⊢
        exact bears_turn watches (ledger.live_of_running before) (ih before) turn going
    · have other : ∀ now, a ≠ .turn now := fun now e => turns ⟨now, e⟩
      rw [settles_of_other other, List.append_nil]
      exact (ih before).undisturbed (told_step s ledger.sound other).frame

/-! ## calls that end -/

/-- A response that was ended for a cause, with the headers `H` and the trailers `R`. -/
def Finishes (s : Setup σ Out In) (cause : Cause) (H R : Metadata) (sent : List ResponsePart) : Prop :=
  ∃ ps x m, sent = ps ++ [.close (cause.tell s x).1 m] ∧ Closing (announced ps) H R (cause.tell s x).2 m ∧
    (announced ps = [] ∨ announced ps = [H])

/-- An end that is sent behind what a call bears, bears the rest. -/
theorem Bears.finishes (bears : Bears c H R) (watches : s.pipeline.OnlyWatches) {x : σ} {q : ResponsePart}
    (sent : c'.sent = c.sent ++ [q])
    (emerges : Emerges s.pipeline (.close (cause.tell s x).1 (c.closing (cause.tell s x).2)) q) :
    Finishes s cause H R c'.sent := by
  obtain rfl := watches.eq_of_emerges emerges
  exact ⟨c.sent, x, _, sent, bears.closing _, bears.ahead_cases⟩

/-- The next turn ends the response, whatever it ends it for, and the end bears what was set. -/
theorem finishes_of_endsFor (watches : s.pipeline.OnlyWatches) (live : Live c) (bears : Bears c H R) {now : Instant}
    (ends : EndsFor s now c cause) : ∃ c', c.turn s now = some c' ∧ Finishes s cause H R c'.sent := by
  have gaveUp {d : Call σ Out In W} (bears : Bears d H R) (e : Failure) :
      Finishes s (.failed e) H R (d.cancel s e).sent := by
    obtain ⟨x, q, sent, emerges⟩ := (cancel_givenUp (s := s) bears.toIsOpen e).sent
    exact bears.finishes watches sent emerges
  cases ends with
  | returned e rest outcome going next news drained reported =>
    have turn : c.turn s now = some ({ c with events := rest }.onEvent s e) := turn_of_events live now next
    rcases onEvent_cases (s := s) (c := { c with events := rest }) ⟨live.attached, live.outbound⟩ news with
      ⟨-, waits⟩ | ⟨outcome', -, reported', concludes⟩
    · cases (waits drained).symm.trans reported
    · obtain rfl := Option.some.inj (reported'.symm.trans reported)
      obtain ⟨q, sent, emerges⟩ := concludes.sent
      have held : Bears { c with events := rest, drained := true, outcome := some outcome' } H R :=
        bears.of_same rfl rfl rfl rfl rfl
      refine ⟨_, turn, ?_⟩
      exact held.finishes watches sent emerges
  | failed e going fails =>
    cases fails with
    | unsaid batch rest e next fails =>
      have active : { c with events := rest }.progress.handler = .active := live.active_of_events (by simp [next])
      have held : Bears { c with events := rest } H R := bears.of_same rfl rfl rfl rfl rfl
      refine ⟨_, turn_of_events live now next, ?_⟩
      -- The messages ahead of the one that fails may have sent the headers, which then do not go with the end.
      rcases sendMessages_bears watches active held batch with ⟨fine, -⟩ | ⟨e', d, same, first, bears'⟩
      · cases fine.symm.trans fails
      · obtain rfl := Option.some.inj (first.symm.trans fails)
        rw [onEvent, same]
        exact gaveUp bears' e'
    | other e idle why =>
      obtain ⟨d, looked, turn⟩ := turn_of_givesUp live idle why
      have held : Bears d H R := by
        have sent := looked.sent_eq
        rw [looked.same] at sent ⊢
        exact bears.of_same rfl rfl rfl rfl sent
      exact ⟨_, turn, gaveUp held e⟩

/-! ## the settings of a run -/

section Runs

variable [DecidableEq W]

theorem settlements_of_not_running {taken done : List (Outbound Out)} {said : List ResponsePart}
    (ledger : Ledger s c taken said done) (isOver : ¬ Running c) (acts : List (Act Out W)) :
    c.settlements s acts = [] := by
  induction acts generalizing c taken said done with
  | nil => rfl
  | cons a acts ih =>
    obtain ⟨said', done', behind⟩ := ledger_step ledger a
    rw [settlements, gather, settles_of_not_running isOver, List.nil_append]
    exact ih behind (unsent_step s ledger.sound isOver a).1

/-- **Every cause ends the response** with what was set last. -/
theorem finishes_after (watches : s.pipeline.OnlyWatches) (x : σ) {early : List (Act Out W)} {now : Instant}
    (ends : EndsFor s now (run (step s) (new s x) early) cause) (late : List (Act Out W)) :
    Finishes s cause (lastHeaders ((new s x).settlements s (early ++ .turn now :: late)))
      (lastTrailers ((new s x).settlements s (early ++ .turn now :: late)))
      (run (step s) (new s x) (early ++ .turn now :: late)).sent := by
  obtain ⟨said, done, ledger⟩ := ledger_after s x early
  have live := ledger.live_of_running ends.going
  obtain ⟨c', turn, finishes⟩ := finishes_of_endsFor watches live (bears_after watches x early ends.going) ends
  have turned : (run (step s) (new s x) early).step s (.turn now) = c' := by simp [Call.step, turn]
  obtain ⟨said', done', ledger'⟩ := ledger_step ledger (.turn now)
  rw [turned] at ledger'
  have isOver : ¬ Running c' := by
    obtain ⟨c'', turn', tells⟩ := tells_of_endsFor live ends
    obtain rfl := Option.some.inj (turn.symm.trans turn')
    exact fun going => (ledger'.live_of_running going).outbound tells.ended
  -- The turn takes up no setting, and none is taken up behind it.
  have unsettled : (run (step s) (new s x) early).settles (.turn now : Act Out W) = [] := by
    cases settles : (run (step s) (new s x) early).settles (.turn now : Act Out W) with
    | nil => rfl
    | cons y ys =>
      obtain rfl := (settles_eq_cons settles).2.2.2.1
      obtain ⟨rest, -, taken⟩ := turn_of_settles (s := s) settles
      obtain ⟨headers, trailers, compressionDefault, e⟩ := apply_eq (run (step s) (new s x) early) y.setting
      obtain rfl := Option.some.inj (turn.symm.trans taken)
      rw [e] at isOver
      exact absurd ends.going isOver
  have same : (new s x).settlements s (early ++ .turn now :: late) = (new s x).settlements s early := by
    have none : gather (step s) settles c' late = [] := settlements_of_not_running ledger' isOver late
    rw [settlements, gather_append, gather, unsettled, turned, none, List.append_nil, List.append_nil, settlements]
  rw [same, run_append, run_cons, turned, (unsent_after ledger' isOver late).2]
  exact finishes

/-- What a run makes of the settings of its handler. -/
structure Honours (s : Setup σ Out In) (x : σ) (acts : List (Act Out W)) : Prop where
  /-- At most one part goes ahead, with the headers that were set last. -/
  ahead : announced (run (step s) (new s x) acts).sent = [] ∨
    announced (run (step s) (new s x) acts).sent = [lastHeaders ((new s x).settlements s acts)]
  /-- Whatever ends the response, its end is the last part and the only end. It bears, of each name, the values of the
  trailers that were set last and of those that are told, and before them those of the headers that were set last,
  unless they went ahead. -/
  ends : ∀ early now late cause, acts = early ++ .turn now :: late →
    EndsFor s now (run (step s) (new s x) early) cause →
    ∃ ps y m, (run (step s) (new s x) acts).sent = ps ++ [.close (cause.tell s y).1 m] ∧
      Closing (announced ps) (lastHeaders ((new s x).settlements s acts)) (lastTrailers ((new s x).settlements s acts))
        (cause.tell s y).2 m ∧
      ∀ p ∈ ps, p.kind ≠ .close
  /-- An end is sent for such a cause alone. -/
  caused : ∀ status m, .close status m ∈ (run (step s) (new s x) acts).sent → ∃ early now late cause,
    acts = early ++ .turn now :: late ∧ EndsFor s now (run (step s) (new s x) early) cause
  /-- The settings are taken up in the order in which they were issued. -/
  inOrder : ((new s x).settlements s acts).map Settlement.order <+: (new s x : Call σ Out In W).issued s acts
  /-- A setting is answered well just if the loop took it up; if it sets headers, before any metadata or an end were
  sent. -/
  answered : ∀ number setting w, (number, setting) ∈ (new s x : Call σ Out In W).issued s acts →
    (((run (step s) (new s x) acts).pollReply number w).2 = .ready (.ok ()) ↔
      ∃ early now late r, acts = early ++ .turn now :: late ∧
        (run (step s) (new s x) early).settles (.turn now : Act Out W) = [⟨number, setting, r⟩] ∧
        ((∃ m, setting = .headers m) → ∀ p ∈ (run (step s) (new s x) early).sent, p.kind = .message))
  /-- A setting that is refused is answered, and changes nothing else. -/
  refused : ∀ early now late number setting e, acts = early ++ .turn now :: late →
    (run (step s) (new s x) early).settles (.turn now : Act Out W) = [⟨number, setting, .error e⟩] →
    run (step s) (new s x) (early ++ [.turn now]) =
      { run (step s) (new s x) early with
        commands := (run (step s) (new s x) early).commands.tail
        replies := (run (step s) (new s x) early).replies ++ [(number, .error e)]
        replyWaiters := []
        trace := (run (step s) (new s x) early).trace ++ (run (step s) (new s x) early).replyWaiters.map .woke }
  /-- A setting that the loop does not even take an order for changes nothing at all. -/
  unissued : ∀ early setting late, acts = early ++ .deed (.set setting) :: late →
    (run (step s) (new s x) early).issues (.deed (.set setting) : Act Out W) = [] →
    run (step s) (new s x) (early ++ [.deed (.set setting)]) = run (step s) (new s x) early

theorem ahead_after (watches : s.pipeline.OnlyWatches) (x : σ) (acts : List (Act Out W)) :
    announced (run (step s) (new s x) acts).sent = [] ∨
      announced (run (step s) (new s x) acts).sent = [lastHeaders ((new s x).settlements s acts)] := by
  obtain ⟨said, done, ledger⟩ := ledger_after s x acts
  cases ledger.standing with
  | live live => exact (bears_after watches x acts ⟨live.ended, live.handler⟩).ahead_cases
  | cut pending => exact .inl (by rw [ledger.sent_of_pending pending, announced_nil])
  | closed outbound =>
    obtain ⟨-, ps, q, status, m, sent, emerges⟩ := ledger.endSent outbound
    obtain rfl := watches.eq_of_emerges emerges
    have mem : .close status m ∈ (run (step s) (new s x) acts).sent := by simp [sent]
    obtain ⟨early, now, late, cause, rfl, ends, -⟩ := exists_cause_of_sent watches.rewritesNoResponses x mem
    obtain ⟨qs, y, m', sent', -, once⟩ := finishes_after watches x ends late
    rw [sent', announced_append, announced_close, List.append_nil]
    exact once

/-- A setting that is taken up is carried out, unless it sets headers behind metadata that were sent. -/
theorem answer_of_settles (watches : s.pipeline.OnlyWatches) (x : σ) {acts : List (Act Out W)} {now : Instant}
    {y : Settlement} (settles : (run (step s) (new s x) acts).settles (.turn now : Act Out W) = [y]) :
    y.answer = .ok () ↔
      ((∃ m, y.setting = .headers m) → ∀ p ∈ (run (step s) (new s x) acts).sent, p.kind = .message) := by
  obtain ⟨-, going, -, -, answer, -⟩ := settles_eq_cons settles
  obtain ⟨said, done, ledger⟩ := ledger_after s x acts
  have bears := bears_after watches x acts going
  rw [answer, apply_eq_ok_iff going]
  refine imp_congr_right fun _ => ⟨fun pending p mem => ?_, fun messages => ?_⟩
  · rw [ledger.sent_of_pending pending] at mem
    cases mem
  · by_contra announcing
    have ahead := bears.ahead
    rw [if_neg announcing] at ahead
    obtain ⟨p, mem, headers⟩ := List.mem_filterMap.mp (ahead ▸ List.mem_singleton_self _ : _ ∈ announced _)
    have kind := messages p mem
    cases p with
    | message => cases headers
    | _ => cases kind

/-- **What becomes of the settings of a handler** in every run, where the interceptors only watch. -/
theorem settings_of_run (s : Setup σ Out In) (watches : s.pipeline.OnlyWatches) (x : σ) (acts : List (Act Out W)) :
    Honours s x acts := by
  obtain ⟨said, done, ledger⟩ := ledger_after s x acts
  have docketed := docketed_after s x acts
  refine ⟨ahead_after watches x acts, ?_, ?_, docketed.sub, ?_, ?_, ?_⟩
  · rintro early now late cause rfl ends
    obtain ⟨ps, y, m, sent, closing, -⟩ := finishes_after watches x ends late
    refine ⟨ps, y, m, sent, closing, fun p mem close => ?_⟩
    cases p with
    | close status m =>
      -- A second end would stand behind the first one, where nothing is sent.
      obtain ⟨before, behind, split⟩ := List.append_of_mem mem
      rw [split, List.append_assoc, List.cons_append] at sent
      obtain ⟨nothing, -⟩ := ledger.nothing_behind watches.keepsResponseKinds sent
      simp at nothing
    | _ => cases close
  · intro status m mem
    obtain ⟨early, now, late, cause, split, ends, -⟩ := exists_cause_of_sent watches.rewritesNoResponses x mem
    exact ⟨early, now, late, cause, split, ends⟩
  · intro number setting w mem
    rw [docketed.pollReply_eq_ok_iff mem w, settlements, mem_gather]
    constructor
    · rintro ⟨early, a, late, split, mem⟩
      cases settles : (run (step s) (new s x) early).settles a with
      | nil => simp [settles] at mem
      | cons y ys =>
        obtain ⟨⟨now, rfl⟩, -, -, rfl, -⟩ := settles_eq_cons settles
        obtain rfl : _ = y := by simpa [settles] using mem
        exact ⟨early, now, late, .ok (), split, settles, (answer_of_settles watches x settles).mp rfl⟩
    · rintro ⟨early, now, late, r, split, settles, first⟩
      have answer := (answer_of_settles watches x settles).mpr first
      obtain rfl : r = .ok () := answer
      exact ⟨early, .turn now, late, split, by rw [settles]; exact List.mem_singleton_self _⟩
  · rintro early now late number setting e rfl settles
    obtain ⟨rest, orders, turn⟩ := turn_of_settles (s := s) settles
    obtain ⟨-, -, -, -, answer, -⟩ := settles_eq_cons settles
    rw [apply_of_refused answer.symm] at turn
    rw [run_append, run_cons, run_nil, Call.step, turn, Option.getD_some, orders]
    rfl
  · rintro early setting late rfl unissued
    rw [run_append, run_cons, run_nil, Call.step]
    split
    · rename_i started
      have ended : (run (step s) (new s x) early).ended = true := by simpa [issues, started] using unissued
      simp [Call.perform, issue, ended]
    · rfl

end Runs

def tag (text : String) : Metadata := .ofList [("tag", Bytes.ofString text)]

/-- A handler sets its headers twice and its trailers, and writes a message. It sets its headers once more, too late,
and is dropped. -/
def relabels : List (Act Bytes Nat) :=
  [.submit (.part (.metadata {})), .turn 0, .deed (.set (.headers (tag "a"))), .turn 0,
   .deed (.set (.headers (tag "b"))), .turn 0, .deed (.set (.trailers (tag "c"))), .turn 0,
   .deed (.write ⟨[1], .inherit⟩), .turn 0, .deed (.set (.headers (tag "d"))), .turn 0, .deed .lost, .turn 0, .turn 0]

/-- The second headers go ahead, the third are refused, and the trailers go with the end. -/
theorem settings_of_relabels :
    let c := run (step plain) (new plain ()) relabels
    let cause : Cause := .returned (some endedWithoutReturning)
    plain.pipeline.OnlyWatches ∧ EndsFor plain 0 (run (step plain) (new plain ()) (relabels.take 14)) cause ∧
    announced c.sent = [tag "b"] ∧ (c.pollReply 1 7).2 = .ready (.ok ()) ∧
    (c.pollReply 3 7).2 = .ready (.error headersAlreadySent) ∧
    ∃ ps y m, c.sent = ps ++ [.close (cause.tell plain y).1 m] ∧
      ∀ n, m.values n = (tag "c").values n ++ (cause.tell plain y).2.values n := by
  intro c cause
  have watches : plain.pipeline.OnlyWatches := fun i mem => by cases mem
  have ends : EndsFor plain 0 (run (step plain) (new plain ()) (relabels.take 14)) cause :=
    .returned (.returned (some endedWithoutReturning)) [] (some endedWithoutReturning) ⟨rfl, by decide⟩ rfl rfl rfl rfl
  have honours := settings_of_run plain watches () relabels
  have ahead : announced c.sent = [tag "b"] := rfl
  obtain ⟨ps, y, m, sent, closing, -⟩ := honours.ends (relabels.take 14) 0 [] cause rfl ends
  have went : announced ps = [tag "b"] := by
    have whole : announced (ps ++ [_]) = [tag "b"] := sent ▸ ahead
    simpa using whole
  refine ⟨watches, ends, ahead, ?_, rfl, ps, y, m, sent, fun n => ?_⟩
  · exact (honours.answered 1 (.headers (tag "b")) 7 (.tail _ (.head _))).mpr
      ⟨relabels.take 5, 0, relabels.drop 6, _, rfl, rfl, fun _ p mem => by cases mem⟩
  · rw [closing n, went, if_neg (List.cons_ne_nil _ [])]
    rfl

end Call

end Server

end CallLifecycle
