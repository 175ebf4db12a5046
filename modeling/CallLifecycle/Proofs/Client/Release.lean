import CallLifecycle.Proofs.Client.Cause
import CallLifecycle.Proofs.Client.Words

/-!
# How a client call lets go of its stream

* `Leaves`, `leaves_step` — all that a step does to a call that has not ended, and to its stream: a call that ends lets
  go of the stream, and cancels it if it ends locally;
* `untouched_after` — a call without a stream asks nothing of it;
* `LetsGo` — what is expected of a call: from its end on it holds no stream and sends nothing, and its stream was
  cancelled once if the end was a local one;
* `Belated` — the stream is handed to a call that has ended already;
* `letsGo_iff_not_belated` — **a call lets go of its stream just if it has not ended before it is handed one**. A stream
  that comes too late is held for as long as somebody holds the call, and is never cancelled.
-/

namespace CallLifecycle.Client.Call

variable {σ Out In W : Type} {s : Setup σ Out In} {c c' : Call σ Out In W}

/-! ## the stream of a call that ends -/

/-- A call that has not ended, and whose trailers are not known. -/
def Unsettled (c : Call σ Out In W) : Prop := c.finished = false ∧ c.trailing.slot = .pending

theorem Live.unsettled (h : Live c) : Unsettled c := ⟨h.finished, h.trailing⟩

/-- What a step does to a call that has not ended, and to its stream, of which it does not take hold. -/
inductive Leaves (c c' : Call σ Out In W) : Prop
  | on (ps : List RequestPart) (calls : c'.calls = c.calls ++ ps.map .send) (going : c'.finished = false)
  /-- The call ends locally. -/
  | off (ps : List RequestPart) (status : Status)
      (calls : c'.calls = c.calls ++ ps.map .send ++ if c.attached then [.cancel] else [])
      (finished : c'.finished = true) (released : c'.attached = false)
      (trailing : c'.trailing.slot = .ready (.error status))
  /-- The call ends with the end of the server. -/
  | closed (ps : List RequestPart) (trailers : Metadata) (calls : c'.calls = c.calls ++ ps.map .send)
      (finished : c'.finished = true) (released : c'.attached = false)
      (trailing : c'.trailing.slot = .ready (.ok trailers))

theorem leaves_nothing (calls : c'.calls = c.calls) (going : c'.finished = false) : Leaves c c' :=
  .on [] (by rw [calls, List.map_nil, List.append_nil]) going

theorem Leaves.behind {x : σ} {es : List (Effect W)} (spoken : Spoken c es) (h : Leaves (c.beside x es) c') :
    Leaves c c' := by
  obtain ⟨ps, sends, -⟩ := spoken
  have before := calls_beside c x sends
  cases h with
  | on qs calls going =>
    exact .on (ps ++ qs) (by rw [calls, before, List.map_append, List.append_assoc]) going
  | off qs status calls finished released trailing =>
    refine .off (ps ++ qs) status ?_ finished released trailing
    rw [calls, before, List.map_append, List.append_assoc c.calls]
    rfl
  | closed qs trailers calls finished released trailing =>
    exact .closed (ps ++ qs) trailers (by rw [calls, before, List.map_append, List.append_assoc]) finished released
      trailing

theorem leaves_terminate (h : Unsettled c) (status : Status) (stop : Stop) : Leaves c (c.terminate status stop) := by
  obtain ⟨going, pending⟩ := h
  refine .off [] status ?_ (finished_terminate c status stop) ?_ ?_
  · rw [calls_terminate, going]
    simp
  · rw [terminate_eq_settledBy going]
    rfl
  · rw [terminate_eq_settledBy going]
    exact Promise.slot_complete_of_pending pending _

theorem leaves_complete (h : Unsettled c) (status : Status) (trailers : Metadata) :
    Leaves c (c.complete status trailers) := by
  obtain ⟨going, pending⟩ := h
  refine .closed [] trailers ?_ (finished_complete c status trailers) ?_ ?_
  · rw [calls_complete, List.map_nil, List.append_nil]
  · rw [complete_eq_settledBy going]
    rfl
  · rw [complete_eq_settledBy going]
    exact Promise.slot_complete_of_pending pending _

theorem leaves_route (h : Unsettled c) (s : Setup σ Out In) (p : ResponsePart) : Leaves c (c.route s p) := by
  have routing := routing s c p
  generalize c.route s p = c' at routing ⊢
  generalize c.violation? s p = reason at routing
  cases routing with
  | ignored => exact leaves_nothing rfl h.1
  | rejected r x es hushed =>
    exact .behind (spoken_of_hushed c hushed) (leaves_terminate (c := c.beside x es) h r .inline)
  | violated reason x es hushed =>
    exact .behind (spoken_of_hushed c hushed) (leaves_terminate (c := c.beside x es) h _ .inline)
  | undecodable data o r x es hushed =>
    exact .behind (spoken_of_hushed c hushed) (leaves_terminate (c := c.beside x es) h r .inline)
  | taken q x es initial responses hushed =>
    exact .behind (x := x) (spoken_of_hushed c hushed) (leaves_nothing rfl h.1)
  | closed status trailers x es hushed =>
    exact .behind (spoken_of_hushed c hushed) (leaves_complete (c := c.beside x es) h status trailers)

theorem Sends.leaves (h : Unsettled c) {stop : Stop} {r : Except Status σ} (sends : Sends c stop r c') :
    Leaves c c' := by
  cases sends with
  | on y es spoken => exact .behind spoken (leaves_nothing rfl h.1)
  | off status y es spoken => exact .behind spoken (leaves_terminate (c := c.beside y es) h status stop)

theorem Leaves.of_writer {w : Writer (Outbound Out) Failure W} (h : Leaves { c with writer := w } c') :
    Leaves c c' := by
  cases h with
  | on ps calls going => exact .on ps calls going
  | off ps status calls finished released trailing => exact .off ps status calls finished released trailing
  | closed ps trailers calls finished released trailing => exact .closed ps trailers calls finished released trailing

theorem Leaves.woke (h : Leaves c c') (ws : List W) : Leaves c (c'.emit (ws.map .woke)) := by
  have same := calls_emit_woke c' ws
  cases h with
  | on ps calls going => exact .on ps (same.trans calls) going
  | off ps status calls finished released trailing =>
    exact .off ps status (same.trans calls) finished released trailing
  | closed ps trailers calls finished released trailing =>
    exact .closed ps trailers (same.trans calls) finished released trailing

theorem leaves_withWriter (h : Unsettled c) (s : Setup σ Out In)
    (r : Writer (Outbound Out) Failure W × List (WriterEvent (Outbound Out) Failure) × List W) :
    Leaves c (c.withWriter s r) := by
  by_cases alive : c.alive = true
  · have sends := sends_events (s := s) (c := { c with writer := r.1 }) h.1 alive r.2.1
    have leaves := Sends.leaves (c := { c with writer := r.1 }) h sends
    exact .woke (.of_writer leaves) r.2.2
  · rw [withWriter_of_dropped (by simpa using alive)]
    exact leaves_nothing (calls_emit_woke c r.2.2) h.1

theorem leaves_step [DecidableEq W] (h : Live c) (s : Setup σ Out In) {a : Act Out W} (other : a ≠ .connected) :
    Leaves c (c.step s a) := by
  have going := h.finished
  have stepped := stepped s c a
  generalize c.step s a = c' at stepped ⊢
  cases stepped with
  | beside x es hushed => exact .behind (spoken_of_hushed c hushed) (leaves_nothing rfl going)
  | ended status => exact leaves_terminate h.unsettled status .inline
  | routed p => exact leaves_route h.unsettled s p
  | said r c' active ends sends => exact sends.leaves h.unsettled
  | used r => exact leaves_withWriter h.unsettled s r
  | connected connects => exact absurd connects other
  | stopped => exact leaves_nothing (calls_emit_woke _ _) going
  | read w =>
    unfold readResponse
    split <;> exact leaves_nothing rfl going
  | took w =>
    unfold takeResponse
    split <;> exact leaves_nothing rfl going
  | dropped => exact leaves_nothing (calls_drop c) (by unfold drop; split <;> exact going)
  | engaged | awaited | waited => exact leaves_nothing rfl going

/-- What an ending step does to the stream: its call lets go of it, and cancels it if the end is a local one. -/
theorem leaves_of_ending? [DecidableEq W] (h : Live c) {a : Act Out W} {e : Ending} (ends : c.ending? s a = some e) :
    (c.step s a).finished = true ∧ (c.step s a).attached = false ∧
      ∃ ps : List RequestPart, (c.step s a).calls = c.calls ++ ps.map .send ++
        if e.isLocal && c.attached then [.cancel] else [] := by
  have other : a ≠ .connected := by
    rintro rfl
    rw [ending?_of_isQuiet rfl] at ends
    cases ends
  have goes := goes_step (s := s) h a
  rw [ends] at goes
  have trailing := goes.past.trailing
  cases leaves_step h s other with
  | on ps calls going => simp [goes.past.finished] at going
  | off ps status calls finished released known =>
    -- Which end it was is told by the trailers: only the end of the server brings them.
    have isLocal : e.isLocal = true := by
      cases e with
      | terminated => rfl
      | closed =>
        rw [known] at trailing
        cases trailing
    exact ⟨finished, released, ps, by rw [calls, isLocal, Bool.true_and]⟩
  | closed ps trailers calls finished released known =>
    have isClosed : e.isLocal = false := by
      cases e with
      | closed => rfl
      | terminated =>
        rw [known] at trailing
        cases trailing
    exact ⟨finished, released, ps, by rw [calls, isClosed, Bool.false_and]; simp⟩

/-- A call that has ended and was handed its stream behind that: it holds the stream for as long as it is held itself,
and never cancels it. -/
structure Clings (c : Call σ Out In W) : Prop where
  finished : c.finished = true
  attached : c.attached = c.alive
  uncancelled : .cancel ∉ c.calls

theorem Clings.beside (h : Clings c) (x : σ) {es : List (Effect W)} (spoken : Spoken c es) :
    Clings (c.beside x es) := by
  obtain ⟨ps, sends, -⟩ := spoken
  refine ⟨h.finished, h.attached, ?_⟩
  rw [calls_beside c x sends]
  simpa using h.uncancelled

theorem Clings.of_eq (h : Clings c) (finished : c'.finished = c.finished) (attached : c'.attached = c.attached)
    (alive : c'.alive = c.alive) (calls : c'.calls = c.calls) : Clings c' :=
  ⟨finished.trans h.finished, by rw [attached, alive, h.attached], calls ▸ h.uncancelled⟩

section Runs

variable [DecidableEq W]

/-! ## calls without a stream -/

/-- A call that holds no stream asks nothing of one until it is handed one. -/
theorem untouched_after (detached : c.attached = false) {acts : List (Act Out W)} (no : .connected ∉ acts) :
    (run (step s) c acts).attached = false ∧ (run (step s) c acts).calls = c.calls := by
  induction acts generalizing c with
  | nil => exact ⟨detached, rfl⟩
  | cons a acts ih =>
    rw [List.mem_cons, not_or] at no
    obtain ⟨other, no⟩ := no
    cases asks_step s c (Ne.symm other) with
    | on ps calls held attached =>
      have detached' : (c.step s a).attached = false := by
        by_contra taken
        simp [attached (by simpa using taken)] at detached
      obtain ⟨still, same⟩ := ih detached' no
      refine ⟨still, same.trans ?_⟩
      rw [calls, held detached, List.map_nil, List.append_nil]
    | off ps calls held released => simp [held] at detached

theorem uncancelled_of_undecided (h : Live c) {acts : List (Act Out W)} (undecided : Undecided s c acts)
    (none : .cancel ∉ c.calls) : .cancel ∉ (run (step s) c acts).calls := by
  induction acts generalizing c with
  | nil => exact none
  | cons a acts ih =>
    have goes := goes_step (s := s) h a
    rw [undecided.1] at goes
    refine ih goes undecided.2 ?_
    by_cases connects : a = .connected
    · subst connects
      simp only [step]
      split <;> exact none
    · cases leaves_step h s connects with
      | on ps calls => simpa [calls] using none
      | off ps status calls finished => simp [goes.finished] at finished
      | closed ps trailers calls finished => simp [goes.finished] at finished

/-! ## calls that are handed a stream too late -/

theorem alive_step (alive : c.alive = true) {a : Act Out W} (held : a ≠ .drop) : (c.step s a).alive = true := by
  cases a with
  | drop => exact absurd rfl held
  | routed r => exact alive_onRouted alive r
  | sendEnd =>
    simp only [step, if_pos alive]
    by_cases finished : c.finished = true
    · rwa [sendEnd_of_finished finished]
    · exact (sends_end (by simpa using finished) _).alive.trans alive
  | sendMetadata =>
    simp only [step, if_pos alive]
    exact (sends_metadata c _).alive.trans alive
  | sendMessage m =>
    simp only [step, if_pos alive]
    exact (alive_sendMessages c _ _).trans alive
  | refused | cancel | expire =>
    simp only [step, expire, if_pos alive]
    exact (alive_terminate c _ _).trans alive
  | write | finish => exact alive_withWriter alive _
  | arm =>
    simp only [step]
    split
    · split <;> exact alive
    · exact alive
  | attachWriter =>
    simp only [step, attachWriter, if_pos alive]
    split <;> exact alive
  | connected | stopWriter =>
    simp only [step]
    split <;> exact alive
  | read w =>
    simp only [step, readResponse]
    split <;> exact alive
  | take w =>
    simp only [step, takeResponse]
    split <;> exact alive
  | _ => exact alive

theorem alive_after (alive : c.alive = true) {acts : List (Act Out W)} (undropped : .drop ∉ acts) :
    (run (step s) c acts).alive = true := by
  induction acts generalizing c with
  | nil => exact alive
  | cons a acts ih =>
    rw [List.mem_cons, not_or] at undropped
    exact ih (alive_step alive (Ne.symm undropped.1)) undropped.2

theorem clings_step (h : Clings c) (s : Setup σ Out In) (a : Act Out W) : Clings (c.step s a) := by
  have finished := h.finished
  by_cases connects : a = .connected
  · subst connects
    simp only [step]
    split
    next alive => exact ⟨finished, alive.symm, h.uncancelled⟩
    next => exact h
  have stepped := stepped s c a
  generalize c.step s a = c' at stepped ⊢
  cases stepped with
  | beside x es hushed => exact h.beside x (spoken_of_hushed c hushed)
  | ended status => rwa [terminate_of_finished finished]
  | routed p =>
    have ignored : c.route s p = c := by simp [route, finished]
    rwa [ignored]
  | said r c' active ends sends =>
    cases sends with
    | on y es spoken => exact h.beside y spoken
    | off status y es spoken =>
      rw [terminate_of_finished (c := c.beside y es) finished]
      exact h.beside y spoken
  | used r =>
    rw [withWriter_of_finished finished]
    exact h.of_eq rfl rfl rfl (calls_emit_woke c r.2.2)
  | connected is => exact absurd is connects
  | stopped => exact h.of_eq rfl rfl rfl (calls_emit_woke _ _)
  | read w =>
    unfold readResponse
    split <;> exact h.of_eq rfl rfl rfl rfl
  | took w =>
    unfold takeResponse
    split <;> exact h.of_eq rfl rfl rfl rfl
  | dropped => exact ⟨by unfold drop; split <;> exact finished, rfl, calls_drop c ▸ h.uncancelled⟩
  | engaged | awaited | waited => exact h.of_eq rfl rfl rfl rfl

theorem clings_after (h : Clings c) (s : Setup σ Out In) (acts : List (Act Out W)) : Clings (run (step s) c acts) :=
  run_induction h fun _ a clings => clings_step clings s a

/-! ## runs in order -/

section Orderly

variable {shape : Shape} {request : Out} {acts more : List (Act Out W)} {a : Act Out W} {stage next : Stage}

omit [DecidableEq W]

theorem follows_of_orderly (orderly : Orderly shape request (acts ++ [a]) next) :
    ∃ stage, Orderly shape request acts stage ∧ Follows shape request stage a next := by
  generalize split : acts ++ [a] = all at orderly
  cases orderly with
  | nil => simp at split
  | snoc before follows =>
    obtain ⟨rfl, is⟩ := List.append_inj' split rfl
    obtain rfl := List.head_eq_of_cons_eq is
    exact ⟨_, before, follows⟩

theorem orderly_of_append (orderly : Orderly shape request (acts ++ more) stage) :
    ∃ before, Orderly shape request acts before := by
  induction more using List.reverseRecOn generalizing stage with
  | nil => exact ⟨stage, by simpa using orderly⟩
  | append_singleton more a ih =>
    rw [← List.append_assoc] at orderly
    obtain ⟨before, orderly, -⟩ := follows_of_orderly orderly
    exact ih orderly

theorem drop_not_mem (orderly : Orderly shape request acts stage) (unstarted : stage ≠ .started) : .drop ∉ acts := by
  induction orderly with
  | nil => exact List.not_mem_nil
  | @snoc acts stage next a orderly follows ih =>
    have before : stage ≠ .started ∧ a ≠ .drop := by
      cases follows with
      | opens opens => cases opens <;> exact ⟨nofun, nofun⟩
      | outside outside =>
        refine ⟨unstarted, ?_⟩
        rintro rfl
        cases outside
      | use use => exact absurd rfl unstarted
    rw [List.mem_append, List.mem_singleton]
    rintro (mem | is)
    · exact ih before.1 mem
    · exact before.2 is.symm

theorem alive_of_connects [DecidableEq W] (s : Setup σ Out In) (runtime : Bool) (x : σ)
    (orderly : Orderly shape request (acts ++ [.connected]) stage) :
    (run (step s) (new s shape runtime x) acts).alive = true := by
  obtain ⟨before, orderly, follows⟩ := follows_of_orderly orderly
  obtain ⟨-, rfl, -⟩ := (connected_of_follows follows).resolve_right fun h => h.1 rfl
  exact alive_after rfl (drop_not_mem orderly nofun)

theorem isOpened_of_mem (orderly : Orderly shape request acts stage) (mem : .connected ∈ acts) :
    stage.isOpened = true := by
  induction orderly with
  | nil => cases mem
  | @snoc acts stage next a orderly follows ih =>
    rcases connected_of_follows follows with ⟨-, -, rfl⟩ | ⟨other, opened⟩
    · rfl
    · rw [List.mem_append, List.mem_singleton] at mem
      exact opened (ih (mem.resolve_right (Ne.symm other)))

end Orderly

/-! ## letting go -/

/-- What is expected of a call at the end, in a run. -/
structure LetsGo (s : Setup σ Out In) (start : Call σ Out In W) (acts : List (Act Out W)) : Prop where
  /-- From its end on it holds no stream, -/
  released : ∀ early, early <+: acts → (run (step s) start early).finished = true →
    (run (step s) start early).attached = false
  /-- and sends nothing. -/
  silent : ∀ early, early <+: acts → (run (step s) start early).finished = true →
    (run (step s) start acts).sent = (run (step s) start early).sent
  /-- If it was handed a stream and ended locally, it cancelled the stream once, -/
  cancelled : ∀ early a late e, acts = early ++ a :: late → Undecided s start early →
    (run (step s) start early).ending? s a = some e → e.isLocal = true → .connected ∈ acts →
    (run (step s) start acts).calls.count .cancel = 1
  /-- and otherwise not at all. -/
  uncancelled : ∀ early a late e, acts = early ++ a :: late → Undecided s start early →
    (run (step s) start early).ending? s a = some e → e.isLocal = false ∨ .connected ∉ acts →
    .cancel ∉ (run (step s) start acts).calls

/-- A call is handed its stream when it has ended already. -/
def Belated (s : Setup σ Out In) (start : Call σ Out In W) (acts : List (Act Out W)) : Prop :=
  ∃ early late, acts = early ++ .connected :: late ∧ (run (step s) start early).finished = true

section Ending

variable {start : Call σ Out In W} {early late acts : List (Act Out W)} {a : Act Out W} {e : Ending}

/-- A call that has ended did so at a step. -/
theorem exists_ending_of_finished (live : Live start) (finished : (run (step s) start acts).finished = true) :
    ∃ early a late e, acts = early ++ a :: late ∧ Undecided s start early ∧
      (run (step s) start early).ending? s a = some e := by
  refine (undecided_or_ends s start acts).resolve_left fun undecided => ?_
  simp [(live_after live undecided).finished] at finished

theorem connected_not_mem (live : Live start) (undecided : Undecided s start early)
    (ends : (run (step s) start early).ending? s a = some e) (timely : ¬ Belated s start (early ++ a :: late)) :
    .connected ∉ late := by
  intro mem
  obtain ⟨before, behind, rfl⟩ := List.append_of_mem mem
  refine timely ⟨early ++ a :: before, behind, by simp, ?_⟩
  have goes := goes_step (s := s) (live_after live undecided) a
  rw [ends] at goes
  rw [run_append, run_cons]
  exact (over_after goes.past before).finished

/-- A call that is handed no stream behind its end holds none then, and asks nothing of the one that it held. -/
theorem untouched_of_ending? (live : Live start) (undecided : Undecided s start early)
    (ends : (run (step s) start early).ending? s a = some e) (no : .connected ∉ late) :
    (run (step s) start (early ++ a :: late)).attached = false ∧
      (run (step s) start (early ++ a :: late)).calls = ((run (step s) start early).step s a).calls := by
  obtain ⟨-, released, -⟩ := leaves_of_ending? (live_after live undecided) ends
  rw [run_append, run_cons]
  exact untouched_after released no

end Ending

section Run

variable {shape : Shape} {runtime : Bool} {x : σ} {request : Out} {acts : List (Act Out W)} {stage : Stage}

/-- A call that ends locally holds its stream until then. -/
theorem attached_of_ending? (orderly : Orderly shape request acts stage)
    (undecided : Undecided s (new s shape runtime x) acts) {a : Act Out W} {e : Ending}
    (ends : (run (step s) (new s shape runtime x) acts).ending? s a = some e) (mem : .connected ∈ acts) :
    (run (step s) (new s shape runtime x) acts).attached = true := by
  have going := going_of_ending? (live_after (live_new s shape runtime x) undecided) ends
  obtain ⟨said, done, phase, ledger⟩ := ledger_of_orderly s runtime x orderly
  exact (ledger.going going).attached (isOpened_of_mem orderly mem)

/-- Behind its end a call that is handed its stream in time asks nothing of it. -/
theorem untouched_of_timely (timely : ¬ Belated s (new s shape runtime x) acts) {early more : List (Act Out W)}
    (split : acts = early ++ more) (finished : (run (step s) (new s shape runtime x) early).finished = true) :
    (run (step s) (new s shape runtime x) early).attached = false ∧
      (run (step s) (new s shape runtime x) acts).calls = (run (step s) (new s shape runtime x) early).calls := by
  have live := live_new (W := W) s shape runtime x
  obtain ⟨early, a, late, e, rfl, undecided, ends⟩ := exists_ending_of_finished live finished
  rw [List.append_assoc, List.cons_append] at split
  subst split
  have no := connected_not_mem live undecided ends timely
  obtain ⟨-, later⟩ := untouched_of_ending? live undecided ends no
  rw [List.mem_append, not_or] at no
  obtain ⟨released, now⟩ := untouched_of_ending? live undecided ends no.1
  exact ⟨released, later.trans now.symm⟩

/-- All that such a call has asked of its stream: to send some parts, and a cancel if it held the stream when it ended
locally. -/
theorem calls_of_timely {early late : List (Act Out W)} {a : Act Out W} {e : Ending}
    (timely : ¬ Belated s (new s shape runtime x) (early ++ a :: late))
    (undecided : Undecided s (new s shape runtime x) early)
    (ends : (run (step s) (new s shape runtime x) early).ending? s a = some e) :
    ∃ asked, .cancel ∉ asked ∧ (run (step s) (new s shape runtime x) (early ++ a :: late)).calls =
      asked ++ if e.isLocal && (run (step s) (new s shape runtime x) early).attached then [.cancel] else [] := by
  have live := live_new (W := W) s shape runtime x
  obtain ⟨-, -, ps, calls⟩ := leaves_of_ending? (live_after live undecided) ends
  have no := connected_not_mem live undecided ends timely
  have before : .cancel ∉ (run (step s) (new s shape runtime x) early).calls :=
    uncancelled_of_undecided live undecided List.not_mem_nil
  refine ⟨(run (step s) (new s shape runtime x) early).calls ++ ps.map .send, by simpa using before, ?_⟩
  exact (untouched_of_ending? live undecided ends no).2.trans calls

/-- A call that is handed its stream in time lets go of it. -/
theorem letsGo_of_timely (orderly : Orderly shape request acts stage)
    (timely : ¬ Belated s (new s shape runtime x) acts) : LetsGo s (new s shape runtime x) acts := by
  have live := live_new (W := W) s shape runtime x
  refine ⟨?_, ?_, ?_, ?_⟩
  · rintro early ⟨more, split⟩ finished
    exact (untouched_of_timely timely split.symm finished).1
  · rintro early ⟨more, split⟩ finished
    rw [sent_eq_calls, sent_eq_calls, (untouched_of_timely timely split.symm finished).2]
  · rintro early a late e rfl undecided ends isLocal mem
    obtain ⟨asked, none, calls⟩ := calls_of_timely timely undecided ends
    obtain ⟨before, orderly⟩ := orderly_of_append orderly
    -- A stream that is handed over at all is so ahead of the end.
    have inTime : .connected ∈ early := by
      rcases List.mem_append.mp mem with mem | mem
      · exact mem
      · rcases List.mem_cons.mp mem with rfl | mem
        · rw [ending?_of_isQuiet rfl] at ends
          cases ends
        · exact absurd mem (connected_not_mem live undecided ends timely)
    rw [calls, isLocal, attached_of_ending? orderly undecided ends inTime]
    simp [List.count_append, List.count_eq_zero.mpr none]
  · rintro early a late e rfl undecided ends other
    obtain ⟨asked, none, calls⟩ := calls_of_timely timely undecided ends
    have unasked : (e.isLocal && (run (step s) (new s shape runtime x) early).attached) = false := by
      rcases other with isClosed | no
      · rw [isClosed, Bool.false_and]
      · rw [List.mem_append, not_or] at no
        rw [(untouched_after rfl no.1).1, Bool.and_false]
    rw [calls, unasked]
    simpa using none

/-- A call that is handed its stream too late clings to it. -/
theorem clings_of_connects (orderly : Orderly shape request (acts ++ [.connected]) stage)
    (finished : (run (step s) (new s shape runtime x) acts).finished = true) :
    Clings (run (step s) (new s shape runtime x) (acts ++ [.connected])) ∧
      (run (step s) (new s shape runtime x) (acts ++ [.connected])).attached = true := by
  have alive := alive_of_connects s runtime x orderly
  obtain ⟨before, orderly, follows⟩ := follows_of_orderly orderly
  obtain ⟨-, rfl, -⟩ := (connected_of_follows follows).resolve_right fun h => h.1 rfl
  -- Nothing can have been asked of a stream that was not there.
  have calls := (holding_of_orderly s runtime x orderly).calls.resolve_right fun h => by cases h.2.2
  rw [run_append, run_cons, run_nil]
  simp only [step, if_pos alive]
  refine ⟨⟨finished, alive.symm, ?_⟩, trivial⟩
  change .cancel ∉ (run (step s) (new s shape runtime x) acts).calls
  rw [calls]
  simp

end Run

/-- **A call lets go of its stream just if it has not ended before it is handed one**, in every run in order: then it
holds no stream from its end on, sends nothing more, and has cancelled the stream once if it ended locally. A stream
that is handed to a call that has ended is held for as long as somebody holds the call, and never cancelled. -/
theorem letsGo_iff_not_belated (s : Setup σ Out In) (shape : Shape) (runtime : Bool) (x : σ) {request : Out}
    {acts : List (Act Out W)} {stage : Stage} (orderly : Orderly shape request acts stage) :
    (LetsGo s (new s shape runtime x) acts ↔ ¬ Belated s (new s shape runtime x) acts) ∧
    (Belated s (new s shape runtime x) acts → Clings (run (step s) (new s shape runtime x) acts)) := by
  have clings {early late : List (Act Out W)} (split : acts = early ++ .connected :: late)
      (finished : (run (step s) (new s shape runtime x) early).finished = true) :
      Clings (run (step s) (new s shape runtime x) (early ++ [.connected])) ∧
        (run (step s) (new s shape runtime x) (early ++ [.connected])).attached = true := by
    rw [split, List.append_cons] at orderly
    obtain ⟨before, orderly⟩ := orderly_of_append orderly
    exact clings_of_connects orderly finished
  refine ⟨⟨?_, letsGo_of_timely orderly⟩, ?_⟩
  · rintro letsGo ⟨early, late, split, finished⟩
    -- Handed its stream behind its end, the call holds it, which one that lets go does not.
    obtain ⟨held, attached⟩ := clings split finished
    have released := letsGo.released (early ++ [.connected]) ⟨late, by simp [split]⟩ held.finished
    rw [attached] at released
    cases released
  · rintro ⟨early, late, split, finished⟩
    rw [split, List.append_cons, run_append]
    exact clings_after (clings split finished).1 s late

/-- A call whose server answers with a message, while its stream is still being opened. -/
def hasty : List (Act Bytes Nat) := beginning .unary [9] [.part (.message [1] {})] none

/-- A call that has ended before its stream is there sends its metadata, and does not let go of the stream. -/
theorem not_letsGo_hasty :
    let start : Call Unit Bytes Bytes Nat := new narrow .unary true ()
    let c := run (step narrow) start hasty
    Orderly .unary [9] hasty .started ∧ ¬ LetsGo narrow start hasty ∧ Clings c ∧ c.attached = true ∧
    c.calls = [.send (.metadata {})] := by
  intro start c
  have orderly : Orderly .unary [9] hasty .started := orderly_beginning .unary [9] _ none
  have belated : Belated narrow start hasty :=
    ⟨[.opening, .routed (.part (.message [1] {}))], [.arm, .sendMetadata, .sendMessage [9], .sendEnd], rfl, rfl⟩
  obtain ⟨letsGo, clings⟩ := letsGo_iff_not_belated narrow .unary true () orderly
  exact ⟨orderly, fun h => letsGo.mp h belated, clings belated, by decide, by decide⟩

end Runs

end CallLifecycle.Client.Call
