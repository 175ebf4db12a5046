import CallLifecycle.Proofs.Client.Routing

/-!
# What a step of a client call changes

* `Stepped`, `stepped` — **all that a step does**, whether its call goes on, has ended or was dropped. What a whole run
  keeps is shown along these cases;
* `Keeps`, `keeps_step`, `keeps_after` — what is kept of a call that goes on.
-/

namespace CallLifecycle

theorem Token.raised_poll {W : Type} [DecidableEq W] (t : Token W) (w : W) : (t.poll w).1.raised = t.raised := by
  unfold poll
  split <;> rfl

namespace Client

/-- A step that neither sends something nor changes what the call holds. -/
def Act.isPassive {Out W : Type} : Act Out W → Bool
  | .sendMetadata | .sendMessage _ | .sendEnd | .write _ | .finish | .routed (.writable _) => false
  | .connected | .attachWriter => false
  | _ => true

namespace Call

variable {σ Out In W : Type} [DecidableEq W]

/-- All that a step does. -/
inductive Stepped (s : Setup σ Out In) (c : Call σ Out In W) (a : Act Out W) : Call σ Out In W → Prop
  /-- Something happens beside the call, if anything. -/
  | beside (x : σ) (es : List (Effect W)) (hushed : Hushed es) : Stepped s c a (c.beside x es)
  | ended (status : Status) (ends : c.ending? s a = some (.terminated status)) :
      Stepped s c a (c.terminate status .inline)
  | routed (p : ResponsePart) (told : a = .routed (.part p)) : Stepped s c a (c.route s p)
  | said (r : Except Status σ) (c' : Call σ Out In W) (active : a.isPassive = false)
      (ends : c.ending? s a = Ending.ofSending r) (sends : Sends c .inline r c') : Stepped s c a c'
  | used (r : Writer (Outbound Out) Failure W × List (WriterEvent (Outbound Out) Failure) × List W)
      (active : a.isPassive = false)
      (ends : c.alive = true → c.ending? s a = Ending.ofSending (s.sendEvents c.surroundings r.2.1)) :
      Stepped s c a (c.withWriter s r)
  | connected (connects : a = .connected) : Stepped s c a { c with attached := true }
  | engaged (active : a.isPassive = false) : Stepped s c a { c with holdsWriter := true }
  /-- The request writer comes too late, or a task cancels it. -/
  | stopped (why : a.isPassive = false ∨ a = .stopWriter ∧ c.trace.any Effect.isStopping = true) :
      Stepped s c a c.cancelWriter
  /-- A wait for the request writer is looked at. -/
  | awaited (w : Writer (Outbound Out) Failure W) (sound : c.writer.Sound → w.Sound)
      (pending : w.pending = c.writer.pending) (completion : w.completion = c.writer.completion) :
      Stepped s c a { c with writer := w }
  /-- A wait for the end of the call is looked at. -/
  | waited (initial trailing : Promise (Except Status Metadata) W) (status : Promise Status W) (done : Token W)
      (known : initial.isCompleted = c.initial.isCompleted) (raised : done.raised = c.done.raised) :
      Stepped s c a { c with initial, trailing, status, done }
  | read (w : W) (reads : a = .read w) : Stepped s c a (c.readResponse w).1
  | took (w : W) (takes : a = .take w) : Stepped s c a (c.takeResponse w).1
  | dropped : Stepped s c a c.drop

theorem stepped (s : Setup σ Out In) (c : Call σ Out In W) (a : Act Out W) : Stepped s c a (c.step s a) := by
  have nothing : Stepped s c a c := by
    have same : Stepped s c a (c.beside c.surroundings []) := .beside _ _ hushed_nil
    rwa [beside_nil] at same
  cases a with
  | routed r =>
    cases r with
    | part p => exact .routed p rfl
    | failure e =>
      simp only [step, onRouted, fail]
      split
      · exact .ended _ (by simp [ending?, *])
      · exact nothing
    | writable b =>
      simp only [step, onRouted, setWritable]
      split
      · rename_i holds
        obtain ⟨alive, holds⟩ : c.alive = true ∧ c.holdsWriter = true := by simpa using holds
        exact .used _ rfl fun _ => by simp [ending?, handsOver, alive, holds]
      · exact nothing
  | opening => exact .beside c.surroundings [.opened] ⟨rfl, rfl⟩
  | refused e =>
    simp only [step]
    split
    · exact .ended _ (by simp [ending?, *])
    · exact nothing
  | connected =>
    simp only [step]
    split
    · exact .connected rfl
    · exact nothing
  | arm =>
    simp only [step]
    split
    · split
      · exact .beside c.surroundings [.armed _] ⟨rfl, rfl⟩
      · exact nothing
    · exact nothing
  | sendMetadata =>
    simp only [step]
    split
    · exact .said _ _ rfl (by simp [ending?, *]) (sends_metadata c _)
    · exact nothing
  | sendMessage m =>
    simp only [step]
    split
    · by_cases finished : c.finished = true
      · rwa [sendMessages_of_finished finished]
      · exact .said _ _ rfl (by simp [ending?, *]) (sends_messages (by simpa using finished) _ _)
    · exact nothing
  | sendEnd =>
    simp only [step]
    split
    · by_cases finished : c.finished = true
      · rwa [sendEnd_of_finished finished]
      · exact .said _ _ rfl (by simp [ending?, *]) (sends_end (by simpa using finished) _)
    · exact nothing
  | attachWriter =>
    simp only [step, attachWriter]
    split
    · split
      · exact .stopped (.inl rfl)
      · exact .engaged rfl
    · exact nothing
  | cancel =>
    simp only [step]
    split
    · exact .ended _ (by simp [ending?, *])
    · exact nothing
  | expire =>
    simp only [step, expire]
    split
    · exact .ended _ (by simp [ending?, *])
    · exact nothing
  | write m =>
    exact .used ((c.writer.offer m).1, (c.writer.offer m).2.2, []) rfl fun alive => by simp [ending?, handsOver, alive]
  | finish => exact .used _ rfl fun alive => by simp [ending?, handsOver, alive]
  | stopWriter =>
    simp only [step]
    split
    · exact .stopped (.inr ⟨rfl, ‹_›⟩)
    · exact nothing
  | awaitWrite w =>
    exact .awaited _ (fun sound => Writer.sound_pollCapacity sound w) (Writer.pending_pollCapacity _ _)
      (Writer.completion_pollCapacity _ _)
  | awaitDrained w =>
    exact .awaited _ (fun sound => Writer.sound_pollDrained sound w) (Writer.pending_pollDrained _ _)
      (Writer.completion_pollDrained _ _)
  | read w => exact .read w rfl
  | take w => exact .took w rfl
  | awaitInitial w =>
    exact .waited (c.initial.poll w).1 c.trailing c.status c.done (by simp [Promise.isCompleted, Promise.slot_poll]) rfl
  | awaitTrailing w => exact .waited c.initial (c.trailing.poll w).1 c.status c.done rfl rfl
  | awaitStatus w => exact .waited c.initial c.trailing (c.status.poll w).1 c.done rfl rfl
  | awaitDone w => exact .waited c.initial c.trailing c.status (c.done.poll w).1 rfl (Token.raised_poll _ w)
  | drop => exact .dropped

/-! ## calls that go on -/

omit [DecidableEq W] in
theorem not_going_of_finished {c : Call σ Out In W} (h : c.finished = true) : ¬ Going c := by simp [Going, h]

omit [DecidableEq W] in
/-- What is kept of a call `c` that goes on as `c'`: it went on before, it still holds its request writer, and nobody
was told that it is over. -/
structure Keeps (c c' : Call σ Out In W) : Prop where
  going : Going c
  holdsWriter : c.holdsWriter = true → c'.holdsWriter = true
  raised : c'.done.raised = c.done.raised
  runtime : c'.runtime = c.runtime

omit [DecidableEq W] in
theorem Sends.keeps {c c' : Call σ Out In W} {stop : Stop} {r : Except Status σ} (h : Sends c stop r c')
    (going : Going c') : Keeps c c' := by
  cases h with
  | on y es => exact ⟨going, id, rfl, rfl⟩
  | off status y es => exact absurd going (not_going_of_finished (finished_terminate _ _ _))

theorem keeps_step (s : Setup σ Out In) (c : Call σ Out In W) (a : Act Out W) (going : Going (c.step s a)) :
    Keeps c (c.step s a) := by
  have stepped := stepped s c a
  have isOver {status : Status} {stop : Stop} (d : Call σ Out In W) (k : Going (d.terminate status stop)) : False :=
    not_going_of_finished (finished_terminate _ _ _) k
  generalize c.step s a = c' at stepped going ⊢
  cases stepped with
  | beside | connected | stopped | awaited => exact ⟨going, id, rfl, rfl⟩
  | waited initial trailing status done known raised => exact ⟨going, id, raised, rfl⟩
  | engaged => exact ⟨going, fun _ => rfl, rfl, rfl⟩
  | ended => exact (isOver _ going).elim
  | dropped => simp [drop, Going] at going
  | routed p =>
    have routing := routing s c p
    generalize c.route s p = c' at routing going ⊢
    generalize c.violation? s p = reason at routing
    cases routing with
    | ignored | taken => exact ⟨going, id, rfl, rfl⟩
    | rejected | violated | undecodable => exact (isOver _ going).elim
    | closed => exact absurd going (not_going_of_finished (finished_complete _ _ _))
  | said r c' active ends sends => exact sends.keeps going
  | used r =>
    by_cases finished : c.finished = true
    · rw [withWriter_of_finished finished] at going ⊢
      exact ⟨going, id, rfl, rfl⟩
    by_cases alive : c.alive = true
    · have sends := sends_events (s := s) (c := { c with writer := r.1 }) (by simpa using finished) alive r.2.1
      obtain ⟨before, holds, raised, runtime⟩ := sends.keeps going
      exact ⟨before, holds, raised, runtime⟩
    · rw [withWriter_of_dropped (by simpa using alive)] at going ⊢
      exact ⟨going, id, rfl, rfl⟩
  | read w =>
    unfold readResponse at going ⊢
    split at going
    · exact ⟨going, by simp_all, by simp_all, by simp_all⟩
    · exact ⟨going, by simp_all, by simp_all, by simp_all⟩
  | took w =>
    unfold takeResponse at going ⊢
    split at going
    · exact ⟨going, by simp_all, by simp_all, by simp_all⟩
    · exact ⟨going, by simp_all, by simp_all, by simp_all⟩

theorem keeps_after {s : Setup σ Out In} {c : Call σ Out In W} {acts : List (Act Out W)}
    (going : Going (run (step s) c acts)) : Keeps c (run (step s) c acts) := by
  induction acts generalizing c with
  | nil => exact ⟨going, id, rfl, rfl⟩
  | cons a acts ih =>
    have rest := ih going
    have first := keeps_step s c a rest.going
    exact ⟨first.going, rest.holdsWriter ∘ first.holdsWriter, rest.raised.trans first.raised,
      rest.runtime.trans first.runtime⟩

theorem going_of_after {s : Setup σ Out In} {c : Call σ Out In W} {acts : List (Act Out W)}
    (going : Going (run (step s) c acts)) : Going c := (keeps_after going).going

end Call

end Client

end CallLifecycle
