import CallLifecycle.Proofs.Client.Expiry
import CallLifecycle.Proofs.Server.Expiry

/-!
# The time of a call

Both sides of a call keep its time: the loop of the server's call by an alarm of its own, the client's call by a task
beside it. Alarms are taken as they are told to go off, never before their instant, and are seen by who looks behind it.

* `Server.Call.Timely` — the deadline bounds the runs of a server's call, and nothing expires too soon or too late;
* `Client.Watched.Timely` — and those of a client's call;
* `calls_timely` — **both are timely**, whatever is done to them.
-/

namespace CallLifecycle

namespace Server.Call

/-- The deadline of a server's call in its runs. It is the instant behind the shorter of the caller's timeout and the
server's, counted from the turn that takes up the metadata of the request. -/
structure Timely {σ Out In : Type} (W : Type) [DecidableEq W] (s : Setup σ Out In) (x : σ) : Prop where
  /-- Behind it the end was sent, once the loop has nothing to do. -/
  ends : ∀ {early late : List (Act Out W)} {now due clock : Instant}, Arms s now (run (step s) (new s x) early) due →
    due ≤ clock → (run (step s) (new s x) (early ++ .turn now :: late)).isBusy clock = false →
      EndSent s (run (step s) (new s x) (early ++ .turn now :: late))
  /-- The turn that ends the call because its time ran out does not come before it. -/
  punctual : ∀ {acts : List (Act Out W)} {now : Instant}, Expires now (run (step s) (new s x) acts) →
    EndsFor s now (run (step s) (new s x) acts) (.failed .deadlineExceeded) ∧
    ∃ early started late due, acts = early ++ .turn started :: late ∧
      Arms s started (run (step s) (new s x) early) due ∧ due.alarm ≤ now ∧ (due ≤ Instant.latestAlarm → due ≤ now)
  /-- Behind the end the clock tells the call nothing. -/
  rests : ∀ {acts : List (Act Out W)}, EndSent s (run (step s) (new s x) acts) → ∀ now late,
    (run (step s) (new s x) (acts ++ late)).turn s now = none ∧
      (run (step s) (new s x) (acts ++ late)).sent = (run (step s) (new s x) acts).sent

theorem timely {σ Out In W : Type} [DecidableEq W] (s : Setup σ Out In) (x : σ) : Timely W s x where
  ends := endSent_of_due x
  punctual := by
    intro acts now expires
    obtain ⟨early, started, late, due, split, arms, goesOff⟩ := exists_arms_of_expires s x expires
    refine ⟨expires.endsFor, early, started, late, due, split, arms, goesOff, ?_⟩
    intro reached
    rwa [Instant.alarm_eq reached] at goesOff
  rests := by
    intro acts ends now late
    exact rests_of_ended s x ends.1 now late

end Server.Call

namespace Client.Watched

open Call

/-- The timeout of a client's call in its runs, on a runtime that can start tasks. It is that of the call, and else that
of the client. -/
structure Timely {σ Out In : Type} (W : Type) [DecidableEq W] (s : Setup σ Out In) (shape : Shape) (x : σ) :
    Prop where
  /-- When it elapsed behind the first run of the task that was started for it, and the task runs, the call is over if
  somebody holds it. Its status tells that it expired, if nothing ended it before. -/
  bounded : ∀ {d : Duration}, (s.options.timeout <|> s.config.timeout) = some d →
    ∀ {early late : List (Tick Out W)} {calm : List (Act Out W)} {started now : Instant} {v w : W},
      .arm ∉ calm ∧ .act .arm ∉ late → started + d.nanos ≤ now → now ≤ Instant.latest →
        let ticks := early ++ .act .arm :: calm.map .act ++ .watch started v :: late ++ [.watch now w]
        let c := (run (step s) (new s shape true x) ticks).call
        c.alive = true → c.finished = true ∧
          (Unended s (new s shape true x) ticks →
            ∃ status, status.code = .deadlineExceeded ∧ ∀ k, (c.pollStatus k).2 = .ready status)
  /-- A run of the task that ends the call does not come before it. -/
  punctual : ∀ {ticks : List (Tick Out W)} {now : Instant} {w : W},
    Going (run (step s) (new s shape true x) ticks).call →
    ¬ Going (run (step s) (new s shape true x) (ticks ++ [.watch now w])).call →
      ∃ early started v late d, ticks ++ [.watch now w] = early ++ .watch started v :: late ∧
        (s.options.timeout <|> s.config.timeout) = some d ∧ .act .arm ∈ early ∧ Instant.alarmAfter started d ≤ now ∧
        (started + d.nanos ≤ Instant.latest → started + d.nanos ≤ Instant.latestAlarm → started + d.nanos ≤ now)

theorem timely {σ Out In W : Type} [DecidableEq W] (s : Setup σ Out In) (shape : Shape) (x : σ) :
    Timely W s shape x where
  bounded := by
    intro d timeout early late calm started now v w once elapsed tellable ticks c alive
    obtain ⟨finished, expired⟩ := over_of_elapsed s shape x timeout once elapsed tellable alive
    exact ⟨finished, fun unended => ⟨_, Status.code_ofFailure_deadlineExceeded, expired unended⟩⟩
  punctual := by
    intro ticks now w going ends
    obtain ⟨_, ⟨early, started, v, late, d, split, timeout, arms, rfl⟩, goesOff⟩ :=
      wasSet_of_ends s shape true x going ends
    refine ⟨early, started, v, late, d, split, timeout, arms, goesOff, ?_⟩
    intro tellable reached
    exact Nat.le_trans (Instant.le_alarmAfter tellable reached) goesOff

end Client.Watched

/-- **Both sides keep the time of a call**, whatever its handler, its transport and its handles do. -/
theorem calls_timely {σ Out In τ Request Response W V : Type} [DecidableEq W] [DecidableEq V]
    (server : Server.Setup σ Out In) (x : σ) (client : Client.Setup τ Request Response) (shape : Client.Shape) (y : τ) :
    Server.Call.Timely W server x ∧ Client.Watched.Timely V client shape y :=
  ⟨Server.Call.timely server x, Client.Watched.timely client shape y⟩

/-! ## a call that nobody ends -/

section

open Server.Call (Arms Expires EndSent)

/-- A server whose calls have five nanoseconds. -/
def hurried : Server.Setup Unit Bytes Bytes where
  config := { timeout := some ⟨5⟩ }
  codec := .bytes
  pipeline := []
  delegate := .plain

/-- The handler of a call writes a message for a transport that is not writable, and never returns. -/
def stalled : List (Server.Act Bytes Nat) :=
  [.submit (.writable false), .deed (.awaitCancelled 0), .turn 1, .deed (.write ⟨[1], .inherit⟩), .turn 2]

/-- A client whose calls have three nanoseconds. -/
def impatient : Client.Setup Unit Bytes Bytes where
  config := { timeout := some ⟨3⟩ }
  options := {}
  codec := .bytes
  pipeline := []

/-- The program writes a message, and waits. -/
def waiting : List (Client.Tick Bytes Nat) :=
  [.act .sendMetadata, .act .attachWriter, .act (.write ⟨[1], .inherit⟩), .watch 7 0, .act (.awaitStatus 1)]

/-- The call of the server ends when the alarm goes off, and no sooner; that of the client is over, and has expired. -/
theorem timely_of_stalled :
    let early : List (Server.Act Bytes Nat) := [.submit (.part (.metadata {}))]
    let start : Server.Call Unit Bytes Bytes Nat := .new hurried ()
    let ticks : List (Client.Tick Bytes Nat) :=
      [.act .opening, .act .connected] ++ .act .arm :: [].map .act ++ .watch 5 0 :: waiting ++ [.watch 8 0]
    let call := (run (Client.Watched.step impatient) (Client.Watched.new impatient .bidi true ()) ticks).call
    Arms hurried 0 (run (Server.Call.step hurried) start early) 5 ∧
    EndSent hurried (run (Server.Call.step hurried) start (early ++ .turn 0 :: (stalled ++ [.turn 5]))) ∧
    (∃ first started late due, early ++ .turn 0 :: stalled = first ++ .turn started :: late ∧
      Arms hurried started (run (Server.Call.step hurried) start first) due ∧ due.alarm ≤ 5) ∧
    call.alive = true ∧ call.finished = true ∧
    ∃ status, status.code = .deadlineExceeded ∧ ∀ k, (call.pollStatus k).2 = .ready status := by
  intro early start ticks call
  obtain ⟨server, client⟩ := calls_timely (W := Nat) (V := Nat) hurried () impatient .bidi ()
  have arms : Arms hurried 0 (run (Server.Call.step hurried) start early) 5 :=
    ⟨.metadata {}, {}, [], ⟨rfl, by decide⟩, ⟨rfl, rfl, rfl, rfl⟩, rfl, Timeout.due_iff.mpr rfl, by decide⟩
  have ends : EndSent hurried (run (Server.Call.step hurried) start (early ++ .turn 0 :: (stalled ++ [.turn 5]))) :=
    server.ends arms (Nat.le_refl 5) (by decide)
  have expires : Expires 5 (run (Server.Call.step hurried) start (early ++ .turn 0 :: stalled)) :=
    ⟨⟨by decide, by decide⟩, List.isEmpty_iff.mp (by decide), List.isEmpty_iff.mp (by decide),
      List.isEmpty_iff.mp (by decide), .inl (by decide), 5, by decide, by decide⟩
  obtain ⟨-, first, started, late, due, split, armed, goesOff, -⟩ := server.punctual expires
  have alive : call.alive = true := by decide
  have once : .arm ∉ ([] : List (Client.Act Bytes Nat)) ∧ .act .arm ∉ waiting := ⟨by simp, by simp [waiting]⟩
  have elapsed : (5 : Instant) + 3 ≤ 8 := by decide
  have timeout : (impatient.options.timeout <|> impatient.config.timeout) = some ⟨3⟩ := rfl
  obtain ⟨finished, expired⟩ := client.bounded timeout once elapsed (by decide) alive
  refine ⟨arms, ends, ⟨first, started, late, due, split, armed, goesOff⟩, alive, finished, expired ?_⟩
  exact ⟨fun _ => rfl, fun _ => rfl, fun _ => rfl, fun _ => rfl, fun _ => rfl, fun _ => rfl, fun _ => rfl, trivial⟩

end

end CallLifecycle
