import CallLifecycle.Proofs.Server.Rest
import CallLifecycle.Proofs.Timeout.Grammar

/-!
# Which deadline a handler starts with

A call is given a timeout by the metadata of its request, by the server, by both or by neither; its deadline is told as
an instant, which the clock may be unable to tell.

* `Timeout.Given`, `Timeout.effective_eq_some_iff` — the timeouts of a call, the shortest of which holds;
* `Timeout.Due`, `Timeout.due_iff` — the deadline of a call that starts now;
* `Timeout.Due.overruns_iff`, `overruns_iff` — when the clock cannot tell it;
* `StartsWith`, `CutsShort`, `Launch`, `launch_of_metadata` — **the handler starts** with this deadline if the clock can
  tell it, and else no handler ever does, and nothing is ever sent;
* `uncut_of_tellable` — **no loop is cut off** as long as the clock can tell the timeout of the server.
-/

namespace CallLifecycle

/-! ## the shorter of two timeouts -/

theorem Duration.min_eq_iff (a b d : Duration) :
    a.min b = d ↔ (a = d ∨ b = d) ∧ d.nanos ≤ a.nanos ∧ d.nanos ≤ b.nanos := by
  rcases a with ⟨a⟩
  rcases b with ⟨b⟩
  rcases d with ⟨d⟩
  simp only [Duration.min, Duration.mk.injEq]
  split <;> simp only [Duration.mk.injEq] <;> omega

namespace Timeout

variable {m : Metadata} {server : Option Duration} {d : Duration}

/-- The timeouts that a call is given: the one that its metadata tell, and the one of the server. -/
inductive Given (m : Metadata) (server : Option Duration) : Duration → Prop
  | caller (v : Value) (n : Nat) (u : TimeUnit) (first : m.get? header = some v) (tells : Tells v.bytes n u) :
      Given m server ⟨n * u.length⟩
  | server (d : Duration) (set : server = some d) : Given m server d

theorem read_eq_some_iff :
    (read m).toOption.join = some d ↔ ∃ v n u, m.get? header = some v ∧ Tells v.bytes n u ∧ d = ⟨n * u.length⟩ := by
  cases first : m.get? header with
  | none => simp [read, first, Except.toOption]
  | some v =>
    have told := parse?_eq_some_iff v.bytes d
    rw [read_of_get? first]
    cases parsed : parse? v.bytes <;> simp_all [Except.toOption]

theorem given_iff : Given m server d ↔ (read m).toOption.join = some d ∨ server = some d := by
  rw [read_eq_some_iff]
  constructor
  · intro given
    cases given with
    | caller v n u first tells => exact .inl ⟨v, n, u, first, tells, rfl⟩
    | server d set => exact .inr set
  · rintro (⟨v, n, u, first, tells, rfl⟩ | set)
    · exact .caller v n u first tells
    · exact .server d set

/-- The shortest timeout that is given holds. -/
theorem effective_eq_some_iff :
    effective m server = some d ↔ Given m server d ∧ ∀ d', Given m server d' → d.nanos ≤ d'.nanos := by
  simp only [given_iff, effective]
  cases (read m).toOption.join with
  | none => cases server <;> simp +contextual
  | some a =>
    cases server with
    | none => simp +contextual
    | some b => simp [Duration.min_eq_iff, or_imp, forall_and]

theorem effective_eq_none_iff : effective m server = none ↔ ∀ d, ¬ Given m server d := by
  simp only [given_iff, effective]
  cases (read m).toOption.join with
  | none => cases server <;> simp
  | some a => cases server <;> exact iff_of_false nofun fun untimed => untimed a (.inl rfl)

/-- The deadline of a call that starts now: the instant behind the shortest timeout that it is given, if any is. -/
inductive Due (m : Metadata) (server : Option Duration) (now : Instant) : Option Instant → Prop
  | never (untimed : ∀ d, ¬ Given m server d) : Due m server now none
  | behind (d : Duration) (given : Given m server d)
      (shortest : ∀ d', Given m server d' → d.nanos ≤ d'.nanos) : Due m server now (some (now + d.nanos))

/-- Every call has one deadline, or none. -/
theorem due_iff {now : Instant} {due : Option Instant} :
    Due m server now due ↔ due = (effective m server).map fun d => now + d.nanos := by
  constructor
  · intro h
    cases h with
    | never untimed =>
      rw [effective_eq_none_iff.mpr untimed]
      rfl
    | behind d given shortest =>
      rw [effective_eq_some_iff.mpr ⟨given, shortest⟩]
      rfl
  · rintro rfl
    cases holds : effective m server with
    | none => exact .never (effective_eq_none_iff.mp holds)
    | some d => exact .behind d (effective_eq_some_iff.mp holds).1 (effective_eq_some_iff.mp holds).2

theorem due_effective (m : Metadata) (server : Option Duration) (now : Instant) :
    Due m server now ((effective m server).map fun d => now + d.nanos) := due_iff.mpr rfl

/-- The longest timeout that metadata can tell. -/
def longest : Duration := ⟨maxCount * TimeUnit.hours.length⟩

theorem Tells.le_longest {b : Bytes} {n : Nat} {u : TimeUnit} (h : Tells b n u) : n * u.length ≤ longest.nanos := by
  have count : n ≤ maxCount := Nat.le_of_lt_succ h.lt
  have unit : u.length ≤ TimeUnit.hours.length := by cases u <;> decide
  exact Nat.mul_le_mul count unit

/-- As long as the clock can tell all that metadata can tell, only a timeout of the server goes beyond it, and only
where the metadata tell none. -/
theorem Due.overruns_iff {now : Instant} {due : Option Instant} (h : Due m server now due)
    (young : now + longest.nanos ≤ Instant.latest) :
    (∃ i ∈ due, Instant.latest < i) ↔
      (∃ t, server = some t ∧ Instant.latest < now + t.nanos) ∧
        ∀ v n u, m.get? header = some v → ¬ Tells v.bytes n u := by
  constructor
  · rintro ⟨i, mem, beyond⟩
    cases h with
    | never => cases mem
    | behind d given shortest =>
      obtain rfl := Option.some.inj mem
      -- A timeout that the caller tells is short enough, and the one that holds is no longer than it.
      have unheard (v : Value) (n : Nat) (u : TimeUnit) (first : m.get? header = some v) : ¬ Tells v.bytes n u := by
        intro tells
        have shorter : d.nanos ≤ longest.nanos := (shortest _ (.caller v n u first tells)).trans tells.le_longest
        exact Nat.not_lt_of_le ((Nat.add_le_add_left shorter now).trans young) beyond
      cases given with
      | caller v n u first tells => exact absurd tells (unheard v n u first)
      | server d set => exact ⟨⟨d, set, beyond⟩, unheard⟩
  · rintro ⟨⟨t, set, beyond⟩, unheard⟩
    cases h with
    | never untimed => exact absurd (.server t set) (untimed t)
    | behind d given shortest =>
      cases given with
      | caller v n u first tells => exact absurd tells (unheard v n u first)
      | server d set' =>
        obtain rfl := Option.some.inj (set.symm.trans set')
        exact ⟨_, rfl, beyond⟩

end Timeout

/-! ## the first metadata of a request -/

namespace Server.Call

variable {σ Out In W : Type} {s : Setup σ Out In} {c c' : Call σ Out In W} {now : Instant} {m : Metadata}
  {due : Option Instant}

theorem overruns_iff (h : Timeout.Due m s.config.timeout now due) :
    Overruns s now m ↔ ∃ i ∈ due, Instant.latest < i := by
  rw [Timeout.due_iff.mp h, Overruns]
  cases Timeout.effective m s.config.timeout <;> simp [Instant.after?]

theorem deadline_eq (h : Timeout.Due m s.config.timeout now due) (tellable : ¬ Overruns s now m) :
    ((Timeout.effective m s.config.timeout).map now.after?).join = due := by
  obtain rfl := Timeout.due_iff.mp h
  cases holds : Timeout.effective m s.config.timeout with
  | none => rfl
  | some d => simp_all [Overruns, Instant.after?]

/-- With this turn the handler starts, with these metadata and this deadline. -/
structure StartsWith (m : Metadata) (due : Option Instant) (c c' : Call σ Out In W) : Prop where
  going : Running c'
  uncut : c'.crashed = false
  handler : c'.progress.handler = .active
  trace : ∃ vs : List Visit, c'.trace = c.trace ++ vs.map .visited ++ [.started m due]
  alarm : c'.deadline = due.map Instant.alarm

theorem startsWith_of_tellable (live : Live c) {p : RequestPart} {rest : List Inbound}
    (takes : TakesUp s c p (.metadata m) rest) (idle : c.progress.handler = .idle)
    (h : Timeout.Due m s.config.timeout now due) (tellable : ¬ Overruns s now m) :
    ∃ c', c.turn s now = some c' ∧ StartsWith m due c c' := by
  obtain ⟨vs, turn⟩ := turn_eq_startHandler live now takes idle
  refine ⟨_, turn, ?_⟩
  have starts := startHandler_eq (c := ({ c with inbox := rest } : Call σ Out In W).seen (c.beyond s p) vs .receiving)
    tellable idle (by simp [seen])
  rw [starts, deadline_eq h tellable]
  exact ⟨⟨live.ended, by simp⟩, live.crashed, rfl, ⟨vs, rfl⟩, rfl⟩

section Runs

variable [DecidableEq W]

/-- The loop is cut off: no handler ever starts, and nothing is ever sent. -/
structure CutsShort (s : Setup σ Out In) (c : Call σ Out In W) : Prop where
  crashed : c.crashed = true
  isOver : ¬ Running c
  unstarted : ∀ late, (run (step s) c late).hasStarted = false
  unsent : ∀ late, (run (step s) c late).sent = []

theorem cutsShort_of_overruns {taken done : List (Outbound Out)} {said : List ResponsePart}
    (ledger : Ledger s c taken said done) (going : Running c) {p : RequestPart} {rest : List Inbound}
    (takes : TakesUp s c p (.metadata m) rest) (idle : c.progress.handler = .idle) (overruns : Overruns s now m) :
    ∃ c', c.turn s now = some c' ∧ CutsShort s c' := by
  have live := ledger.live_of_running going
  obtain ⟨vs, turn⟩ := turn_eq_startHandler live now takes idle
  obtain ⟨-, crashes⟩ := (startHandler_cases (s := s) (live.of_queues c.events c.commands rest id) idle now m
    (c.beyond s p) vs).resolve_left fun starts => starts.1 overruns
  refine ⟨_, turn, ?_⟩
  generalize ({ c with inbox := rest }.seen (c.beyond s p) vs .receiving).startHandler s now m = c' at turn crashes
  have isOver : ¬ Running c' := fun k => by simpa [crashes.ended] using k.1
  have step : c.step s (.turn now) = c' := by simp [step, turn]
  obtain ⟨_, _, behind⟩ := ledger_step ledger (.turn now)
  rw [step] at behind
  have before : c.hasStarted = false := by simpa [idle] using live.started
  have unstarted : c'.hasStarted = false := crashes.hasStarted.trans before
  have pending : c'.progress.outbound = .headersPending := crashes.outbound.trans (live.pending idle)
  exact ⟨crashes.crashed, isOver,
    fun late => (undisturbed_after behind isOver late).2.hasStarted_eq.trans unstarted,
    fun late => (unsent_after behind isOver late).2.trans (behind.sent_of_pending pending)⟩

/-- What becomes of a call whose first request metadata are taken up, and which has this deadline or none. -/
structure Launch (s : Setup σ Out In) (now : Instant) (m : Metadata) (c : Call σ Out In W) (due : Option Instant) :
    Prop where
  /-- It is the instant behind the shorter one of the timeouts that the call is given. -/
  timed : Timeout.Due m s.config.timeout now due
  /-- If the clock can tell it, the handler starts with it; … -/
  starts : (∀ i ∈ due, i ≤ Instant.latest) → ∃ c', c.turn s now = some c' ∧ StartsWith m due c c'
  /-- … if not, the loop is cut off. -/
  cutsShort : ∀ i ∈ due, Instant.latest < i → ∃ c', c.turn s now = some c' ∧ CutsShort s c'
  /-- As long as the clock can tell all that metadata can tell, that takes a timeout of the server that the clock cannot
  tell, and metadata that tell none. -/
  blame : now + Timeout.longest.nanos ≤ Instant.latest → ((∃ i ∈ due, Instant.latest < i) ↔
    (∃ t, s.config.timeout = some t ∧ Instant.latest < now + t.nanos) ∧
      ∀ v n u, m.get? Timeout.header = some v → ¬ Timeout.Tells v.bytes n u)

/-- **Whether a handler starts.** With the first metadata of a request the handler starts, with the deadline behind the
shorter one of the timeouts of the caller and the server, unless the clock cannot tell that deadline; then the loop is
cut off. -/
theorem launch_of_metadata (s : Setup σ Out In) (x : σ) {acts : List (Act Out W)} {p : RequestPart}
    {rest : List Inbound} (going : Running (run (step s) (new s x) acts))
    (takes : TakesUp s (run (step s) (new s x) acts) p (.metadata m) rest)
    (idle : (run (step s) (new s x) acts).progress.handler = .idle) (now : Instant) :
    ∃ due, Launch s now m (run (step s) (new s x) acts) due := by
  obtain ⟨said, done, ledger⟩ := ledger_after s x acts
  have due := Timeout.due_effective m s.config.timeout now
  refine ⟨_, due, fun tellable => ?_, fun i mem beyond => ?_, due.overruns_iff⟩
  · refine startsWith_of_tellable (ledger.live_of_running going) takes idle due ?_
    rw [overruns_iff due]
    rintro ⟨i, mem, beyond⟩
    exact absurd (tellable i mem) (Nat.not_le_of_lt beyond)
  · exact cutsShort_of_overruns ledger going takes idle ((overruns_iff due).mpr ⟨i, mem, beyond⟩)

/-- **No loop is cut off** as long as the clock can tell all that metadata can tell, and the timeout of the server. -/
theorem uncut_of_tellable (s : Setup σ Out In) (x : σ) {acts : List (Act Out W)}
    (young : ∀ now, .turn now ∈ acts → now + Timeout.longest.nanos ≤ Instant.latest)
    (tellable : ∀ now, .turn now ∈ acts → ∀ t, s.config.timeout = some t → now + t.nanos ≤ Instant.latest) :
    (run (step s) (new s x) acts).crashed = false := by
  by_contra crashed
  obtain ⟨early, now, late, rfl, -, -, -, p, rest, m, -, -, overruns⟩ :=
    (crashed_after_iff s x acts).mp (by simpa using crashed)
  have mem : Act.turn now ∈ early ++ .turn now :: late := by simp
  have due := Timeout.due_effective m s.config.timeout now
  obtain ⟨⟨t, set, beyond⟩, -⟩ := (due.overruns_iff (young now mem)).mp ((overruns_iff due).mp overruns)
  exact Nat.not_lt_of_le (tellable now mem t set) beyond

end Runs

def limited (d : Duration) : Setup Unit Bytes Bytes := { plain with config := { timeout := some d } }

/-- A call with so much time, when the metadata of its request wait to be taken up. -/
def waiting (d : Duration) : Call Unit Bytes Bytes Nat :=
  run (step (limited d)) (new (limited d) ()) [.submit (.part (.metadata {}))]

theorem takesUp_waiting (d : Duration) :
    Running (waiting d) ∧ TakesUp (limited d) (waiting d) (.metadata {}) (.metadata {}) [] ∧
      (waiting d).progress.handler = .idle :=
  ⟨⟨rfl, nofun⟩, ⟨rfl, rfl, rfl, rfl⟩, rfl⟩

/-- The longest duration whose seconds are a word of 64 bits. -/
def endless : Duration := .ofParts 18446744073709551615 999999999

/-- With five nanoseconds a handler starts, with endless time none does. -/
theorem launch_of_limited :
    ((Running (waiting ⟨5⟩) ∧ TakesUp (limited ⟨5⟩) (waiting ⟨5⟩) (.metadata {}) (.metadata {}) [] ∧
        (waiting ⟨5⟩).progress.handler = .idle) ∧
      ∃ c', (waiting ⟨5⟩).turn (limited ⟨5⟩) 0 = some c' ∧ StartsWith {} (some 5) (waiting ⟨5⟩) c') ∧
    (Running (waiting endless) ∧ TakesUp (limited endless) (waiting endless) (.metadata {}) (.metadata {}) [] ∧
        (waiting endless).progress.handler = .idle) ∧
      ∃ c', (waiting endless).turn (limited endless) 0 = some c' ∧ CutsShort (limited endless) c' := by
  refine ⟨⟨takesUp_waiting _, ?_⟩, takesUp_waiting _, ?_⟩
  · obtain ⟨going, takes, idle⟩ := takesUp_waiting ⟨5⟩
    obtain ⟨due, launch⟩ := launch_of_metadata (limited ⟨5⟩) () going takes idle 0
    obtain rfl : due = some 5 := Timeout.due_iff.mp launch.timed
    exact launch.starts (by decide)
  · obtain ⟨going, takes, idle⟩ := takesUp_waiting endless
    obtain ⟨due, launch⟩ := launch_of_metadata (limited endless) () going takes idle 0
    obtain rfl : due = some endless.nanos := (Timeout.due_iff.mp launch.timed).trans (by decide)
    exact launch.cutsShort _ rfl (by decide)

end Server.Call

end CallLifecycle
