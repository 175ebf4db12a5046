import CallLifecycle.Scenario.HandlerTask
import CallLifecycle.Scenario.Waiting

/-!
# How a scenario runs

Between two steps everything runs that can: first the tasks, one at a time in the order of waking,
then the waits that were woken, and so on until nothing is woken any more. A task runs until it has
to wait; only the loop of the server call lets the others go first now and then. Time passes only
when a step says so; short times pass millisecond by millisecond, longer ones at once.

* `Stage.alarms` — what is due when the clock moves;
* `settle` — runs everything that can run;
* `passTime` — moves the clock.
-/

namespace CallLifecycle.Scenario

/-- Turns the loop of the server call so many times, unless it runs out of work. What a turn does to
its surroundings is done before the next turn, which may find in its queues what came of it. -/
def turnServer : Nat → Play Unit
  | 0 => pure ()
  | turns + 1 => do
    let now := (← get).clock
    let turned ← onServer fun s c =>
      match c.turn s.plan.setup now with
      | some c => (c, true)
      | none => (c, false)
    if turned.getD false then turnServer turns

/-- Runs the loop of the server call. A loop that has had its share and is still busy is woken. -/
def runServer : Play Unit := do
  turnServer Server.Call.share
  changeServer fun _ c => c.conclude
  let s ← get
  if s.server.any fun v => v.call.isBusy s.clock then wake (.task .server)

/-- Runs the task of the client's deadline. -/
def runDeadline : Play Unit := do
  let now := (← get).clock
  let task ← onClient fun s c => c.watch now (.task .deadline) s.deadline
  editClient fun s => { s with deadline := task.getD s.deadline }

/-- Wakes who waits for the end of all tasks of the server, if they have ended. -/
def wakeAtShutdown : Play Unit := do
  let s ← get
  if s.server.any ServerSide.isDone then
    s.waits.forM fun p =>
      match p.wait with
      | .shutdown => wake (.wait p.serial)
      | _ => pure ()

/-- Runs a task. -/
def runTask : Task → Play Unit
  | .server => do
    runServer
    wakeAtShutdown
  | .handler => do
    runHandler (← get).budget
    wakeAtShutdown
  | .deadline => runDeadline
  | .stopper => changeClient fun _ c => c.cancelWriter

/-- Runs everything that can run. A task that was woken while it ran goes behind all others. -/
def settle : Nat → Play Unit
  | 0 => pure ()
  | fuel + 1 => do
    let s ← get
    match s.ready, s.woken with
    | t :: rest, _ =>
      set { s with ready := rest }
      runTask t
      if t ∈ (← get).ready then lineUp t
      settle fuel
    | [], _ :: _ =>
      lookAtWoken
      settle fuel
    | [], [] => pure ()

/-- The instant that a task waits for. -/
def Stage.alarm? (s : Stage) : Task → Option Instant
  | .server => s.server.bind fun v => if v.call.ended then none else v.call.deadline
  | .handler => s.server.bind fun v => v.run.bind fun r =>
    match r.position with
    | .stepping (.sleeping alarm) => some alarm
    | _ => none
  | .deadline => s.client.bind fun c =>
    match c.deadline with
    | .sleeping alarm => some alarm
    | _ => none
  | .stopper => none

/-- The tasks that are due, the earliest first. -/
def Stage.alarms (s : Stage) : List Task :=
  let due := [Task.server, .handler, .deadline].filterMap fun t =>
    (s.alarm? t).bind fun a => if a ≤ s.clock then some (a, t) else none
  (due.mergeSort fun a b => a.1 ≤ b.1).map (·.2)

/-- Runs everything that can run, up to the next step. -/
def rest : Play Unit := do settle (← get).budget

/-- Moves the clock at once. -/
def jump (ms : Nat) : Play Unit := do
  modify fun s => { s with clock := s.clock + (Duration.ofMillis ms).nanos }
  (← get).alarms.forM fun t => wake (.task t)
  rest

/-- The longest time that passes millisecond by millisecond. -/
def longestWalk : Nat := 1000

/-- Moves the clock. -/
def passTime (ms : Nat) : Play Unit :=
  if ms ≤ longestWalk then (List.replicate ms 1).forM jump else jump ms

end CallLifecycle.Scenario
