import CallLifecycle.Scenario.Answer
import CallLifecycle.Writer

/-!
# Trials of writers

A trial writes numbers through a writer and plays its sink. Its wakers are numbers; a write that is
suspended, and a wait until the writer has drained, stand under a number until they are answered or
dropped.
-/

namespace CallLifecycle.Scenario

open Answer

/-- An operation on a writer. -/
inductive WriterOp where
  | write (id : Nat) (element : Int) (waker : Nat)
  | drained (id waker : Nat)
  /-- Looks again at what stands under a number. -/
  | poll (id waker : Nat)
  | drop (id : Nat)
  | setWritable (b : Bool)
  | finish
  | fail (reason : String)
  | cancel (reason : String)
  /-- Cancels the writer from a task of its own, if there can be one. -/
  | cancelLater (reason : String)
  /-- Runs the tasks. -/
  | settle
  | config
  | debug
  | unknown

/-- What stands under a number. -/
inductive WriterWait where
  | capacity
  | drained
  deriving DecidableEq, Repr

/-- A writer, what stands, and the reasons that its tasks are to cancel it with. -/
structure WriterTrial where
  writer : Writer Int String Nat
  /-- Tasks can be started. -/
  runtime : Bool
  waits : List (Nat × WriterWait) := []
  tasks : List String := []

/-- What a trial of a writer has done: the state then, the answer, what the sink was told and who
was woken. -/
structure WriterOutcome where
  trial : WriterTrial
  answer : Answer := .nothing
  events : List (WriterEvent Int String) := []
  woken : List Nat := []

/-- What the sink was told. -/
def ofWriterEvent : WriterEvent Int String → Answer
  | .yielded batch => fields [("yield", list (batch.map number))]
  | .terminated reason => fields [("terminate", optional text reason)]

/-- What a look at a suspended write gave. -/
def ofCapacity : Poll (Except WriteFailure Unit) → Answer
  | .pending => text "pending"
  | .ready (.ok _) => text "ok"
  | .ready (.error f) => err (text f.message)

/-- What a look at a writer that drains gave. -/
def ofDrained : Poll Unit → Answer
  | .pending => text "pending"
  | .ready _ => text "drained"

namespace WriterTrial

/-- Takes away what stands under a number. -/
def without (t : WriterTrial) (id : Nat) : WriterTrial :=
  { t with waits := t.waits.filter fun w => w.1 ≠ id }

/-- Leaves something standing under a number. -/
def leave (t : WriterTrial) (id : Nat) (wait : WriterWait) : WriterTrial :=
  { t with waits := (id, wait) :: t.waits }

/-- Looks at something that stands, or is to stand, under a number. -/
def look (t : WriterTrial) (id waker : Nat) (wait : WriterWait) : WriterTrial × Answer :=
  match wait with
  | .capacity =>
    let (writer, r) := t.writer.pollCapacity waker
    let t := { t.without id with writer }
    (if r.isReady then t else t.leave id wait, ofCapacity r)
  | .drained =>
    let (writer, r) := t.writer.pollDrained waker
    let t := { t.without id with writer }
    (if r.isReady then t else t.leave id wait, ofDrained r)

/-- Takes over what was done to the writer. -/
def changed (t : WriterTrial)
    (r : Writer Int String Nat × List (WriterEvent Int String) × List Nat) : WriterOutcome :=
  { trial := { t with writer := r.1 }, events := r.2.1, woken := r.2.2 }

/-- Runs the tasks, in the order in which they were started. -/
def runTasks (t : WriterTrial) : WriterOutcome :=
  t.tasks.foldl
    (fun o reason =>
      let (writer, events, woken) := o.trial.writer.cancel reason
      { o with trial := { o.trial with writer }, events := o.events ++ events,
               woken := o.woken ++ woken })
    { trial := { t with tasks := [] } }

/-- Carries an operation out. -/
def apply (t : WriterTrial) : WriterOp → WriterOutcome
  | .write id element waker =>
    let (writer, admission, events) := t.writer.offer element
    let t := { t.without id with writer }
    match admission with
    | .refused f => { trial := t, answer := err (text f.message), events }
    | .done => { trial := t, answer := text "ok", events }
    | .suspended =>
      let (trial, answer) := t.look id waker .capacity
      { trial, answer, events }
  | .drained id waker =>
    let (trial, answer) := t.look id waker .drained
    { trial, answer }
  | .poll id waker =>
    match t.waits.lookup id with
    | none => { trial := t, answer := text "none" }
    | some wait =>
      let (trial, answer) := t.look id waker wait
      { trial, answer }
  | .drop id => { trial := t.without id, answer := flag (t.waits.lookup id).isSome }
  | .setWritable b => t.changed (t.writer.setWritable b)
  | .finish => t.changed (t.writer.finish none)
  | .fail reason => t.changed (t.writer.finish (some reason))
  | .cancel reason => t.changed (t.writer.cancel reason)
  | .cancelLater reason =>
    if t.runtime then { trial := { t with tasks := t.tasks ++ [reason] } }
    else t.changed (t.writer.cancel reason)
  | .settle => t.runTasks
  | .config =>
    let c := t.writer.config
    { trial := t, answer := list [number c.high, number c.low, number c.limit] }
  | .debug => { trial := t, answer := text t.writer.debug }
  | .unknown => { trial := t, answer := text "unknown op" }

end WriterTrial

/-- Carries operations out. -/
def tryWriter : WriterTrial → List WriterOp → List Answer
  | _, [] => []
  | t, op :: rest =>
    let o := t.apply op
    let w := o.trial.writer
    fields [("r", o.answer), ("events", list (o.events.map ofWriterEvent)),
      ("woken", list ((o.woken.mergeSort).map fun (n : Nat) => number n)),
      ("pending", number w.pending.length), ("finished", flag w.isFinished)]
      :: tryWriter o.trial rest

end CallLifecycle.Scenario
