import CallLifecycle.Channel
import CallLifecycle.Compression
import CallLifecycle.Writer

/-!
# Message streams

The two ends of a message stream that a program holds: it reads from a channel that a cancellation
may cut off, and writes through a bounded writer.

* `readMessage` — a read: once the call is cancelled nothing that is queued is read any more;
* `readItem` — a read of the stream as a sequence of items;
* `Outbound` — a message with what it asks of compression.
-/

namespace CallLifecycle

/-- The status of a read that a cancellation cut off. -/
def callWasCancelled : Status := Status.of .cancelled "call was cancelled"

/-- Reads the next message, unless the call was cancelled. -/
def readMessage {α W : Type} [DecidableEq W] (t : Token W) (c : Channel α Status W) (w : W) :
    Token W × Channel α Status W × Poll (Except Status (Option α)) :=
  match t.poll w with
  | (t, true) => (t, c, .ready (.error (c.failure.getD callWasCancelled)))
  | (t, false) =>
    let (c, r) := c.poll w
    (t, c, r)

/-- Looks for the next item of a stream, whose failure is its last item. -/
def readItem {α W : Type} [DecidableEq W] (t : Token W) (c : Channel α Status W) (done : Bool) (w : W) :
    Token W × Channel α Status W × Bool × Poll (Item α Status) :=
  let read (x : Token W × Channel α Status W) :=
    let (t, c, r) := readMessage x.1 x.2 w
    ((t, c), r)
  let ((t, c), done, r) := nextItem read (t, c) done
  (t, c, done, r)

/-- A message to be sent. -/
structure Outbound (α : Type) where
  message : α
  compression : CompressionChoice := .inherit

/-- A message stream to be read, in diagnostics. -/
def debugStreaming {α W : Type} (c : Channel α Status W) (done : Bool) : String :=
  Text.record "Streaming" [("inner", c.debugStream), ("done", Text.flag done)]

/-- A message stream to be written, in diagnostics. -/
def debugStreamWriter {α ε W : Type} (w : Writer α ε W) : String :=
  Text.record "StreamWriter" [("finished", Text.flag w.isFinished)]

/-- The status of a write that was refused or did not stay. -/
def WriteFailure.status (f : WriteFailure) : Status := Status.of f.code f.message

end CallLifecycle
