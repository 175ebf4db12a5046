import CallLifecycle.Client.Call
import CallLifecycle.Scenario.Answer
import CallLifecycle.Scenario.Interceptors
import CallLifecycle.Scenario.Message
import CallLifecycle.Server.Call

/-!
# Inspections

An inspection looks at one value and tells all that the library knows of it.

* `inspectCode`, `inspectStatus`, `inspectFailure` — codes, statuses and failures;
* `inspectTimeout`, `readTimeout` — durations and the metadata that tell them;
* `inspectCompression`, `inspectWriterConfig`, `inspectSettings` — settings;
* `recodeMessage` — messages that are read and written again;
* `inspectPipeline` — parts that pass interceptors.
-/

namespace CallLifecycle.Scenario

open Answer

/-- The code of a number. -/
def inspectCode (i : Int) : Answer :=
  let c := Code.ofInt i
  fields [("name", text c.name), ("value", number c.number), ("description", text c.description),
    ("display", text c.description), ("padded", text (c.padded 30))]

/-- A status with its texts and its causes. -/
def inspectStatus (s : Status) : Answer :=
  fields <| statusFields s ++
    [("ok", flag s.isOk), ("display", text (Failure.displayReport s)),
      ("debug", text (Failure.debugReport s)), ("sources", texts (s.causes.map Failure.display))]

/-- Ways to look at a failure. -/
inductive FailureView where
  /-- As the status it is told as. -/
  | told
  /-- As that status, if something in it is recognised. -/
  | recognised
  /-- As the status of the failure itself, whatever its cause. -/
  | own
  /-- As texts. -/
  | plain
  | unknown

/-- Looks at a failure. -/
def inspectFailure (view : FailureView) (e : Failure) : Answer :=
  match view with
  | .told => inspectStatus (Status.ofFailure e)
  | .recognised =>
    match Status.tryOfFailure e with
    | .ok s => ok (inspectStatus s)
    | .error e => err (text e.display)
  | .own => inspectStatus (e.recognised.getD default)
  | .plain =>
    fields [("display", text e.display), ("debug", text e.debug),
      ("sources", texts (e.chain.tail.map Failure.display))]
  | .unknown => text "unknown op"

/-- A duration as a timeout: the value that tells it, and what that value tells. -/
def inspectTimeout (d : Duration) : Answer :=
  let b := Timeout.encodeBytes d
  fields [("value", bytes b), ("parsed", optional ofDuration (Timeout.parse? b))]

/-- The timeout that metadata tell. -/
def readTimeout (m : Metadata) : Answer :=
  match Timeout.read m with
  | .ok d => ok (optional ofDuration d)
  | .error v => err (ofValue v)

/-- A choice of compression, and how it is settled. -/
def inspectCompression (c : CompressionChoice) (default : Bool) : Answer :=
  fields [("override", text c.name), ("resolved", flag (c.resolve default))]

/-- The marks of a writer. -/
def ofWriterConfig (c : WriterConfig) : Answer :=
  list [number c.high, number c.low, number c.limit]

/-- The settings of a writer, as they are and as they are used. -/
def inspectWriterConfig (c : WriterConfig) : Answer :=
  fields [("config", ofWriterConfig c), ("same", flag true),
    ("normalized", ofWriterConfig c.normalized), ("debug", text c.debug)]

/-- The settings of a server. -/
def ofServerConfig (c : Server.Config) : Answer :=
  list [flag c.compression, optional ofDuration c.timeout, ofWriterConfig c.writer]

/-- The settings of a client, and how many interceptors it has. -/
def ofClientConfig (c : Client.Config) (interceptors : Nat) : Answer :=
  list [flag c.compression, optional ofDuration c.timeout, ofWriterConfig c.writer,
    number interceptors, flag (interceptors = 0)]

/-- The settings of a call. -/
def ofOptions (o : Client.Options) : Answer :=
  list [ofMetadata o.metadata, optional ofDuration o.timeout, flag o.compression]

/-- The name that is taken out of the metadata of the second call. -/
def removedName : Name := ⟨"x-removed", by decide⟩

/-- Settings of servers, clients and calls, as every way to set them leaves them. -/
def inspectSettings (server : Server.Config) (client : Client.Config) (interceptors : Nat)
    (options : Client.Options) : Answer :=
  fields [("server", list (List.replicate 3 (ofServerConfig server))),
    ("client", list (List.replicate 2 (ofClientConfig client interceptors))),
    ("call", list [ofOptions options,
      ofOptions { options with metadata := options.metadata.remove removedName }])]

/-- The types of messages that can be read and written. -/
inductive MessageType where
  | message | greeting | texts | word | bytes
  deriving DecidableEq, Repr

/-- Reads a message and writes it again. -/
def recodeMessage (type : MessageType) (data : Bytes) : Answer :=
  ofResult bytes <| match type with
    | .message => recode Message.shape data
    | .greeting => recode Greeting.shape data
    | .texts => recode Json.Shape.texts data
    | .word => recode Json.Shape.word data
    | .bytes => .ok data

def ofAnyPart : AnyPart → Answer
  | .request p => ofRequestPart p
  | .response p => ofResponsePart p

/-- What became of a part. -/
def ofPassage (r : PassageReport) : Answer :=
  fields [("r", ofDone (match r.rejection with
      | none => .ok ()
      | some s => .error s)),
    ("part", ofAnyPart r.part), ("visits", texts r.visits)]

/-- Passes parts through interceptors. -/
def inspectPipeline (plans : List InterceptorPlan) (parts : List AnyPart) : Answer :=
  let l := buildPipeline plans
  fields [("len", number l.length), ("empty", flag l.isEmpty), ("debug", text l.debug),
    ("steps", list ((passParts l parts []).map ofPassage))]

end CallLifecycle.Scenario
