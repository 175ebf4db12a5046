import CallLifecycle.Part
import CallLifecycle.Timeout

/-!
# Answers

What a scenario tells of the things that it tries: a tree of texts, numbers and byte strings. Each
kind of value has one form as an answer; whoever shows answers to somebody only has to show trees.

* `Answer.ofStatus`, `Answer.ofMetadata`, `Answer.ofDuration` — the forms of single values;
* `Answer.ofResult` — a value, or the status that stands in its place;
* `Answer.ofRequestPart`, `Answer.ofResponsePart` — the parts of a call.
-/

namespace CallLifecycle.Scenario

/-- What a scenario tells. -/
inductive Answer where
  | nothing
  | flag (b : Bool)
  | number (i : Int)
  | text (s : String)
  | bytes (b : Bytes)
  | list (items : List Answer)
  | fields (items : List (String × Answer))

namespace Answer

instance : Inhabited Answer := ⟨nothing⟩

/-- A value that may be missing. -/
def optional {α : Type} (form : α → Answer) (a : Option α) : Answer := (a.map form).getD nothing

/-- The texts of a list. -/
def texts (l : List String) : Answer := list (l.map text)

/-- A value that was got. -/
def ok (a : Answer) : Answer := fields [("ok", a)]

/-- A fault that was met. -/
def err (a : Answer) : Answer := fields [("err", a)]

/-- Metadata: pairs of a name and a value, sorted by their names. -/
def ofMetadata (m : Metadata) : Answer :=
  list (m.sorted.map fun e => list [text e.1.text, bytes e.2.bytes])

/-- A value of metadata. -/
def ofValue (v : Value) : Answer := bytes v.bytes

def ofDuration (d : Duration) : Answer :=
  fields [("secs", number d.secs), ("nanos", number d.subsecNanos)]

/-- The fields of a status, its cause apart. -/
def statusFields (s : Status) : List (String × Answer) :=
  [("code", number s.code.number), ("message", text s.message), ("details", bytes s.details),
    ("metadata", ofMetadata s.metadata)]

def ofStatus (s : Status) : Answer := fields (statusFields s)

/-- A value, or the status that stands in its place. -/
def ofResult {α : Type} (form : α → Answer) : Except Status α → Answer
  | .ok a => ok (form a)
  | .error s => err (ofStatus s)

/-- Nothing, or the status that tells why something was not done. -/
def ofDone : Except Status Unit → Answer := ofResult fun _ => nothing

/-- A message, or nothing at the end of the messages. -/
def ofMessage? : Option String → Answer := optional text

/-- The fields of a request part. -/
def requestFields : RequestPart → List (String × Answer)
  | .metadata m => [("kind", text PartKind.metadata.name), ("metadata", ofMetadata m)]
  | .message data => [("kind", text PartKind.message.name), ("data", bytes data)]
  | .close => [("kind", text PartKind.close.name)]

def ofRequestPart (p : RequestPart) : Answer := fields (requestFields p)

/-- How a part is sent. -/
def optionFields (o : SendOptions) : List (String × Answer) :=
  [("compress", flag o.compress), ("flush", flag o.flush)]

def ofResponsePart : ResponsePart → Answer
  | .metadata m => fields [("kind", text PartKind.metadata.name), ("metadata", ofMetadata m)]
  | .message data o =>
    fields ([("kind", text PartKind.message.name), ("data", bytes data)] ++ optionFields o)
  | .close s t =>
    fields [("kind", text PartKind.close.name), ("status", ofStatus s), ("trailers", ofMetadata t)]

end Answer

end CallLifecycle.Scenario
