import CallLifecycle.Scenario.Answer

/-!
# Trials of metadata

A trial carries operations out on a collection of metadata, one after the other, and tells after
each what it answered and what the collection holds then.
-/

namespace CallLifecycle.Scenario

open Answer

/-- An operation on metadata. -/
inductive MetadataOp where
  | insertText (key value : String)
  | insert (key : String) (value : Bytes)
  | append (key : String) (value : Bytes)
  | get (key : String)
  | getText (key : String)
  | getAll (key : String)
  | contains (key : String)
  | remove (key : String)
  | merge (other : Metadata)
  | equals (other : Metadata)
  | sanitized
  | iterate
  | debug
  | clear
  | unknown

namespace MetadataOp

/-- The first value of a key, which need not be a name. -/
def lookup (m : Metadata) (key : String) : Option Value := (Name.ofString? key).bind m.get?

/-- Reads a key and a value and goes on with them. -/
def withEntry (m : Metadata) (key : String) (value : Bytes)
    (act : Name → Value → Metadata × Answer) : Metadata × Answer :=
  match Name.ofString? key, Value.ofBytes? value with
  | none, _ => (m, err (text InvalidMetadata.name.cause))
  | some _, none => (m, err (text InvalidMetadata.value.cause))
  | some n, some v => act n v

/-- Carries an operation out: the collection then, and the answer. -/
def apply (m : Metadata) : MetadataOp → Metadata × Answer
  | insertText key value =>
    match m.insertText key value with
    | .ok m' => (m', ok (optional ofValue (lookup m key)))
    | .error e => (m, fields [("err", text e.message), ("sources", texts [e.cause])])
  | insert key value =>
    withEntry m key value fun n v => (m.insert n v, ok (optional ofValue (m.get? n)))
  | append key value =>
    withEntry m key value fun n v => (m.append n v, ok (flag (m.contains n)))
  | get key => (m, optional ofValue (lookup m key))
  | getText key => (m, optional text ((lookup m key).bind Value.text?))
  | getAll key => (m, list ((m.read key).map ofValue))
  | contains key => (m, flag ((Name.ofString? key).any m.contains))
  | remove key =>
    match Name.ofString? key with
    | some n => (m.remove n, optional ofValue (m.get? n))
    | none => (m, nothing)
  | merge other => (m.merge other, nothing)
  | equals other => (m, flag (m.agrees other))
  | sanitized => (m, ofMetadata m.sanitized)
  | iterate => (m, texts (m.sorted.map fun e => e.1.text))
  | debug => (m, text m.debug)
  | clear => ({}, nothing)
  | unknown => (m, text "unknown op")

end MetadataOp

/-- Carries operations out. -/
def tryMetadata : Metadata → List MetadataOp → List Answer
  | _, [] => []
  | m, op :: rest =>
    let (m, r) := op.apply m
    fields [("r", r), ("len", number m.size), ("empty", flag m.isEmpty), ("all", ofMetadata m)]
      :: tryMetadata m rest

end CallLifecycle.Scenario
