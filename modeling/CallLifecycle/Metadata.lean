import CallLifecycle.Text.Quoted

/-!
# Metadata

Metadata is what the two sides of a call tell each other beside the messages: an ordered collection
of named values, in which a name may have several values.

* `Name` — a name, in lower case; `Name.ofString?` reads one in any letter case;
* `Value` — a value: bytes without control bytes, the tab apart;
* `Metadata.values` — the values of a name, in order; the other operations are told by it;
* `Metadata.grouped` — the values in the order in which they are gone through;
* `Metadata.merge` — the values of one collection, behind those of another;
* `Metadata.sanitized` — without the names which the protocol keeps for itself.
-/

namespace CallLifecycle

/-- A character that a name may hold once its letters are in lower case. -/
def isNameChar (c : Char) : Bool :=
  c.isLower || c.isDigit || "!#$%&'*+-.^_`|~".toList.contains c

/-- A text that is a name: neither empty nor too long, and of the allowed characters only. -/
def isName (s : String) : Bool :=
  0 < s.length && s.length ≤ 65535 && s.toList.all isNameChar

/-- The name of a metadata value. -/
structure Name where
  text : String
  valid : isName text = true
  deriving DecidableEq

/-- Reads a name, in any letter case. -/
def Name.ofString? (s : String) : Option Name :=
  let lower := String.ofList (s.toList.map Char.toLower)
  if h : isName lower = true then some ⟨lower, h⟩ else none

/-- A byte that a value may hold. -/
def isValueByte (b : UInt8) : Bool := (32 ≤ b && b ≠ 127) || b = 9

/-- A byte that is a visible character, a space or a tab. -/
def isVisibleByte (b : UInt8) : Bool := (32 ≤ b && b < 127) || b = 9

/-- A metadata value. -/
structure Value where
  bytes : Bytes
  valid : bytes.all isValueByte = true
  deriving DecidableEq

namespace Value

/-- Reads a value. -/
def ofBytes? (b : Bytes) : Option Value :=
  if h : b.all isValueByte = true then some ⟨b, h⟩ else none

/-- The value as a text, if all its bytes are visible. -/
def text? (v : Value) : Option String :=
  if v.bytes.all isVisibleByte then
    some (String.ofList (v.bytes.map fun b => Char.ofNat b.toNat))
  else none

end Value

/-- Why a name or a value was refused. -/
inductive InvalidMetadata where
  | name
  | value
  deriving DecidableEq, Repr

namespace InvalidMetadata

/-- The fault itself. -/
def cause : InvalidMetadata → String
  | name => "invalid HTTP header name"
  | value => "failed to parse header value"

/-- The fault and where it is. -/
def message : InvalidMetadata → String
  | name => "invalid metadata key: " ++ cause .name
  | value => "invalid metadata value: " ++ cause .value

end InvalidMetadata

/-- Named values. Those of one name are in the order in which they were added. -/
structure Metadata where
  entries : List (Name × Value) := []
  deriving DecidableEq

namespace Metadata

instance : Inhabited Metadata := ⟨{}⟩

/-- The number of values. -/
def size (m : Metadata) : Nat := m.entries.length

def isEmpty (m : Metadata) : Bool := m.entries.isEmpty

/-- The values of a name, in order. -/
def values (m : Metadata) (n : Name) : List Value :=
  (m.entries.filter fun e => e.1 = n).map (·.2)

/-- The values of a key in any letter case, in order. A key that is no name has none. -/
def read (m : Metadata) (key : String) : List Value := ((Name.ofString? key).map m.values).getD []

/-- The first value of a name. -/
def get? (m : Metadata) (n : Name) : Option Value := (m.values n).head?

def contains (m : Metadata) (n : Name) : Bool := m.entries.any fun e => e.1 = n

/-- The names, each once, in the order of their first values. -/
def names (m : Metadata) : List Name :=
  m.entries.foldl (fun ns e => if ns.contains e.1 then ns else ns ++ [e.1]) []

/-- The values of some names, name by name. -/
def gather (m : Metadata) (ns : List Name) : List (Name × Value) :=
  ns.flatMap fun n => (m.values n).map fun v => (n, v)

/-- The entries name by name: a name stands where its first value was added. -/
def grouped (m : Metadata) : List (Name × Value) := m.gather m.names

/-- Adds a value behind those that its name has. -/
def append (m : Metadata) (n : Name) (v : Value) : Metadata := ⟨m.entries ++ [(n, v)]⟩

/-- Adds values one after the other. -/
def appendAll (m : Metadata) (es : List (Name × Value)) : Metadata := es.foldl (fun m e => m.append e.1 e.2) m

/-- Names without one of them, whose place the last one takes. -/
def vacate (n : Name) : List Name → List Name
  | [] => []
  | k :: rest => if k = n then rest.getLast?.toList ++ rest.dropLast else k :: vacate n rest

/-- Drops every value of a name. The last name takes its place. -/
def remove (m : Metadata) (n : Name) : Metadata := ⟨m.gather (vacate n m.names)⟩

/-- Drops every value of some names, one name after the other. -/
def removeAll (m : Metadata) (ns : List Name) : Metadata := ns.foldl remove m

/-- The entries with `v` at the place of the first value of `n`. -/
def replaceFirst (n : Name) (v : Value) : List (Name × Value) → List (Name × Value)
  | [] => [(n, v)]
  | e :: rest =>
    if e.1 = n then (n, v) :: rest.filter fun e => e.1 ≠ n else e :: replaceFirst n v rest

/-- Makes `v` the only value of a name. -/
def insert (m : Metadata) (n : Name) (v : Value) : Metadata := ⟨replaceFirst n v m.entries⟩

/-- The values of one collection, then those of another. -/
def merge (a b : Metadata) : Metadata := a.appendAll b.grouped

/-- Names that the protocol keeps for itself. -/
def reserved : List Name :=
  [⟨"te", by decide⟩, ⟨"user-agent", by decide⟩, ⟨"content-type", by decide⟩, ⟨"grpc-message", by decide⟩,
    ⟨"grpc-message-type", by decide⟩, ⟨"grpc-status", by decide⟩, ⟨"grpc-status-details-bin", by decide⟩]

/-- The collection without the reserved names. -/
def sanitized (m : Metadata) : Metadata := m.removeAll reserved

/-- Two collections agree if every name has the same values in both, in the same order. -/
def agrees (a b : Metadata) : Bool :=
  (a.names ++ b.names).all fun n => a.values n = b.values n

/-- The entries by the alphabet of their names, the values of one name in order. -/
def sorted (m : Metadata) : List (Name × Value) :=
  m.entries.mergeSort fun a b => decide (a.1.text ≤ b.1.text)

/-- The values that can be read of a list of names and values; the others are skipped. -/
def ofList (pairs : List (String × Bytes)) : Metadata :=
  ⟨pairs.filterMap fun p => do
    let n ← Name.ofString? p.1
    let v ← Value.ofBytes? p.2
    pure (n, v)⟩

/-- Reads a name and the text of a value and makes it the only value of the name. -/
def insertText (m : Metadata) (key text : String) : Except InvalidMetadata Metadata :=
  match Name.ofString? key with
  | none => .error .name
  | some n =>
    match Value.ofBytes? (Bytes.ofString text) with
    | none => .error .value
    | some v => .ok (m.insert n v)

/-- The collection in diagnostics. -/
def debug (m : Metadata) : String :=
  "\x7b" ++ ", ".intercalate (m.grouped.map fun e =>
    "\"" ++ e.1.text ++ "\": " ++ Text.quoteValue e.2.bytes) ++ "\x7d"

@[simp] theorem values_empty (n : Name) : ({} : Metadata).values n = [] := rfl

theorem values_append (m : Metadata) (n k : Name) (v : Value) :
    (m.append n v).values k = m.values k ++ if n = k then [v] else [] := by
  by_cases h : n = k <;> simp [values, append, List.filter_append, h]

theorem size_append (m : Metadata) (n : Name) (v : Value) : (m.append n v).size = m.size + 1 := by
  simp [size, append]

end Metadata

end CallLifecycle
