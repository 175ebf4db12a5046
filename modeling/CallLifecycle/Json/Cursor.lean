import CallLifecycle.Text.Quoted

/-!
# Reading JSON, byte by byte

A reader moves a cursor over a byte string. A fault is told with the place where it was found; a
fault that has no place yet gets the place of the cursor when the value around it is left.

* `Cursor` — the bytes left, and the line and column of the next one;
* `Fault` — what can be wrong, with its text;
* `Reader` — a computation that moves a cursor, and leaves it where it stood when it fails.
-/

namespace CallLifecycle.Json

/-- A line, from one, and the number of bytes of it that were read. -/
structure Place where
  line : Nat := 1
  column : Nat := 0
  deriving DecidableEq, Repr

/-- The place behind a byte. -/
def Place.after (p : Place) (b : UInt8) : Place :=
  if b = 10 then ⟨p.line + 1, 0⟩ else ⟨p.line, p.column + 1⟩

/-- Where a reader stands. -/
structure Cursor where
  place : Place := {}
  rest : Bytes

/-- What can be wrong with a text. -/
inductive Fault where
  | endInList
  | endInObject
  | endInString
  | endInValue
  | expectedColon
  | expectedCommaInList
  | expectedCommaInObject
  | expectedWord
  | expectedValue
  | invalidEscape
  | invalidNumber
  | numberOutOfRange
  | invalidCodePoint
  | controlCharacter
  | keyNotString
  | loneSurrogate
  | trailingComma
  | trailingCharacters
  | endOfSurrogates
  | unexpectedType (found expected : String)
  | unexpectedValue (found expected : String)
  | unexpectedLength (length : Nat) (expected : String)
  | missingField (name : String)
  | duplicateField (name : String)

namespace Fault

def message : Fault → String
  | endInList => "EOF while parsing a list"
  | endInObject => "EOF while parsing an object"
  | endInString => "EOF while parsing a string"
  | endInValue => "EOF while parsing a value"
  | expectedColon => "expected `:`"
  | expectedCommaInList => "expected `,` or `]`"
  | expectedCommaInObject => "expected `,` or `\x7d`"
  | expectedWord => "expected ident"
  | expectedValue => "expected value"
  | invalidEscape => "invalid escape"
  | invalidNumber => "invalid number"
  | numberOutOfRange => "number out of range"
  | invalidCodePoint => "invalid unicode code point"
  | controlCharacter => "control character (\\u0000-\\u001F) found while parsing a string"
  | keyNotString => "key must be a string"
  | loneSurrogate => "lone leading surrogate in hex escape"
  | trailingComma => "trailing comma"
  | trailingCharacters => "trailing characters"
  | endOfSurrogates => "unexpected end of hex escape"
  | unexpectedType found expected => "invalid type: " ++ found ++ ", expected " ++ expected
  | unexpectedValue found expected => "invalid value: " ++ found ++ ", expected " ++ expected
  | unexpectedLength n expected =>
    "invalid length " ++ toString n ++ ", expected " ++ expected
  | missingField name => "missing field `" ++ name ++ "`"
  | duplicateField name => "duplicate field `" ++ name ++ "`"

end Fault

/-- A fault and its place, once that is settled. -/
structure Error where
  fault : Fault
  place : Option Place := none

def Error.message (e : Error) : String :=
  match e.place with
  | none => e.fault.message
  | some p => e.fault.message ++ " at line " ++ toString p.line ++ " column " ++ toString p.column

/-- A computation that moves a cursor. When it fails the cursor stays where it was left. -/
abbrev Reader := ExceptT Error (StateM Cursor)

namespace Reader

/-- The next byte. -/
def peek : Reader (Option UInt8) := do return (← get).rest.head?

/-- Moves behind the next byte and gives it. -/
def next : Reader (Option UInt8) := do
  let c ← get
  match c.rest with
  | [] => return none
  | b :: rest =>
    set (⟨c.place.after b, rest⟩ : Cursor)
    return some b

/-- Moves behind the next byte. -/
def skip : Reader Unit := do let _ ← next

/-- A fault behind the last byte that was read. -/
def fail {α : Type} (f : Fault) : Reader α := do throw ⟨f, some (← get).place⟩

/-- A fault of the next byte. -/
def failAhead {α : Type} (f : Fault) : Reader α := do
  let c ← get
  match c.rest with
  | [] => throw ⟨f, some c.place⟩
  | b :: _ => throw ⟨f, some (c.place.after b)⟩

/-- A fault whose place is settled later. -/
def raise {α : Type} (f : Fault) : Reader α := throw ⟨f, none⟩

/-- Settles the place of a fault that has none. -/
def located {α : Type} (r : Reader α) : Reader α := do
  try r
  catch e =>
    match e.place with
    | some _ => throw e
    | none => fail e.fault

/-- Runs a first reader, then a second one whether or not the first failed; the first fault wins. -/
def andFinally {α : Type} (r : Reader α) (close : Reader Unit) : Reader α := fun c =>
  let (first, c) := r c
  let (second, c) := close c
  (do let a ← first; second; return a, c)

/-- A byte that separates values. -/
def isBlank (b : UInt8) : Bool := b = 32 || b = 10 || b = 9 || b = 13

/-- The cursor behind the blanks that come next. -/
def pastBlanks (p : Place) : Bytes → Cursor
  | [] => ⟨p, []⟩
  | b :: rest => if isBlank b then pastBlanks (p.after b) rest else ⟨p, b :: rest⟩

/-- Moves behind blanks and looks at the byte that follows them. -/
def peekPastBlanks : Reader (Option UInt8) := do
  modify fun c => pastBlanks c.place c.rest
  peek

end Reader

end CallLifecycle.Json
