import CallLifecycle.Codec

/-!
# Messages of scenarios

The types of messages that scenarios exchange.

* `Message.shape` — a text that refuses to be written when it starts with `!encode`;
* `Greeting.shape` — a record of a name and a count.
-/

namespace CallLifecycle.Scenario

/-- The text of a message. -/
abbrev Message := String

/-- A text, unless it asks to be refused. -/
def Message.shape : Json.Shape Message where
  write s := if "!encode".toList.isPrefixOf s.toList then .error "message refused"
    else Json.Shape.text.write s
  read := Json.Shape.text.read

/-- Whom to greet, and how often. -/
structure Greeting where
  name : String
  times : Nat

namespace Greeting

open Json Json.Reader

/-- What is expected where a greeting should stand. -/
def expected : String := "struct Greeting"

/-- Reads the fields in the order of a list. -/
def ofItems : Reader Greeting := do
  let missing (n : Nat) : Reader Greeting :=
    raise (.unexpectedLength n (expected ++ " with 2 elements"))
  if !(← hasItem true) then missing 0
  else
    let name ← string
    if !(← hasItem false) then missing 1
    else return { name, times := ← word32 }

/-- Reads the entries of an object, in any order; entries of other names are skipped. -/
def ofEntries : Nat → Bool → Option String → Option Nat → Reader Greeting
  | 0, _, _, _ => failAhead .endInObject
  | fuel + 1, first, name, times => do
    if ← hasKey first then
      skip
      let key ← text
      if key = "name" then
        if name.isSome then raise (.duplicateField key)
        colon
        ofEntries fuel false (some (← string)) times
      else if key = "times" then
        if times.isSome then raise (.duplicateField key)
        colon
        ofEntries fuel false name (some (← word32))
      else
        colon
        skipValue
        ofEntries fuel false name times
    else
      match name, times with
      | some name, some times => return { name, times }
      | none, _ => raise (.missingField "name")
      | _, none => raise (.missingField "times")

/-- Reads a greeting, given as an object or as the list of its fields. -/
def reader : Reader Greeting := located do
  let b ← startOfValue
  if b = 91 then
    skip
    andFinally ofItems closeList
  else if b = 123 then
    skip
    andFinally (ofEntries ((← get).rest.length + 1) true none none) closeObject
  else mismatch expected

def shape : Json.Shape Greeting where
  write g := .ok ("\x7b\"name\":" ++ writeText g.name ++ ",\"times\":" ++ toString g.times ++ "\x7d")
  read := reader

end Greeting

/-- Reads a message and writes it again. -/
def recode {α : Type} (shape : Json.Shape α) (b : Bytes) : Except Status Bytes := do
  Codec.write shape (← Codec.read shape b)

end CallLifecycle.Scenario
