import CallLifecycle.Json.Number
import CallLifecycle.Json.Text

/-!
# Typed JSON values

Readers for the values that messages are made of. Each says what it expects when it meets a value
of another type.

* `Reader.string`, `Reader.word32`, `Reader.list` — a string, a whole number of 32 bits, a list;
* `Reader.hasKey`, `Reader.colon`, `Reader.closeObject` — the entries of an object;
* `Reader.skipValue` — moves behind any value;
* `decode` — reads a whole text.
-/

namespace CallLifecycle.Json

namespace Reader

/-- Reads the rest of a word whose first letter was read. -/
def word (letters : String) : Reader Unit := do
  for expected in letters.toList do
    match ← next with
    | none => fail .endInValue
    | some b => if b.toNat ≠ expected.toNat then fail .expectedWord

/-- The first byte of a value, behind blanks. -/
def startOfValue : Reader UInt8 := do
  match ← peekPastBlanks with
  | some b => return b
  | none => failAhead .endInValue

/-- Fails with the type of the value that comes next, where another one was expected. -/
def mismatch {α : Type} (expected : String) : Reader α := located do
  let b := (← peek).getD 0
  if b = 110 then
    skip
    word "ull"
    raise (.unexpectedType "null" expected)
  else if b = 116 then
    skip
    word "rue"
    raise (.unexpectedType "boolean `true`" expected)
  else if b = 102 then
    skip
    word "alse"
    raise (.unexpectedType "boolean `false`" expected)
  else if b = 45 then
    skip
    raise (.unexpectedType (← number false).describe expected)
  else if isDigit b then raise (.unexpectedType (← number true).describe expected)
  else if b = 34 then
    skip
    raise (.unexpectedType ("string " ++ Text.quote (← text)) expected)
  else if b = 91 then raise (.unexpectedType "sequence" expected)
  else if b = 123 then raise (.unexpectedType "map" expected)
  else failAhead .expectedValue

/-- Reads a string. -/
def string : Reader String := do
  if (← startOfValue) = 34 then
    skip
    text
  else mismatch "a string"

/-- Reads a whole number of 32 bits. -/
def word32 : Reader Nat := do
  let b ← startOfValue
  if b = 45 || isDigit b then
    let n ← if b = 45 then (do skip; number false) else number true
    match n with
    | .natural k =>
      if k < Nat.pow 2 32 then return k
      else fail (.unexpectedValue (Number.natural k).describe "u32")
    | .negative k => fail (.unexpectedValue (Number.negative k).describe "u32")
    | .double x => fail (.unexpectedType (Number.double x).describe "u32")
  else mismatch "u32"

/-- Whether a list has another item; `first` tells whether it had none so far. -/
def hasItem (first : Bool) : Reader Bool := do
  match ← peekPastBlanks with
  | none => failAhead .endInList
  | some b =>
    if b = 93 then return false
    else if first then return true
    else if b = 44 then
      skip
      match ← peekPastBlanks with
      | some 93 => failAhead .trailingComma
      | some _ => return true
      | none => failAhead .endInValue
    else failAhead .expectedCommaInList

/-- Moves behind the end of a list. -/
def closeList : Reader Unit := do
  match ← peekPastBlanks with
  | some 93 => skip
  | some 44 =>
    skip
    match ← peekPastBlanks with
    | some 93 => failAhead .trailingComma
    | _ => failAhead .trailingCharacters
  | some _ => failAhead .trailingCharacters
  | none => failAhead .endInList

/-- Reads the items of a list. -/
def items {α : Type} (item : Reader α) : Nat → Bool → List α → Reader (List α)
  | 0, _, done => return done.reverse
  | fuel + 1, first, done => do
    if ← hasItem first then items item fuel false ((← item) :: done) else return done.reverse

/-- Reads a list. -/
def list {α : Type} (item : Reader α) : Reader (List α) := located do
  if (← startOfValue) = 91 then
    skip
    andFinally (items item ((← get).rest.length + 1) true []) closeList
  else mismatch "a sequence"

/-- Whether an object has another key, which comes next. -/
def hasKey (first : Bool) : Reader Bool := do
  match ← peekPastBlanks with
  | none => failAhead .endInObject
  | some b =>
    if b = 125 then return false
    else if first then
      if b = 34 then return true else failAhead .keyNotString
    else if b = 44 then
      skip
      match ← peekPastBlanks with
      | some 34 => return true
      | some 125 => failAhead .trailingComma
      | some _ => failAhead .keyNotString
      | none => failAhead .endInValue
    else failAhead .expectedCommaInObject

/-- Moves behind the colon of an entry. -/
def colon : Reader Unit := do
  match ← peekPastBlanks with
  | some 58 => skip
  | some _ => failAhead .expectedColon
  | none => failAhead .endInObject

/-- Moves behind the end of an object. -/
def closeObject : Reader Unit := do
  match ← peekPastBlanks with
  | some 125 => skip
  | some 44 => failAhead .trailingComma
  | some _ => failAhead .trailingCharacters
  | none => failAhead .endInObject

/-- What is open around a value that is skipped. -/
inductive Frame where
  | list
  | object

mutual

/-- Moves behind a value and what is open around it. -/
def skipFrom : Nat → List Frame → Reader Unit
  | 0, _ => failAhead .endInValue
  | fuel + 1, open_ => do
    let b ← startOfValue
    if b = 91 then
      skip
      skipRest fuel false (.list :: open_)
    else if b = 123 then
      skip
      skipRest fuel false (.object :: open_)
    else
      if b = 110 then
        skip
        word "ull"
      else if b = 116 then
        skip
        word "rue"
      else if b = 102 then
        skip
        word "alse"
      else if b = 45 then
        skip
        skipNumber
      else if isDigit b then skipNumber
      else if b = 34 then
        skip
        skipText
      else failAhead .expectedValue
      skipRest fuel true open_

/-- Moves behind what is open, after one of its items or, without `comma`, at its start. -/
def skipRest : Nat → Bool → List Frame → Reader Unit
  | _, _, [] => return
  | 0, _, _ => failAhead .endInValue
  | fuel + 1, comma, frame :: outer => do
    let b ← peekPastBlanks
    match frame, b with
    | .list, none => failAhead .endInList
    | .object, none => failAhead .endInObject
    | .list, some b =>
      if b = 93 then
        skip
        skipRest fuel true outer
      else if comma && b ≠ 44 then failAhead .expectedCommaInList
      else
        if comma then skip
        skipFrom fuel (.list :: outer)
    | .object, some b =>
      if b = 125 then
        skip
        skipRest fuel true outer
      else if comma && b ≠ 44 then failAhead .expectedCommaInObject
      else
        if comma then skip
        match ← peekPastBlanks with
        | some 34 =>
          skip
          skipText
          colon
          skipFrom fuel (.object :: outer)
        | some _ => failAhead .keyNotString
        | none => failAhead .endInObject

end

/-- Moves behind a value. -/
def skipValue : Reader Unit := do skipFrom (2 * (← get).rest.length + 2) []

end Reader

/-- Reads a text that holds one value. -/
def decode {α : Type} (value : Reader α) (b : Bytes) : Except Error α :=
  let whole : Reader α := do
    let a ← value
    match ← Reader.peekPastBlanks with
    | none => return a
    | some _ => Reader.failAhead .trailingCharacters
  (whole.run ({ rest := b } : Cursor)).1

end CallLifecycle.Json
