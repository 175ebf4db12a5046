import CallLifecycle.Json.Cursor

/-!
# JSON strings

* `Reader.text` — reads the string whose opening quote was just read;
* `Reader.skipText` — moves behind it without looking at its characters;
* `writeText` — the string as it is written.
-/

namespace CallLifecycle.Json

/-- The value of a digit of base sixteen. -/
def hexValue? (b : UInt8) : Option Nat :=
  if 48 ≤ b && b ≤ 57 then some (b.toNat - 48)
  else if 97 ≤ b && b ≤ 102 then some (b.toNat - 87)
  else if 65 ≤ b && b ≤ 70 then some (b.toNat - 55)
  else none

/-- The byte that a short escape stands for. -/
def shortEscape? (b : UInt8) : Option UInt8 :=
  if b = 34 || b = 92 || b = 47 then some b
  else if b = 98 then some 8
  else if b = 102 then some 12
  else if b = 110 then some 10
  else if b = 114 then some 13
  else if b = 116 then some 9
  else none

namespace Reader

/-- The next byte of a string, without moving. -/
def peekInText : Reader UInt8 := do
  match ← peek with
  | some b => return b
  | none => fail .endInString

/-- The next byte of a string. -/
def nextInText : Reader UInt8 := do
  match ← next with
  | some b => return b
  | none => fail .endInString

/-- The unit that four digits write. -/
def hexUnit : Reader Nat := do
  if (← get).rest.length < 4 then
    modify fun c => c.rest.foldl (fun c b => ⟨c.place.after b, c.rest.drop 1⟩) c
    fail .endInString
  else
    let a ← nextInText
    let b ← nextInText
    let c ← nextInText
    let d ← nextInText
    match hexValue? a, hexValue? b, hexValue? c, hexValue? d with
    | some a, some b, some c, some d => return ((a * 16 + b) * 16 + c) * 16 + d
    | _, _, _, _ => fail .invalidEscape

/-- The code point that units write, the first of which was announced by the last two bytes. -/
def codePoint : Reader Nat := do
  let first ← hexUnit
  if 0xDC00 ≤ first && first ≤ 0xDFFF then fail .loneSurrogate
  else if first < 0xD800 || 0xDBFF < first then return first
  else
    let backslash ← peekInText
    skip
    if backslash ≠ 92 then fail .endOfSurrogates
    let mark ← peekInText
    skip
    if mark ≠ 117 then fail .endOfSurrogates
    let second ← hexUnit
    if second < 0xDC00 || 0xDFFF < second then fail .loneSurrogate
    else return (first - 0xD800) * 1024 + (second - 0xDC00) + 0x10000

/-- The bytes that an escape stands for; its backslash was just read. -/
def escape : Reader Bytes := do
  let b ← nextInText
  match shortEscape? b with
  | some x => return [x]
  | none =>
    if b = 117 then return Bytes.ofString (Char.ofNat (← codePoint)).toString
    else fail .invalidEscape

/-- The text of the bytes that a string stands for; its closing quote was just read. A fault is told
as many columns before that as there are bytes from the first one that belongs to no character. -/
def decoded (bytes : Bytes) : Reader String := do
  match Bytes.text? bytes with
  | some s => return s
  | none =>
    let p := (← get).place
    throw ⟨.invalidCodePoint, some ⟨p.line, p.column - (bytes.length - Bytes.soundLength bytes)⟩⟩

/-- Reads the rest of a string behind the bytes `done`, which are in reverse. -/
def textFrom : Nat → Bytes → Reader String
  | 0, _ => fail .endInString
  | fuel + 1, done => do
    let b ← match ← peek with
      | some b => pure b
      | none => fail .endInString
    skip
    if b = 34 then decoded done.reverse
    else if b = 92 then textFrom fuel ((← escape).reverse ++ done)
    else if b < 32 then fail .controlCharacter
    else textFrom fuel (b :: done)

/-- Reads the string whose opening quote was just read. -/
def text : Reader String := do textFrom ((← get).rest.length + 1) []

/-- Moves behind the escape whose backslash was just read. -/
def skipEscape : Reader Unit := do
  let b ← nextInText
  match shortEscape? b with
  | some _ => return
  | none =>
    if b = 117 then
      let _ ← hexUnit
    else fail .invalidEscape

/-- Moves behind the rest of a string. -/
def skipTextFrom : Nat → Reader Unit
  | 0 => fail .endInString
  | fuel + 1 => do
    match ← peek with
    | none => fail .endInString
    | some b =>
      if b = 34 then skip
      else if b = 92 then
        skip
        skipEscape
        skipTextFrom fuel
      else if b < 32 then fail .controlCharacter
      else
        skip
        skipTextFrom fuel

/-- Moves behind the string whose opening quote was just read. -/
def skipText : Reader Unit := do skipTextFrom ((← get).rest.length + 1)

end Reader

/-- A character of a written string. -/
def writeChar (c : Char) : String :=
  if c = '"' then "\\\""
  else if c = '\\' then "\\\\"
  else if c = '\n' then "\\n"
  else if c = '\r' then "\\r"
  else if c = '\t' then "\\t"
  else if c.toNat = 8 then "\\b"
  else if c.toNat = 12 then "\\f"
  else if c.toNat < 32 then "\\u00" ++ hexByte (UInt8.ofNat c.toNat)
  else c.toString

/-- A written string. -/
def writeText (s : String) : String := "\"" ++ String.join (s.toList.map writeChar) ++ "\""

end CallLifecycle.Json
