/-!
# Byte strings

Messages and metadata values are byte strings, which need not be text:

* `Bytes.ofString` — the UTF-8 bytes of a text;
* `Bytes.text?` — the text whose UTF-8 bytes they are, if there is one;
* `Bytes.soundLength` — how many bytes stand before the first that spoils the text.
-/

namespace CallLifecycle

/-- A string of bytes. -/
abbrev Bytes := List UInt8

/-- The UTF-8 bytes of a text. -/
def Bytes.ofString (s : String) : Bytes := s.toUTF8.data.toList

/-- The text that these bytes write in UTF-8. -/
def Bytes.text? (b : Bytes) : Option String := String.fromUTF8? ⟨b.toArray⟩

/-- The number of bytes of the first character, if they start with one. -/
def Bytes.firstWidth? (b : Bytes) : Option Nat :=
  [1, 2, 3, 4].find? fun n => (b.take n).length = n && (Bytes.text? (b.take n)).isSome

/-- The number of bytes of so many characters in front, as far as they are characters. -/
def Bytes.widthOf : Nat → Bytes → Nat
  | 0, _ => 0
  | count + 1, b =>
    match b.firstWidth? with
    | some n => n + widthOf count (b.drop n)
    | none => 0

/-- The number of bytes in front of the first one that belongs to no character. -/
def Bytes.soundLength (b : Bytes) : Nat := Bytes.widthOf b.length b

/-- The digit of value `d < 16`, in lower case. -/
def hexDigit (d : Nat) : Char := if d < 10 then Char.ofNat (48 + d) else Char.ofNat (87 + d)

/-- A number in base sixteen, lower case, without leading zeros. -/
def hexText (n : Nat) : String := String.ofList (Nat.toDigits 16 n)

/-- A byte as two digits of base sixteen. -/
def hexByte (b : UInt8) : String :=
  String.ofList [hexDigit (b.toNat / 16), hexDigit (b.toNat % 16)]

end CallLifecycle
