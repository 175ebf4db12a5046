import CallLifecycle.Json.Cursor
import CallLifecycle.Text.Shortest

/-!
# JSON numbers

A number without point and exponent is a whole number as long as it fits into 64 bits. Every other
number is a double: its digits, as far as 64 bits hold them, are scaled by a power of ten.

* `Reader.number` — reads a number whose sign was read;
* `Reader.skipNumber` — moves behind it;
* `Number.describe` — the number in a fault.
-/

namespace CallLifecycle.Json

/-- What a number can be. -/
inductive Number where
  | natural (n : Nat)
  | negative (n : Nat)
  | double (x : Float)

/-- A number in a fault. -/
def Number.describe : Number → String
  | .natural n => "integer `" ++ toString n ++ "`"
  | .negative n => "integer `-" ++ toString n ++ "`"
  | .double x => "floating point `" ++ Text.Shortest.text x ++ "`"

/-- The least number that does not fit into 64 bits. -/
def wordLimit : Nat := Nat.pow 2 64

def isDigit (b : UInt8) : Bool := 48 ≤ b && b ≤ 57

def digitValue (b : UInt8) : Nat := b.toNat - 48

/-- Appends digits to a number as long as it fits into 64 bits; the count of digits left over. -/
def absorbDigits (n : Nat) : Bytes → Nat × Nat
  | [] => (n, 0)
  | d :: ds =>
    if wordLimit ≤ n * 10 + digitValue d then (n, ds.length + 1)
    else absorbDigits (n * 10 + digitValue d) ds

/-- Appends the digits of an exponent, which has to fit into 31 bits: the exponent, or the count of
digits up to the one that does not fit. -/
def exponentDigits (n count : Nat) : Bytes → Except Nat Nat
  | [] => .ok n
  | d :: ds =>
    if Nat.pow 2 31 ≤ n * 10 + digitValue d then .error (count + 1)
    else exponentDigits (n * 10 + digitValue d) (count + 1) ds

/-- Scales a double by a power of ten; nothing if the result is too large. -/
def scaleDouble : Nat → Float → Int → Option Float
  | 0, x, _ => some x
  | fuel + 1, x, e =>
    if e.natAbs ≤ 308 then
      let power := Float.ofScientific 1 false e.natAbs
      if 0 ≤ e then
        let y := x * power
        if y.isInf then none else some y
      else some (x / power)
    else if x == 0.0 then some x
    else if 0 ≤ e then none
    else scaleDouble fuel (x / Float.ofScientific 1 false 308) (e + 308)

namespace Reader

/-- Reads all digits that come next. -/
def digitRun : Reader Bytes := do
  let c ← get
  let ds := c.rest.takeWhile isDigit
  set (⟨⟨c.place.line, c.place.column + ds.length⟩, c.rest.drop ds.length⟩ : Cursor)
  return ds

/-- Moves behind some bytes that are no line ends. -/
def skipBytes (n : Nat) : Reader Unit :=
  modify fun c => ⟨⟨c.place.line, c.place.column + n⟩, c.rest.drop n⟩

/-- The double of a significand and a power of ten. -/
def double (positive : Bool) (significand : Nat) (e : Int) : Reader Number := do
  match scaleDouble 8 (UInt64.ofNat significand).toFloat e with
  | some x => return .double (if positive then x else -x)
  | none => fail .numberOutOfRange

/-- Reads the exponent of a number; its letter comes next. -/
def exponent (positive : Bool) (significand : Nat) (start : Int) : Reader Number := do
  skip
  let mut up := true
  match ← peek with
  | some 43 => skip
  | some 45 =>
    skip
    up := false
  | _ => pure ()
  match ← next with
  | none => fail .endInValue
  | some b =>
    if !isDigit b then fail .invalidNumber
    else
      let ds := (← get).rest.takeWhile isDigit
      match exponentDigits (digitValue b) 0 ds with
      | .ok e =>
        skipBytes ds.length
        double positive significand (if up then start + e else start - e)
      | .error n =>
        if significand ≠ 0 && up then
          skipBytes n
          fail .numberOutOfRange
        else
          skipBytes ds.length
          return .double (if positive then 0.0 else -0.0)

/-- Whether the next byte starts an exponent. -/
def atExponent : Reader Bool := do
  let b ← peek
  return b = some 101 || b = some 69

/-- Reads the digits behind the point of a number; the point comes next. -/
def fraction (positive : Bool) (significand : Nat) (start : Int) : Reader Number := do
  skip
  let ds ← digitRun
  if ds.isEmpty then
    match ← peek with
    | some _ => failAhead .invalidNumber
    | none => failAhead .endInValue
  else
    let (n, left) := absorbDigits significand ds
    let e := start - (ds.length - left : Nat)
    if ← atExponent then exponent positive n e else double positive n e

/-- Reads a number whose sign was read. -/
def number (positive : Bool) : Reader Number := do
  match ← next with
  | none => fail .endInValue
  | some b =>
    if !isDigit b then fail .invalidNumber
    else
      let ds ← if b = 48 then pure [] else digitRun
      if b = 48 && ((← peek).map isDigit).getD false then failAhead .invalidNumber
      else
        let (n, left) := absorbDigits (digitValue b) ds
        if (← peek) = some 46 then fraction positive n left
        else if ← atExponent then exponent positive n left
        else if 0 < left then double positive n left
        else if positive then return .natural n
        else if n = 0 || Nat.pow 2 63 < n then return .double (-(UInt64.ofNat n).toFloat)
        else return .negative n

/-- Moves behind the exponent of a number. -/
def skipExponent : Reader Unit := do
  skip
  match ← peek with
  | some 43 => skip
  | some 45 => skip
  | _ => pure ()
  match ← next with
  | none => fail .invalidNumber
  | some b =>
    if isDigit b then
      let _ ← digitRun
    else fail .invalidNumber

/-- Moves behind a number whose sign was read. -/
def skipNumber : Reader Unit := do
  match ← next with
  | none => fail .invalidNumber
  | some b =>
    if !isDigit b then fail .invalidNumber
    else if b = 48 && ((← peek).map isDigit).getD false then failAhead .invalidNumber
    else
      let _ ← digitRun
      if (← peek) = some 46 then
        skip
        let ds ← digitRun
        if ds.isEmpty then failAhead .invalidNumber
        else if ← atExponent then skipExponent
      else if ← atExponent then skipExponent

end Reader

end CallLifecycle.Json
