/-!
# The shortest decimal text of a double

A double stands for every real number that rounds to it. It is written with the fewest digits that
still name one of these numbers, and with the nearest such digits:

* `Shortest.digits` — these digits, in exact arithmetic on `m · 2 ^ q`;
* `Shortest.text` — their text: positional for moderate sizes, with an exponent otherwise.
-/

namespace CallLifecycle.Text.Shortest

/-- A positive rational number, as numerator and denominator. -/
structure Fraction where
  num : Nat
  den : Nat

/-- `n` times `2 ^ q`. -/
def scaled (n : Nat) (q : Int) : Fraction :=
  if 0 ≤ q then ⟨n * Nat.pow 2 q.toNat, 1⟩ else ⟨n, Nat.pow 2 (-q).toNat⟩

def Fraction.le (a b : Fraction) : Bool := a.num * b.den ≤ b.num * a.den

def Fraction.lt (a b : Fraction) : Bool := a.num * b.den < b.num * a.den

/-- The quotient by `10 ^ e`. -/
def Fraction.shift (a : Fraction) (e : Int) : Fraction :=
  if 0 ≤ e then ⟨a.num, a.den * Nat.pow 10 e.toNat⟩ else ⟨a.num * Nat.pow 10 (-e).toNat, a.den⟩

/-- The number of digits before the point, or minus the number of zeros behind it. -/
def magnitude (a : Fraction) : Int :=
  if a.den ≤ a.num then ((Nat.toDigits 10 (a.num / a.den)).length : Nat)
  else
    let zeros := (List.range 400).find? fun (j : Nat) => a.den ≤ a.num * Nat.pow 10 (j + 1)
    Int.negOfNat (zeros.getD 0)

/-- A double: its significand, its exponent, and whether its lower neighbour is half as far. -/
structure Binary where
  significand : Nat
  exponent : Int
  closeBelow : Bool

/-- Takes the magnitude of a double apart. -/
def Binary.ofBits (bits : Nat) : Binary :=
  let e : Nat := bits / Nat.pow 2 52 % 2048
  let f : Nat := bits % Nat.pow 2 52
  if e = 0 then ⟨f, -1074, false⟩ else ⟨Nat.pow 2 52 + f, (e : Int) - 1075, f = 0 && 1 < e⟩

/-- Whether a number, taken in units of `10 ^ e`, rounds to the double. -/
def Binary.covers (b : Binary) (c : Nat) (e : Int) : Bool :=
  let x : Fraction := if 0 ≤ e then ⟨c * Nat.pow 10 e.toNat, 1⟩ else ⟨c, Nat.pow 10 (-e).toNat⟩
  let low := scaled (4 * b.significand - (if b.closeBelow then 1 else 2)) (b.exponent - 2)
  let high := scaled (4 * b.significand + 2) (b.exponent - 2)
  if b.significand % 2 = 0 then low.le x && x.le high else low.lt x && x.lt high

/-- The neighbour of the double among the multiples of `10 ^ e` that rounds to it, if there is one;
of two the nearer, and of two equally near ones the even. -/
def Binary.neighbour? (b : Binary) (e : Int) : Option Nat :=
  let v := (scaled b.significand b.exponent).shift e
  let c := v.num / v.den
  let twice := 2 * (v.num % v.den)
  let downFirst := twice < v.den || (twice = v.den && c % 2 = 0)
  let order := if downFirst then [c, c + 1] else [c + 1, c]
  order.find? fun n => b.covers n e

/-- Drops the zeros at the end of a number and counts them. -/
def stripZeros (fuel n : Nat) (e : Int) : Nat × Int :=
  match fuel with
  | 0 => (n, e)
  | fuel + 1 => if 0 < n && n % 10 = 0 then stripZeros fuel (n / 10) (e + 1) else (n, e)

/-- The shortest digits of a positive double and the power of ten of the last one. -/
def digits (b : Binary) : Nat × Int :=
  let k := magnitude (scaled b.significand b.exponent)
  let found := (List.range 17).findSome? fun (i : Nat) =>
    let e : Int := k - (i + 1)
    (b.neighbour? e).map fun n => (n, e)
  let (n, e) := found.getD (0, 0)
  stripZeros 20 n e

/-- How numbers are written: by position, if the power of ten of the first digit lies between
these. -/
structure Style where
  leastPositional : Int
  greatestPositional : Int

/-- Sizes from `1e-5` up to sixteen digits are written by position. -/
def style : Style := ⟨-5, 15⟩

/-- The text of digits whose last one stands at `10 ^ e`. An exponent always has a sign. -/
def render (s : Style) (n : Nat) (e : Int) : String :=
  let ds := Nat.toDigits 10 n
  let first := e + ds.length - 1
  if s.leastPositional ≤ first && first ≤ s.greatestPositional then
    if 0 ≤ e then String.ofList (ds ++ List.replicate e.toNat '0') ++ ".0"
    else if 0 ≤ first then
      String.ofList (ds.take (first.toNat + 1)) ++ "." ++ String.ofList (ds.drop (first.toNat + 1))
    else "0." ++ String.ofList (List.replicate (-first - 1).toNat '0' ++ ds)
  else
    let lead := String.ofList (ds.take 1)
    let tail := if ds.length ≤ 1 then "" else "." ++ String.ofList (ds.drop 1)
    lead ++ tail ++ "e" ++ (if first < 0 then "-" else "+") ++ toString first.natAbs

/-- The text of a finite double. -/
def text (x : Float) : String :=
  let bits := x.toBits.toNat
  let sign := if bits / Nat.pow 2 63 = 1 then "-" else ""
  let magnitude := bits % Nat.pow 2 63
  if magnitude = 0 then sign ++ "0.0"
  else
    let (n, e) := digits (Binary.ofBits magnitude)
    sign ++ render style n e

end CallLifecycle.Text.Shortest
