import CallLifecycle.Duration
import CallLifecycle.Metadata

/-!
# Timeouts in metadata

A caller tells its timeout as a metadata value: a count of at most eight digits and a unit.

* `Timeout.parse?` — the duration that a value tells;
* `Timeout.encode` — the value that tells a duration, in the finest unit whose count fits;
* `Timeout.read` — the timeout that metadata hold, if they hold one;
* `Timeout.effective` — the shorter of the caller's timeout and the server's.
-/

namespace CallLifecycle

/-- The units of timeouts. -/
inductive TimeUnit where
  | nanos | micros | millis | seconds | minutes | hours
  deriving DecidableEq, Repr

namespace TimeUnit

/-- From the finest to the coarsest. -/
def all : List TimeUnit := [nanos, micros, millis, seconds, minutes, hours]

/-- The length of a unit in nanoseconds. -/
def length : TimeUnit → Nat
  | nanos => 1
  | micros => 1000
  | millis => 1000000
  | seconds => 1000000000
  | minutes => 60 * 1000000000
  | hours => 60 * 60 * 1000000000

/-- The letter of a unit. -/
def letter : TimeUnit → Char
  | nanos => 'n'
  | micros => 'u'
  | millis => 'm'
  | seconds => 'S'
  | minutes => 'M'
  | hours => 'H'

/-- The letter of a unit as a byte. -/
def symbol (u : TimeUnit) : UInt8 := UInt8.ofNat u.letter.toNat

def ofSymbol? (b : UInt8) : Option TimeUnit := all.find? fun u => u.symbol = b

end TimeUnit

namespace Timeout

/-- The name under which a timeout is told. -/
def header : Name := ⟨"grpc-timeout", by decide⟩

/-- The largest count. -/
def maxCount : Nat := 99999999

/-- The most digits of a count. -/
def maxDigits : Nat := 8

/-- The byte of a decimal digit. -/
def isDigitByte (b : UInt8) : Bool := 48 ≤ b && b ≤ 57

/-- The number that a row of digits writes. -/
def digitsValue (b : Bytes) : Nat := b.foldl (fun n d => n * 10 + (d.toNat - 48)) 0

/-- Reads a row of digits. -/
def digits? (b : Bytes) : Option Nat :=
  if b.isEmpty || !b.all isDigitByte then none else some (digitsValue b)

/-- Reads a count: a row of digits, which may follow a plus sign. -/
def count? : Bytes → Option Nat
  | 43 :: rest => digits? rest
  | b => digits? b

/-- Reads a timeout. -/
def parse? (b : Bytes) : Option Duration :=
  match b.getLast? with
  | none => none
  | some last =>
    if !b.all isVisibleByte || maxDigits < b.dropLast.length then none
    else do
      let n ← count? b.dropLast
      let u ← TimeUnit.ofSymbol? last
      pure ⟨n * u.length⟩

/-- The count and the unit that tell a duration: the finest unit whose count fits, or as many
hours as can be told. -/
def parts (d : Duration) : Nat × TimeUnit :=
  match TimeUnit.all.find? fun u => d.nanos / u.length ≤ maxCount with
  | some u => (d.nanos / u.length, u)
  | none => (maxCount, .hours)

/-- The decimal digits of a number. -/
def decimal (n : Nat) : Bytes :=
  if n < 10 then [UInt8.ofNat (48 + n)] else decimal (n / 10) ++ [UInt8.ofNat (48 + n % 10)]
  termination_by n
  decreasing_by omega

/-- The bytes that tell a duration. -/
def encodeBytes (d : Duration) : Bytes := decimal (parts d).1 ++ [(parts d).2.symbol]

/-- The value that tells a duration. -/
def encode (d : Duration) : Option Value := Value.ofBytes? (encodeBytes d)

/-- The timeout that metadata hold. A value that tells none is given back. -/
def read (m : Metadata) : Except Value (Option Duration) :=
  match m.get? header with
  | none => .ok none
  | some v =>
    match parse? v.bytes with
    | some d => .ok (some d)
    | none => .error v

/-- The timeout that holds for a call: the shorter of the caller's and the server's, where a value
that tells none counts as absent. -/
def effective (m : Metadata) (server : Option Duration) : Option Duration :=
  match (read m).toOption.join, server with
  | some a, some b => some (a.min b)
  | some a, none => some a
  | none, b => b

end Timeout

end CallLifecycle
