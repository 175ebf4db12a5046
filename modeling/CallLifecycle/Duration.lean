/-!
# Durations

A duration is a whole number of nanoseconds. `Duration.debug` writes it in the largest unit that it
reaches.
-/

namespace CallLifecycle

/-- A span of time. -/
structure Duration where
  nanos : Nat
  deriving DecidableEq, Repr

namespace Duration

/-- Nanoseconds in a second. -/
def nanosPerSecond : Nat := 1000000000

/-- Nanoseconds in a millisecond. -/
def nanosPerMilli : Nat := 1000000

def ofParts (secs nanos : Nat) : Duration := ⟨secs * nanosPerSecond + nanos⟩

def ofMillis (ms : Nat) : Duration := ⟨ms * nanosPerMilli⟩

/-- The whole seconds. -/
def secs (d : Duration) : Nat := d.nanos / nanosPerSecond

/-- The nanoseconds beyond the whole seconds. -/
def subsecNanos (d : Duration) : Nat := d.nanos % nanosPerSecond

def min (a b : Duration) : Duration := if a.nanos ≤ b.nanos then a else b

/-- The digits of `frac` behind the point, `width` of them before zeros at the end are dropped. -/
def fractionText (width frac : Nat) : String :=
  let digits := ((toString frac).toList.leftpad width '0').reverse.dropWhile (· = '0')
  if digits.isEmpty then "" else "." ++ String.ofList digits.reverse

/-- A duration in diagnostics. -/
def debug (d : Duration) : String :=
  let n := d.subsecNanos
  if 0 < d.secs then toString d.secs ++ fractionText 9 n ++ "s"
  else if nanosPerMilli ≤ n then
    toString (n / nanosPerMilli) ++ fractionText 6 (n % nanosPerMilli) ++ "ms"
  else if 1000 ≤ n then toString (n / 1000) ++ fractionText 3 (n % 1000) ++ "µs"
  else toString n ++ "ns"

end Duration

end CallLifecycle
