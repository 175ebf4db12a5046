import CallLifecycle.Timeout
import Mathlib.Data.List.Induction
import Mathlib.Data.Nat.Digits.Defs

/-!
# The grammar of timeouts

* `IsRow`, `number` — a row of decimal digits, and the number that it writes;
* `Tells` — the values that tell a timeout, with the count and the unit that they tell;
* `count?_eq_some_iff`, `ofSymbol?_eq_some_iff`, `parse?_eq_some_iff` — what is read of a value;
* `Tells.lt` — counts are small, so that no duration that is told overflows;
* `read_of_values` — **what is read of any metadata**: nothing where there is no value, the duration where the first
  value tells one, and else that value.
-/

namespace CallLifecycle.Timeout

/-! ## rows of digits -/

/-- One or more decimal digits. -/
structure IsRow (row : Bytes) : Prop where
  nonempty : row ≠ []
  digits : ∀ d ∈ row, 48 ≤ d.toNat ∧ d.toNat ≤ 57

/-- The number that decimal digits write, the last one counting ones. -/
def number (row : Bytes) : Nat := Nat.ofDigits 10 (row.reverse.map fun d => d.toNat - 48)

theorem isDigitByte_iff (d : UInt8) : isDigitByte d = true ↔ 48 ≤ d.toNat ∧ d.toNat ≤ 57 := by
  simp [isDigitByte, UInt8.le_iff_toNat_le]

theorem isRow_iff (row : Bytes) : IsRow row ↔ row ≠ [] ∧ row.all isDigitByte = true := by
  rw [List.all_eq_true]
  exact ⟨fun h => ⟨h.nonempty, fun d mem => (isDigitByte_iff d).mpr (h.digits d mem)⟩,
    fun h => ⟨h.1, fun d mem => (isDigitByte_iff d).mp (h.2 d mem)⟩⟩

theorem digitsValue_concat (row : Bytes) (d : UInt8) :
    digitsValue (row ++ [d]) = digitsValue row * 10 + (d.toNat - 48) := by
  simp [digitsValue]

theorem digitsValue_eq (row : Bytes) : digitsValue row = number row := by
  induction row using List.reverseRecOn with
  | nil => rfl
  | append_singleton row d ih =>
    rw [digitsValue_concat, ih, number, number, List.reverse_append, List.reverse_singleton, List.singleton_append,
      List.map_cons, Nat.ofDigits_cons]
    omega

theorem IsRow.number_lt {row : Bytes} (h : IsRow row) : number row < 10 ^ row.length := by
  have small : ∀ n ∈ row.reverse.map fun d => d.toNat - 48, n < 10 := by
    intro n mem
    obtain ⟨d, among, rfl⟩ := List.mem_map.mp mem
    have := h.digits d (List.mem_reverse.mp among)
    omega
  have lt := Nat.ofDigits_lt_base_pow_length (by decide) small
  rwa [List.length_map, List.length_reverse] at lt

theorem digits?_eq_some_iff (b : Bytes) (n : Nat) : digits? b = some n ↔ IsRow b ∧ number b = n := by
  rw [digits?, isRow_iff, ← digitsValue_eq]
  cases b <;> simp

/-- A plus sign is no digit, so no row begins with one. -/
theorem not_isRow_plus (row : Bytes) : ¬ IsRow (43 :: row) := by
  intro h
  have := h.digits 43 List.mem_cons_self
  simp at this

theorem count?_eq_some_iff (b : Bytes) (n : Nat) :
    count? b = some n ↔ ∃ row, (b = row ∨ b = 43 :: row) ∧ IsRow row ∧ number row = n := by
  unfold count?
  split
  · rename_i rest
    rw [digits?_eq_some_iff]
    constructor
    · exact fun h => ⟨rest, .inr rfl, h⟩
    · rintro ⟨row, rfl | same, isRow, count⟩
      · exact absurd isRow (not_isRow_plus rest)
      · obtain rfl := List.tail_eq_of_cons_eq same
        exact ⟨isRow, count⟩
  · rename_i unsigned
    rw [digits?_eq_some_iff]
    constructor
    · exact fun h => ⟨b, .inl rfl, h⟩
    · rintro ⟨row, rfl | rfl, isRow, count⟩
      · exact ⟨isRow, count⟩
      · exact absurd rfl (unsigned row)

/-! ## units -/

theorem ofSymbol?_symbol (u : TimeUnit) : TimeUnit.ofSymbol? u.symbol = some u := by
  cases u <;> rfl

theorem ofSymbol?_eq_some_iff (b : UInt8) (u : TimeUnit) : TimeUnit.ofSymbol? b = some u ↔ b = u.symbol := by
  constructor
  · intro h
    have same := List.find?_some h
    exact (of_decide_eq_true same).symm
  · rintro rfl
    exact ofSymbol?_symbol u

/-! ## values -/

/-- A value tells a count of a unit: the digits of the count and the letter of the unit, eight digits at the most. A
plus sign may stand in front of the digits and then counts as one of the eight. -/
inductive Tells : Bytes → Nat → TimeUnit → Prop
  | plain (row : Bytes) (u : TimeUnit) (isRow : IsRow row) (fits : row.length ≤ 8) :
      Tells (row ++ [u.symbol]) (number row) u
  | signed (row : Bytes) (u : TimeUnit) (isRow : IsRow row) (fits : row.length < 8) :
      Tells (43 :: row ++ [u.symbol]) (number row) u

theorem Tells.lt {b : Bytes} {n : Nat} {u : TimeUnit} (h : Tells b n u) : n < 100000000 := by
  cases h with
  | plain row u isRow fits =>
    exact isRow.number_lt.trans_le (Nat.pow_le_pow_right (by decide) fits)
  | signed row u isRow fits =>
    exact isRow.number_lt.trans_le (Nat.pow_le_pow_right (by decide) fits.le)

theorem isVisibleByte_symbol (u : TimeUnit) : isVisibleByte u.symbol = true := by
  cases u <;> rfl

theorem IsRow.visible {row : Bytes} (h : IsRow row) : row.all isVisibleByte = true := by
  refine List.all_eq_true.mpr fun d mem => ?_
  have := h.digits d mem
  simp only [isVisibleByte, Bool.or_eq_true, Bool.and_eq_true, decide_eq_true_eq, UInt8.le_iff_toNat_le,
    UInt8.lt_iff_toNat_lt]
  exact .inl ⟨by simp; omega, by simp; omega⟩

theorem parse?_concat (init : Bytes) (last : UInt8) :
    parse? (init ++ [last]) =
      if !(init ++ [last]).all isVisibleByte || maxDigits < init.length then none
      else (count? init).bind fun n => (TimeUnit.ofSymbol? last).bind fun u => some ⟨n * u.length⟩ := by
  rw [parse?, List.getLast?_concat, List.dropLast_concat]
  rfl

theorem parse?_of_tells {b : Bytes} {n : Nat} {u : TimeUnit} (h : Tells b n u) : parse? b = some ⟨n * u.length⟩ := by
  have reads (sign row : Bytes) (u : TimeUnit) (visible : sign.all isVisibleByte = true) (isRow : IsRow row)
      (fits : (sign ++ row).length ≤ 8) (count : count? (sign ++ row) = some (number row)) :
      parse? (sign ++ row ++ [u.symbol]) = some ⟨number row * u.length⟩ := by
    rw [parse?_concat, if_neg, count, ofSymbol?_symbol]
    · rfl
    · simp only [List.all_append, visible, isRow.visible, List.all_cons, isVisibleByte_symbol, List.all_nil, maxDigits]
      simpa using fits
  cases h with
  | plain row u isRow fits =>
    exact reads [] row u rfl isRow fits ((count?_eq_some_iff _ _).mpr ⟨row, .inl rfl, isRow, rfl⟩)
  | signed row u isRow fits =>
    have signed : ([43] ++ row).length ≤ 8 := by
      rw [List.length_append, List.length_singleton]
      omega
    exact reads [43] row u rfl isRow signed ((count?_eq_some_iff _ _).mpr ⟨row, .inr rfl, isRow, rfl⟩)

/-- **What is read of a value**: the duration that it tells, and nothing of any other value. -/
theorem parse?_eq_some_iff (b : Bytes) (d : Duration) :
    parse? b = some d ↔ ∃ n u, Tells b n u ∧ d = ⟨n * u.length⟩ := by
  constructor
  · intro h
    rcases List.eq_nil_or_concat b with rfl | ⟨init, last, rfl⟩
    · cases h
    · rw [List.concat_eq_append] at h ⊢
      rw [parse?_concat] at h
      split at h
      · cases h
      · rename_i fits
        simp only [Option.bind_eq_some_iff, Option.some.injEq] at h
        obtain ⟨n, count, u, unit, rfl⟩ := h
        obtain rfl := (ofSymbol?_eq_some_iff last u).mp unit
        have short : init.length ≤ 8 := by
          by_contra long
          exact fits (by simp [maxDigits, Nat.lt_of_not_le long])
        obtain ⟨row, rfl | rfl, isRow, rfl⟩ := (count?_eq_some_iff init n).mp count
        · exact ⟨_, u, .plain init u isRow short, rfl⟩
        · exact ⟨_, u, .signed row u isRow (by simpa [Nat.succ_le_iff] using short), rfl⟩
  · rintro ⟨n, u, tells, rfl⟩
    exact parse?_of_tells tells

/-! ## metadata -/

theorem get?_eq_none_iff (m : Metadata) (n : Name) : m.get? n = none ↔ m.contains n = false := by
  simp [Metadata.get?, Metadata.values, Metadata.contains]

theorem read_of_get? {m : Metadata} {v : Value} (first : m.get? header = some v) :
    read m = match parse? v.bytes with
      | some d => .ok (some d)
      | none => .error v := by
  cases told : parse? v.bytes <;> simp only [read, first, told]

/-- **What is read of any metadata.** No timeout is read just if there is no value for one. Of the first value the
timeout is read that it tells, exactly and without an overflow of its seconds; a value that tells none is given back.
-/
theorem read_of_values (m : Metadata) :
    (read m = .ok none ↔ m.contains header = false) ∧
    ∀ v, m.get? header = some v →
      (∀ d, read m = .ok (some d) ↔ ∃ n u, Tells v.bytes n u ∧ d = ⟨n * u.length⟩) ∧
      (∀ n u, Tells v.bytes n u → n ≤ 99999999 ∧ Duration.secs ⟨n * u.length⟩ < 2 ^ 64) ∧
      ((¬ ∃ n u, Tells v.bytes n u) → read m = .error v) := by
  constructor
  · rw [← get?_eq_none_iff]
    cases first : m.get? header with
    | none => simp [read, first]
    | some v =>
      rw [read_of_get? first]
      cases parse? v.bytes <;> simp
  · intro v first
    rw [read_of_get? first]
    refine ⟨fun d => ?_, fun n u tells => ⟨Nat.le_of_lt_succ tells.lt, ?_⟩, fun silent => ?_⟩
    · rw [← parse?_eq_some_iff]
      cases parse? v.bytes <;> simp
    · have small := tells.lt
      have unit : u.length ≤ 3600000000000 := by cases u <;> decide
      have product : n * u.length ≤ 100000000 * 3600000000000 := Nat.mul_le_mul small.le unit
      simp only [Duration.secs, Duration.nanosPerSecond]
      omega
    · cases told : parse? v.bytes with
      | none => rfl
      | some d =>
        obtain ⟨n, u, tells, -⟩ := (parse?_eq_some_iff v.bytes d).mp told
        exact absurd ⟨n, u, tells⟩ silent

-- Five seconds with a plus sign are five seconds.
example : parse? [43, 53, 83] = some ⟨5000000000⟩ := rfl

end CallLifecycle.Timeout
