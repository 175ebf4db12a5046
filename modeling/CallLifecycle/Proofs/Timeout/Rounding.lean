import CallLifecycle.Proofs.Timeout.Grammar

/-!
# Timeouts that are told and read back

* `isRow_decimal`, `number_decimal`, `length_decimal_le` — the decimal digits of a number;
* `IsFinest` — the finest unit in which a duration can be told;
* `parts_cases`, `encode_of_parts` — the count and the unit that tell a duration, and the value that holds them;
* `exact_of_multiple` — a multiple of a unit that can be told in it is told as it is;
* `round_trip` — **a duration that is told and read back** is rounded down to the finest unit that can tell it, or
  capped, and told again it stays as it is.
-/

namespace CallLifecycle.Timeout

/-! ## decimal digits -/

theorem toNat_digit {n : Nat} (small : n < 10) : (UInt8.ofNat (48 + n)).toNat = 48 + n := by
  rw [UInt8.toNat_ofNat']
  omega

theorem isRow_decimal (n : Nat) : IsRow (decimal n) := by
  have digit {n : Nat} (small : n < 10) :
      48 ≤ (UInt8.ofNat (48 + n)).toNat ∧ (UInt8.ofNat (48 + n)).toNat ≤ 57 := by
    rw [toNat_digit small]
    omega
  fun_induction decimal n with
  | case1 n small => exact ⟨by simp, by simpa using digit small⟩
  | case2 n large ih =>
    refine ⟨by simp, fun d mem => ?_⟩
    rcases List.mem_append.mp mem with mem | mem
    · exact ih.digits d mem
    · obtain rfl := List.mem_singleton.mp mem
      exact digit (Nat.mod_lt n (by decide))

theorem number_decimal (n : Nat) : number (decimal n) = n := by
  rw [← digitsValue_eq]
  fun_induction decimal n with
  | case1 n small =>
    have one := digitsValue_concat [] (UInt8.ofNat (48 + n))
    rw [toNat_digit small] at one
    rw [← List.nil_append [UInt8.ofNat (48 + n)], one]
    simp [digitsValue]
  | case2 n large ih =>
    rw [digitsValue_concat, ih, toNat_digit (Nat.mod_lt n (by decide))]
    omega

theorem length_decimal_le {n k : Nat} (h : n < 10 ^ (k + 1)) : (decimal n).length ≤ k + 1 := by
  induction k generalizing n with
  | zero =>
    rw [decimal, if_pos (by simpa using h)]
    simp
  | succ k ih =>
    rw [decimal]
    split
    · simp
    · have fewer : n / 10 < 10 ^ (k + 1) := by
        rw [Nat.pow_succ] at h
        omega
      have := ih fewer
      simp
      omega

/-! ## the finest unit -/

/-- The finest unit in which a duration can be told: its count has no more than eight digits, and in a finer unit it
would have more. -/
structure IsFinest (t : Duration) (u : TimeUnit) : Prop where
  fits : t.nanos / u.length ≤ 99999999
  finest : ∀ v : TimeUnit, v.length < u.length → 99999999 < t.nanos / v.length

theorem length_pos (u : TimeUnit) : 0 < u.length := by cases u <;> decide

theorem mem_all (u : TimeUnit) : u ∈ TimeUnit.all := by cases u <;> decide

theorem pairwise_all : TimeUnit.all.Pairwise fun u v => u.length < v.length := by decide

theorem length_dvd {u v : TimeUnit} (finer : u.length ≤ v.length) : u.length ∣ v.length := by
  revert finer
  cases u <;> cases v <;> decide

theorem lt_of_unfit {n : Nat} (unfit : decide (n ≤ maxCount) = false) : 99999999 < n :=
  Nat.lt_of_not_le (of_decide_eq_false unfit)

/-- A duration is told in the finest unit that can tell it, or as the most hours that can be told. -/
theorem parts_cases (t : Duration) :
    (∃ u, IsFinest t u ∧ parts t = (t.nanos / u.length, u)) ∨
    ((∀ u : TimeUnit, 99999999 < t.nanos / u.length) ∧ parts t = (99999999, .hours)) := by
  unfold parts
  split
  · rename_i u found
    obtain ⟨fits, before, after, split, unfit⟩ := List.find?_eq_some_iff_append.mp found
    refine .inl ⟨u, ⟨of_decide_eq_true fits, fun v finer => ?_⟩, rfl⟩
    have sorted := split ▸ pairwise_all
    have mem := split ▸ mem_all v
    -- A unit that stands before the one that was found does not fit; one that stands behind it is coarser.
    rcases List.mem_append.mp mem with earlier | later
    · exact lt_of_unfit (by simpa using unfit v earlier)
    · rcases List.mem_cons.mp later with rfl | later
      · omega
      · have := (List.pairwise_cons.mp (List.pairwise_append.mp sorted).2.1).1 v later
        omega
  · rename_i none
    refine .inr ⟨fun u => ?_, rfl⟩
    exact lt_of_unfit (by simpa using List.find?_eq_none.mp none u (mem_all u))

theorem count_parts_le (t : Duration) : (parts t).1 ≤ 99999999 := by
  rcases parts_cases t with ⟨u, finest, same⟩ | ⟨-, same⟩
  · rw [same]
    exact finest.fits
  · rw [same]

/-! ## told and read back -/

/-- The value that tells a duration holds at most eight digits and a unit, and tells what was put into it. -/
theorem encode_of_parts (t : Duration) :
    ∃ v : Value, encode t = some v ∧ v.bytes = decimal (parts t).1 ++ [(parts t).2.symbol] ∧
      (decimal (parts t).1).length ≤ 8 ∧ Tells v.bytes (parts t).1 (parts t).2 := by
  have fits : (decimal (parts t).1).length ≤ 8 := length_decimal_le (Nat.lt_succ_of_le (count_parts_le t))
  have tells : Tells (encodeBytes t) (parts t).1 (parts t).2 := by
    have plain := Tells.plain (decimal (parts t).1) (parts t).2 (isRow_decimal _) fits
    rwa [number_decimal] at plain
  have valid : (encodeBytes t).all isValueByte = true := by
    have visible : (encodeBytes t).all isVisibleByte = true := by
      rw [encodeBytes, List.all_append, (isRow_decimal _).visible]
      simp [isVisibleByte_symbol]
    refine List.all_eq_true.mpr fun b mem => ?_
    have := List.all_eq_true.mp visible b mem
    simp only [isVisibleByte, isValueByte, Bool.or_eq_true, Bool.and_eq_true, decide_eq_true_eq] at this ⊢
    refine this.imp (fun between => ⟨between.1, ?_⟩) id
    rintro rfl
    exact absurd between.2 (by decide)
  refine ⟨⟨encodeBytes t, valid⟩, ?_, rfl, fits, tells⟩
  rw [encode, Value.ofBytes?, dif_pos valid]

/-- Whoever reads metadata with this value reads the duration that its count and its unit make. -/
theorem read_of_tells {m : Metadata} {v : Value} {n : Nat} {u : TimeUnit} (first : m.get? header = some v)
    (tells : Tells v.bytes n u) : read m = .ok (some ⟨n * u.length⟩) := by
  rw [read_of_get? first, parse?_of_tells tells]

theorem exact_of_multiple {n : Nat} (u : TimeUnit) (fits : n ≤ 99999999) :
    (parts ⟨n * u.length⟩).1 * (parts ⟨n * u.length⟩).2.length = n * u.length := by
  have count : n * u.length / u.length = n := Nat.mul_div_cancel n (length_pos u)
  rcases parts_cases ⟨n * u.length⟩ with ⟨w, finest, same⟩ | ⟨long, -⟩
  · rw [same]
    -- A unit coarser than `u` would not be the finest, since `n` of `u` fit.
    have finer : w.length ≤ u.length := by
      by_contra coarser
      have := finest.finest u (Nat.lt_of_not_le coarser)
      simp only [count] at this
      omega
    exact Nat.div_mul_cancel ((length_dvd finer).mul_left n)
  · have := long u
    simp only [count] at this
    omega

/-- **A duration that is told and read back.** Every duration can be told, in at most eight digits and a unit. What is
read back is the duration rounded down to the finest unit that can tell it, so that less than one such unit is lost, or
as many hours as can be told. It is never longer than the duration was, and told again it is read back as it is. -/
theorem round_trip (t : Duration) :
    ∃ v d, encode t = some v ∧
      (∃ row u, v.bytes = row ++ [TimeUnit.symbol u] ∧ IsRow row ∧ row.length ≤ 8) ∧
      (∀ m : Metadata, m.get? header = some v → read m = .ok (some d)) ∧
      ((∃ u, IsFinest t u ∧ d = ⟨t.nanos / u.length * u.length⟩ ∧ t.nanos - d.nanos < u.length) ∨
        ((∀ u : TimeUnit, 99999999 < t.nanos / u.length) ∧ d = ⟨99999999 * TimeUnit.hours.length⟩)) ∧
      d.nanos ≤ t.nanos ∧
      ∃ w, encode d = some w ∧ ∀ m : Metadata, m.get? header = some w → read m = .ok (some d) := by
  obtain ⟨v, told, bytes, short, tells⟩ := encode_of_parts t
  obtain ⟨w, again, -, -, same⟩ := encode_of_parts ⟨(parts t).1 * (parts t).2.length⟩
  refine ⟨v, ⟨(parts t).1 * (parts t).2.length⟩, told, ⟨_, _, bytes, isRow_decimal _, short⟩,
    fun m first => read_of_tells first tells, ?_, ?_, w, again, fun m first => ?_⟩
  · rcases parts_cases t with ⟨u, finest, parts⟩ | ⟨long, parts⟩
    · refine .inl ⟨u, finest, by rw [parts], ?_⟩
      have lost := Nat.mod_lt t.nanos (length_pos u)
      rw [parts]
      simp only
      rw [Nat.mod_eq_sub_div_mul] at lost
      exact lost
    · exact .inr ⟨long, by rw [parts]⟩
  · rcases parts_cases t with ⟨u, finest, parts⟩ | ⟨long, parts⟩
    · rw [parts]
      exact Nat.div_mul_le_self t.nanos u.length
    · rw [parts]
      exact (Nat.mul_le_mul_right _ (long .hours).le).trans (Nat.div_mul_le_self t.nanos _)
  · rw [read_of_tells first same, exact_of_multiple _ (count_parts_le t)]

end CallLifecycle.Timeout
