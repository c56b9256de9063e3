import Mockup.Proofs.Number.Numeral
import Mockup.Proofs.Number.Range

/-!
# The numerals of fractions

A numeral has an exponent when its number is very large or very small, and only that of a large number
has a plus sign. A double with a fraction is not large: from `2 ^ 52` on all doubles are whole. So the
point of a fraction is among or before its sixteen first digits, whatever choice of digits is the
shortest.

* `Binary64.lt_of_fraction` — a double with a fraction is below `2 ^ 52`;
* `Binary64.point_shortest_le` — where the point of its shortest decimal is;
* `Binary64.plus_notMem_magnitudeNumeral` — **the numeral of a fraction has no plus sign.**
-/

namespace Mockup.Binary64

/-- **A double with a fraction is below `2 ^ 52`.** From there on the spacing of doubles is a multiple
of one. -/
theorem lt_of_fraction {n : Nat} (h : Representable n) (fraction : n % unit ≠ 0) :
    n < 2 ^ 52 * unit := by
  obtain ⟨e, he⟩ : ∃ e, e = 1074 := ⟨_, rfl⟩
  refine Nat.lt_of_not_le fun hlarge => fraction ?_
  rw [unit_eq he, ← Nat.pow_add] at hlarge
  have hpos : n ≠ 0 := by
    rintro rfl
    exact fraction (Nat.zero_mod _)
  have hlog : 52 + e ≤ n.log2 := (Nat.le_log2 hpos).mpr hlarge
  have hunit : unit ∣ spacing n := by
    rw [unit_eq he, spacing_eq]
    exact Nat.pow_dvd_pow 2 (by omega)
  exact Nat.mod_eq_zero_of_dvd (Nat.dvd_trans hunit (Nat.dvd_of_mod_eq_zero h.1))

theorem length_decimalDigits_le {n k : Nat} (hk : 0 < k) (h : n < 10 ^ k) :
    (decimalDigits n).length ≤ k :=
  (Nat.length_toDigits_le_iff (by decide) hk).mpr h

section Grid

variable {n one : Nat}

/-- Moving the point of a count to the right by `k` digits. -/
theorem mul_ten_pow_div_lt (h : n < 2 ^ 52 * one) (k : Nat) :
    n * 10 ^ k / one < 2 ^ 52 * 10 ^ k := by
  refine Nat.div_lt_of_lt_mul ?_
  calc n * 10 ^ k < 2 ^ 52 * one * 10 ^ k := Nat.mul_lt_mul_of_pos_right h (Nat.pow_pos (by decide))
    _ = one * (2 ^ 52 * 10 ^ k) := by rw [Nat.mul_comm (2 ^ 52) one, Nat.mul_assoc]

/-- The digits before the point, when the point was moved to the right. -/
theorem length_moved_le (h : n < 2 ^ 52 * one) (k : Nat) :
    (toString (n * Nat.pow 10 k / one)).length ≤ 16 + k := by
  rw [Nat.pow_eq]
  have hlt : n * 10 ^ k / one < 10 ^ (16 + k) := by
    refine Nat.lt_trans (mul_ten_pow_div_lt h k) ?_
    rw [Nat.pow_add]
    exact Nat.mul_lt_mul_of_pos_right (by decide) (Nat.pow_pos (by decide))
  rw [Nat.toString_eq_ofList_toDigits, String.length_ofList]
  exact length_decimalDigits_le (by omega) hlt

/-- A multiple of a tenth, a hundredth, …, that is at most the next above a fraction. -/
theorem lt_of_le_fine {value k : Nat} (h : n < 2 ^ 52 * one) (hvalue : value ≤ n * 10 ^ k / one + 1) :
    value < 10 ^ (16 + k) := by
  have hbelow := mul_ten_pow_div_lt h k
  have hpos : 0 < 10 ^ k := Nat.pow_pos (by decide)
  rw [Nat.pow_add]
  omega

/-- A multiple of ten, of a hundred, …, that is at most the next above a fraction. -/
theorem lt_of_le_coarse {value e : Nat} (he : e ≤ 15) (h : n < 2 ^ 52 * one)
    (hvalue : value ≤ n / (one * 10 ^ e) + 1) : value < 10 ^ (16 - e) := by
  rw [← Nat.div_div_eq_div_mul] at hvalue
  have hpos : 0 < 10 ^ e := Nat.pow_pos (by decide)
  have hten : 10 ^ e ≤ 10 ^ 15 := Nat.pow_le_pow_right (by decide) he
  have hwhole : n / one < 2 ^ 52 := Nat.div_lt_of_lt_mul (by rwa [Nat.mul_comm])
  have hmultiple := Nat.div_mul_le_self (n / one) (10 ^ e)
  refine Nat.lt_of_mul_lt_mul_right (a := 10 ^ e) ?_
  calc value * 10 ^ e ≤ (n / one / 10 ^ e + 1) * 10 ^ e := Nat.mul_le_mul_right _ hvalue
    _ = n / one / 10 ^ e * 10 ^ e + 10 ^ e := by rw [Nat.add_mul, Nat.one_mul]
    _ < 10 ^ 16 := by omega
    _ = 10 ^ (16 - e) * 10 ^ e := by rw [← Nat.pow_add, Nat.sub_add_cancel (by omega)]

/-- **Where the point is** in a multiple of a power of ten that is at most the next above a
fraction. -/
theorem point_of_le {value : Nat} {exponent : Int} (h : n < 2 ^ 52 * one) (hexponent : exponent ≤ 15)
    (hvalue : value ≤ n * 10 ^ (-exponent).toNat / (one * 10 ^ exponent.toNat) + 1) :
    exponent + (decimalDigits value).length ≤ 16 := by
  rcases Int.le_total exponent 0 with hfine | hcoarse
  · obtain ⟨k, hk⟩ := Int.eq_ofNat_of_zero_le (Int.neg_nonneg_of_nonpos hfine)
    have he : exponent.toNat = 0 := Int.toNat_of_nonpos hfine
    rw [hk, he, Int.toNat_natCast, Nat.pow_zero, Nat.mul_one] at hvalue
    have hlength := length_decimalDigits_le (by omega) (lt_of_le_fine h hvalue)
    omega
  · obtain ⟨e, rfl⟩ := Int.eq_ofNat_of_zero_le hcoarse
    rw [Int.toNat_neg_natCast, Int.toNat_natCast, Nat.pow_zero, Nat.mul_one] at hvalue
    have hlength := length_decimalDigits_le (by omega) (lt_of_le_coarse (by omega) h hvalue)
    omega

end Grid

theorem pointPosition_le {n : Nat} (h : n < 2 ^ 52 * unit) : pointPosition n ≤ 16 := by
  -- the number of digits by which the point is moved is of no importance
  unfold pointPosition
  generalize hk : 400 = k
  have hlength := length_moved_le h k
  omega

/-- The neighbours of a count on a decimal grid are at most the next above the one below. -/
theorem neighbours_le (n : Nat) (exponent : Int) :
    (neighbours n exponent).1 ≤ n * 10 ^ (-exponent).toNat / (unit * 10 ^ exponent.toNat) + 1
      ∧ (neighbours n exponent).2 ≤ n * 10 ^ (-exponent).toNat / (unit * 10 ^ exponent.toNat) + 1 := by
  rw [neighbours, Nat.pow_eq, Nat.pow_eq]
  dsimp only
  refine ⟨divEven_le_div_add_one _ _, ?_⟩
  split
  · exact Nat.le_refl _
  · exact Nat.le_add_right _ _

/-- **Where the point of a fraction is**, in the shortest decimal that any of the grids has. -/
theorem point_shortestFrom_le {n : Nat} (h : n < 2 ^ 52 * unit) {point : Int} (hpoint : point ≤ 16) :
    ∀ (remaining places : Nat), 1 ≤ places →
      (shortestFrom n point places remaining).2
        + (decimalDigits (shortestFrom n point places remaining).1).length ≤ 16 := by
  intro remaining
  induction remaining with
  | zero =>
    intro places _
    exact (by decide : (0 : Int) + (decimalDigits 0).length ≤ 16)
  | succ remaining ih =>
    intro places hplaces
    have hexponent : point - places ≤ 15 := by omega
    obtain ⟨hnear, hfar⟩ := neighbours_le n (point - places)
    rcases hneighbours : neighbours n (point - places) with ⟨near, far⟩
    rw [hneighbours] at hnear hfar
    rw [shortestFrom, hneighbours]
    dsimp only
    split
    · exact point_of_le h hexponent hnear
    split
    · exact point_of_le h hexponent hfar
    · exact ih (places + 1) (by omega)

theorem point_shortest_le {n : Nat} (h : n < 2 ^ 52 * unit) :
    (shortest n).2 + (decimalDigits (shortest n).1).length ≤ 16 :=
  point_shortestFrom_le h (pointPosition_le h) 17 1 (Nat.le_refl 1)

/-! ### Plus signs -/

section Plus

variable {digits : List Char}

theorem plus_notMem_replicate (n : Nat) : '+' ∉ List.replicate n '0' := by
  intro h
  cases List.eq_of_mem_replicate h

theorem plus_notMem_decimalDigits (n : Nat) : '+' ∉ decimalDigits n := by
  intro h
  exact absurd (Nat.isDigit_of_mem_toDigits (by decide) (by decide) h) (by decide)

theorem plus_notMem_dropTrailingZeros (h : '+' ∉ digits) : '+' ∉ dropTrailingZeros digits :=
  fun hmem => h (List.mem_reverse.mp ((List.dropWhile_sublist _).subset (List.mem_reverse.mp hmem)))

theorem plus_notMem_positional (h : '+' ∉ digits) (point : Int) : '+' ∉ positional digits point := by
  have hzeros := plus_notMem_replicate
  have htake : '+' ∉ digits.take point.toNat := fun hmem => h (List.mem_of_mem_take hmem)
  have hdrop : '+' ∉ digits.drop point.toNat := fun hmem => h (List.mem_of_mem_drop hmem)
  unfold positional
  split
  · simp [hzeros, h]
  · dsimp only
    split
    · simp [hzeros, htake]
    · simp [hzeros, htake, hdrop]

/-- An exponent below zero has no plus sign. -/
theorem plus_notMem_scientific (h : '+' ∉ digits) {exponent : Int} (negative : exponent < 0) :
    '+' ∉ scientific digits exponent := by
  have hzeros := plus_notMem_replicate
  have hdigits := plus_notMem_decimalDigits exponent.natAbs
  have htake : '+' ∉ digits.take 1 := fun hmem => h (List.mem_of_mem_take hmem)
  have htail : '+' ∉ digits.tail := fun hmem => h (List.mem_of_mem_tail hmem)
  unfold scientific
  dsimp only
  rw [if_pos negative]
  split
  · simp [hzeros, hdigits, htake]
  · simp [hzeros, hdigits, htake, htail]

end Plus

/-- **The numeral of a fraction has no plus sign.** -/
theorem plus_notMem_magnitudeNumeral {n : Nat} (h : Representable n) (fraction : n % unit ≠ 0) :
    '+' ∉ magnitudeNumeral n := by
  have hpoint := point_shortest_le (lt_of_fraction h fraction)
  have hpos : n ≠ 0 := by
    rintro rfl
    exact fraction (Nat.zero_mod _)
  rcases hshortest : shortest n with ⟨value, exponent⟩
  rw [hshortest] at hpoint
  have hdigits := plus_notMem_dropTrailingZeros (plus_notMem_decimalDigits value)
  rw [magnitudeNumeral, if_neg hpos, hshortest]
  dsimp only at hpoint ⊢
  split
  · exact plus_notMem_positional hdigits _
  · -- the point is not after the first sixteen digits, so it is far before them
    rename_i hbeyond
    exact plus_notMem_scientific hdigits (by omega)

end Mockup.Binary64
