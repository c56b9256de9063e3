import Mathlib.Algebra.Ring.Int.Parity
import Mathlib.Tactic.Linarith
import Mathlib.Tactic.Ring
import Mockup.Proofs.Number.HalfSum
import Mockup.Proofs.Number.Value
import Mockup.Style.Figure

/-!
# Rounding half up

A number is rounded half up by taking the integer below the sum of it and one half. Exactly, that is
the nearest integer, a half going up. The sum is rounded to a double first, though, and this carries a
few numbers up to the next integer: the double just below one half, and the odd integers between
`2 ^ 52` and `2 ^ 53`, which have no doubles between them and their neighbours.

* `Binary64.roundedSum` — a sum of counts of quanta, rounded;
* `Binary64.integerBelow_add` — the integer below a sum of doubles;
* `Binary64.Carried`, `Style.Slips` — the numbers that are carried up, as counts and as values;
* `Style.halfUp_eq_floor_iff` — **when rounding half up gives the nearest integer.**
-/

namespace Mockup

namespace Binary64

/-! ### Sums -/

/-- The count of quanta of one half. -/
def halfUnit : Nat := Nat.pow 2 1073

/-- The spacing of the doubles just below one half. -/
def halfSpacing : Nat := Nat.pow 2 1020

theorem halfUnit_eq {e : Nat} (he : e = 1073) : halfUnit = 2 ^ e := by
  unfold halfUnit
  generalize 1073 = k at *
  subst he
  exact Nat.pow_eq

theorem halfSpacing_eq {f : Nat} (hf : f = 1020) : halfSpacing = 2 ^ f := by
  unfold halfSpacing
  generalize 1020 = k at *
  subst hf
  exact Nat.pow_eq

/-- The three counts as powers of two, the exponents as variables. -/
theorem exists_exponents :
    ∃ e f, (e = 1073 ∧ e = f + 53)
      ∧ halfUnit = 2 ^ e ∧ unit = 2 ^ (e + 1) ∧ halfSpacing = 2 ^ f := by
  obtain ⟨e, he⟩ : ∃ e, e = 1073 := ⟨_, rfl⟩
  obtain ⟨f, hf⟩ : ∃ f, f = 1020 := ⟨_, rfl⟩
  exact ⟨e, f, by omega, halfUnit_eq he, unit_eq (by omega), halfSpacing_eq hf⟩

theorem unit_eq_two_mul : unit = 2 * halfUnit := by
  obtain ⟨e, f, -, hhalf, hunit, -⟩ := exists_exponents
  rw [hunit, hhalf, two_mul_two_pow]

theorem halfUnit_pos : 0 < halfUnit := by
  have := unit_eq_two_mul
  have := unit_pos
  omega

theorem spacing_halfUnit : spacing halfUnit ∣ halfUnit := by
  obtain ⟨e, f, -, hhalf, -, -⟩ := exists_exponents
  have h := spacing_mul_two_pow (by decide : 1 ≤ 2 ^ 53) e
  rwa [Nat.one_mul, ← hhalf] at h

theorem signed_false (n : Nat) : signed false n = n := rfl

/-- **A sum of counts with their signs, rounded.** -/
def roundedSum (total : Int) : Int := signed (total < 0) (nearest total.natAbs 1)

theorem roundedSum_natCast (n : Nat) : roundedSum n = nearest n 1 := by
  rw [roundedSum, Int.natAbs_natCast, decide_eq_false (by omega)]
  rfl

theorem roundedSum_neg_natCast (n : Nat) : roundedSum (-n) = -nearest n 1 := by
  rw [roundedSum, Int.natAbs_neg, Int.natAbs_natCast]
  by_cases hn : n = 0
  · rw [hn, nearest_zero]
    rfl
  · rw [decide_eq_true (by omega)]
    rfl

/-- **The integer below a sum of doubles** that is not too large. -/
theorem integerBelow_add {s t : Bool} {m n : Nat} {hm : Representable m} {hn : Representable n}
    (fits : nearest (signed s m + signed t n).natAbs 1 < limit) :
    Style.integerBelow (add (.finite s m hm) (.finite t n hn))
      = .ok (roundedSum (signed s m + signed t n) / unit) := by
  rw [add]
  split
  -- two opposite numbers of the same size: the sum is zero
  · rename_i opposite
    have hsigned : signed (s && t) 0 = 0 := by cases s && t <;> rfl
    rw [opposite, ofQuanta, dif_pos representable_zero]
    change Except.ok (signed (s && t) 0 / (unit : Int)) = _
    rw [hsigned, roundedSum, Int.natAbs_zero, nearest_zero]
    rfl
  -- any other sum is rounded to a count that a double may have
  · have hrepresentable : Representable (nearest (signed s m + signed t n).natAbs 1) :=
      representable_of_dvd (spacing_nearest _ Nat.one_pos) fits
    rw [ofQuanta, dif_pos hrepresentable]
    rfl

/-! ### The sum with one half -/

/-- **The counts that are carried up** when one half is added to them: the one just below one half,
and the odd integers that have no doubles between them. -/
def Carried (v : Int) : Prop :=
  v = ((2 ^ 53 - 1) * halfSpacing : Nat)
    ∨ ∃ z : Int, v = z * unit ∧ Odd z ∧ 2 ^ 52 < |z| ∧ |z| < 2 ^ 53

theorem halfUnit_ediv (z : Int) : (z * unit + halfUnit) / unit = z := by
  have hlt : (halfUnit : Int) < unit := by
    have := unit_eq_two_mul
    have := halfUnit_pos
    omega
  rw [Int.add_comm, Int.add_mul_ediv_right _ _ unit_ne_zero,
    Int.ediv_eq_zero_of_lt (Int.natCast_nonneg _) hlt, Int.zero_add]

section Half

variable {n : Nat} (hn : spacing n ∣ n)

include hn

/-- What is not carried has the exact integer below the sum. -/
theorem roundedSum_ediv_of_not_carried {s : Bool} (h : ¬ Carried (signed s n)) :
    roundedSum (signed s n + halfUnit) / unit = (signed s n + halfUnit) / unit := by
  obtain ⟨e, f, ⟨-, he⟩, hhalf, hunit, hfine⟩ := exists_exponents
  -- an integer whose sum is a midpoint is even, or it would be carried
  have heven : ∀ k : Nat, n = unit * k → 2 ^ 52 < k → k < 2 ^ 53 → k % 2 = 0 := by
    intro k hk low high
    by_contra hk2
    have hmagnitude : |signed s k| = k := by rw [Int.abs_eq_natAbs, natAbs_signed]
    refine h (.inr ⟨signed s k, ?_, ?_, ?_, ?_⟩)
    · rw [hk, Nat.mul_comm, signed_mul]
    · rw [← Int.natAbs_odd, natAbs_signed, Nat.odd_iff]
      omega
    · rw [hmagnitude]
      exact_mod_cast low
    · rw [hmagnitude]
      exact_mod_cast high
  cases s with
  | false =>
    have hsum : signed false n + (halfUnit : Int) = ((n + halfUnit : Nat) : Int) :=
      (Int.natCast_add n halfUnit).symm
    -- the count is not that of the double below one half
    have hother : n ≠ (2 ^ 53 - 1) * 2 ^ f := by
      intro heq
      refine h (.inl ?_)
      rw [heq, hfine]
      rfl
    -- rounding the sum does not move it across an integer
    have hdiv : nearest (n + halfUnit) 1 / unit = (n + halfUnit) / unit := by
      rw [hhalf, hunit]
      refine nearest_add_half_div_eq hn he hother fun k hk low high => ?_
      rcases Nat.eq_or_lt_of_le low with heq | hlt
      · rw [← heq]
        rfl
      · exact heven k (by rw [hk, hunit]) hlt high
    rw [hsum, roundedSum_natCast, ← Int.natCast_ediv, ← Int.natCast_ediv, hdiv]
  | true =>
    -- the sum is a difference of counts, which is below zero from one half on
    rcases Nat.le_total n halfUnit with hsmall | hlarge
    · have hsum : signed true n + (halfUnit : Int) = ((halfUnit - n : Nat) : Int) := by
        rw [Int.ofNat_sub hsmall]
        exact Int.add_comm _ _
      have hdiv : nearest (halfUnit - n) 1 / unit = 0 := by
        -- a sum between zero and one half stays below one
        rw [hhalf, hunit]
        exact nearest_half_sub_div
      have hlt : halfUnit - n < unit := by
        have := unit_eq_two_mul
        have := halfUnit_pos
        omega
      rw [hsum, roundedSum_natCast, ← Int.natCast_ediv, ← Int.natCast_ediv, hdiv,
        Nat.div_eq_of_lt hlt]
    · have hsum : signed true n + (halfUnit : Int) = -((n - halfUnit : Nat) : Int) := by
        rw [Int.ofNat_sub hlarge, Int.neg_sub]
        exact Int.add_comm _ _
      -- the difference is exact, or it is that of an even integer
      have hcases : nearest (n - halfUnit) 1 = n - halfUnit
          ∨ ∃ k, n = unit * k ∧ nearest (n - halfUnit) 1 = unit * k := by
        rw [hhalf, hunit]
        exact nearest_sub_half_cases hn fun k hk => heven k (by rw [hk, hunit])
      rw [hsum, roundedSum_neg_natCast]
      rcases hcases with hexact | ⟨k, hk, hlost⟩
      · rw [hexact]
      · -- the half is lost beside an integer, and makes no difference to the integer below
        have hwhole : signed true n = (-k : Int) * unit := by
          rw [hk, Nat.mul_comm, signed_mul]
          rfl
        rw [← hsum, hwhole, halfUnit_ediv, hlost, Int.natCast_mul, Int.mul_comm, ← Int.neg_mul,
          Int.mul_ediv_cancel _ unit_ne_zero]

/-- The sum with one half stays in the range. -/
theorem nearest_half_lt_limit (h : n < limit) (s : Bool) :
    nearest (signed s n + halfUnit).natAbs 1 < limit := by
  obtain ⟨e, f, ⟨he, -⟩, hhalf, -, -⟩ := exists_exponents
  obtain ⟨k, hk⟩ : ∃ k, k = 2098 := ⟨_, rfl⟩
  rw [limit_eq hk] at h ⊢
  have hsum : (signed s n + halfUnit).natAbs ≤ n + 2 ^ e := by
    rw [← hhalf]
    refine Nat.le_trans (Int.natAbs_add_le _ _) ?_
    rw [natAbs_signed, Int.natAbs_natCast]
  exact Nat.lt_of_le_of_lt (nearest_mono Nat.one_pos hsum)
    (nearest_add_half_lt hn (by omega) h)

end Half

/-- **What is carried has the next integer below the sum.** -/
theorem roundedSum_ediv_of_carried {s : Bool} {n : Nat} (h : Carried (signed s n)) :
    roundedSum (signed s n + halfUnit) / unit = (signed s n + halfUnit) / unit + 1 := by
  obtain ⟨e, f, ⟨-, he⟩, hhalf, hunit, hfine⟩ := exists_exponents
  rcases h with hbelow | ⟨z, hz, hodd, low, high⟩
  · -- the double below one half, which goes to one
    have hsum : signed s n + (halfUnit : Int) = ((2 ^ 53 - 1) * 2 ^ f + 2 ^ e : Nat) := by
      rw [hbelow, hhalf, hfine]
      exact (Int.natCast_add _ _).symm
    have hnearest : nearest ((2 ^ 53 - 1) * 2 ^ f + 2 ^ e) 1 = unit := by
      -- the sum is rounded to one, and it was below one
      rw [nearest_almost_half he, hunit]
    have hlt : (2 ^ 53 - 1) * 2 ^ f + 2 ^ e < unit := by
      have hpos : 0 < 2 ^ f := Nat.two_pow_pos f
      have hpow : 2 ^ e = 2 ^ 53 * 2 ^ f := by rw [he, Nat.pow_add, Nat.mul_comm]
      rw [hunit, two_mul_two_pow]
      omega
    rw [hsum, roundedSum_natCast, hnearest, ← Int.natCast_ediv, ← Int.natCast_ediv,
      Nat.div_self unit_pos, Nat.div_eq_of_lt hlt]
    rfl
  · -- an odd integer: the sum is the midpoint of it and the next one, which is even
    rw [hz, halfUnit_ediv]
    -- the midpoint is rounded up for a positive integer
    obtain ⟨k, rfl | rfl⟩ := z.eq_nat_or_neg
    · rw [Nat.abs_cast] at low high
      have hodd : k % 2 = 1 := Nat.odd_iff.mp (by exact_mod_cast hodd)
      have hsum : (k : Int) * unit + halfUnit = ((unit * k + halfUnit : Nat) : Int) := by
        rw [Int.natCast_add, Int.natCast_mul, Int.mul_comm]
      have hnearest : nearest (unit * k + halfUnit) 1 = unit * (k + 1) := by
        rw [hhalf, hunit, nearest_midpoint (by omega) (by omega), hodd]
      rw [hsum, roundedSum_natCast, hnearest, ← Int.natCast_ediv,
        Nat.mul_div_cancel_left _ unit_pos]
      rfl
    -- and also for a negative one, where up is towards zero
    · rw [abs_neg, Nat.abs_cast] at low high
      rw [odd_neg] at hodd
      have hodd : k % 2 = 1 := Nat.odd_iff.mp (by exact_mod_cast hodd)
      obtain ⟨j, rfl⟩ : ∃ j, k = j + 1 := ⟨k - 1, by omega⟩
      have heven : j % 2 = 0 := by omega
      have hsum : -((j + 1 : Nat) : Int) * unit + halfUnit
          = -((unit * j + halfUnit : Nat) : Int) := by
        rw [unit_eq_two_mul]
        push_cast
        ring
      have hnearest : nearest (unit * j + halfUnit) 1 = unit * j := by
        rw [hhalf, hunit, nearest_midpoint (by omega) (by omega), heven, Nat.add_zero j]
      rw [hsum, roundedSum_neg_natCast, hnearest, Int.natCast_mul, Int.mul_comm, ← Int.neg_mul,
        Int.mul_ediv_cancel _ unit_ne_zero]
      omega

theorem representable_halfUnit : Representable halfUnit := by
  refine representable_of_dvd spacing_halfUnit ?_
  have hle : halfUnit ≤ 2 ^ 1 * unit := by
    have := unit_eq_two_mul
    omega
  exact Nat.lt_of_le_of_lt hle (two_pow_mul_unit_lt_limit (by decide))

/-- The double one half. -/
theorem half_eq : Style.half = .finite false halfUnit representable_halfUnit := by
  have hnearest : nearest (1 * unit) 2 = halfUnit := by
    rw [Nat.one_mul, unit_eq_two_mul]
    exact nearest_mul_left Nat.two_pos spacing_halfUnit
  exact ofRatio_of_nearest representable_halfUnit hnearest

/-! ### The sum with one half, as a value -/

theorem value_halfUnit : (halfUnit : ℚ) / (unit : ℕ) = 1 / 2 := by
  rw [unit_eq_two_mul, Nat.cast_mul, div_mul_cancel_right₀, one_div]
  · rfl
  · exact Nat.cast_ne_zero.mpr (Nat.ne_of_gt halfUnit_pos)

/-- The integer below a value and one half, in quanta. -/
theorem floor_value_add_half (v : Int) :
    ⌊(v : ℚ) / (unit : ℕ) + 1 / 2⌋ = (v + halfUnit) / unit := by
  rw [← value_halfUnit, ← add_div, ← Rat.floor_intCast_div_natCast, Int.cast_add, Int.cast_natCast]

end Binary64

namespace Style

open Binary64

/-- **The values that are carried up** when one half is added: the double just below one half, and the
odd integers between `2 ^ 52` and `2 ^ 53` of either sign. -/
def Slips (q : ℚ) : Prop :=
  q = 1 / 2 - 1 / 2 ^ 54 ∨ ∃ z : ℤ, q = z ∧ Odd z ∧ 2 ^ 52 < |z| ∧ |z| < 2 ^ 53

theorem unit_eq_mul_halfSpacing : unit = 2 ^ 54 * halfSpacing := by
  obtain ⟨e, f, ⟨-, he⟩, -, hunit, hfine⟩ := exists_exponents
  rw [hunit, hfine, he, ← Nat.pow_add, Nat.add_comm 54 f]

/-- The count of the double just below one half. -/
theorem value_eq_almostHalf_iff {v : Int} :
    (v : ℚ) / (unit : ℕ) = 1 / 2 - 1 / 2 ^ 54 ↔ v = ((2 ^ 53 - 1) * halfSpacing : ℕ) := by
  have hproduct : (1 / 2 - 1 / 2 ^ 54) * ((unit : ℕ) : ℚ)
      = (((2 ^ 53 - 1) * halfSpacing : ℕ) : ℤ) := by
    rw [unit_eq_mul_halfSpacing]
    push_cast
    ring
  rw [div_eq_iff (ne_of_gt unit_cast_pos), hproduct, Int.cast_inj]

theorem slips_iff_carried {negative : Bool} {n : Nat} :
    Slips ((signed negative n : ℚ) / (unit : ℕ)) ↔ Carried (signed negative n) :=
  or_congr value_eq_almostHalf_iff
    (exists_congr fun _ => and_congr_left fun _ => value_eq_intCast_iff)

theorem halfUp_of_double (x : Binary64) : halfUp (.double x) = integerBelow (x.add half) := rfl

/-- **Rounding a double half up.** -/
theorem halfUp_double {x : Binary64} {q : ℚ} (h : x.value? = some q) :
    (¬ Slips q → halfUp (.double x) = .ok ⌊q + 1 / 2⌋)
      ∧ (Slips q → halfUp (.double x) = .ok (⌊q + 1 / 2⌋ + 1)) := by
  obtain ⟨negative, n, hn, rfl, rfl⟩ := value?_eq_some h
  -- the sum of a double and one half is within the range
  have hspacing := hn.spacing_dvd
  have hsum : halfUp (.double (.finite negative n hn))
      = .ok (roundedSum (signed negative n + halfUnit) / unit) := by
    have hfits := nearest_half_lt_limit hspacing hn.2 negative
    rw [← signed_false halfUnit] at hfits ⊢
    rw [halfUp_of_double, half_eq]
    exact integerBelow_add hfits
  rw [hsum, floor_value_add_half, slips_iff_carried]
  -- the integer below the rounded sum is the expected one or the next
  constructor
  · intro hslips
    rw [roundedSum_ediv_of_not_carried hspacing hslips]
  · intro hslips
    rw [roundedSum_ediv_of_carried hslips]

/-- Any number is rounded to a double first. -/
theorem halfUp_of_toDouble? {n : Number} {x : Binary64} (h : n.toDouble? = some x) :
    halfUp n = halfUp (.double x) := by
  rw [halfUp_of_double, halfUp, h]
  rfl

theorem exists_toDouble?_of_halfUp {n : Number} {z : Int} (h : halfUp n = .ok z) :
    ∃ x, n.toDouble? = some x := by
  cases hx : n.toDouble? with
  | some x => exact ⟨x, rfl⟩
  | none =>
    rw [halfUp, hx] at h
    cases h

theorem floor_intCast_add_half (z : ℤ) : ⌊(z : ℚ) + 1 / 2⌋ = z := by
  rw [Int.floor_intCast_add]
  norm_num

/-- The integers that slip. -/
theorem slips_intCast_iff {z : ℤ} : Slips z ↔ Odd z ∧ 2 ^ 52 < |z| ∧ |z| < 2 ^ 53 := by
  refine ⟨?_, fun h => .inr ⟨z, rfl, h⟩⟩
  rintro (hbelow | ⟨y, hy, h⟩)
  · have hscaled : ((2 ^ 54 * z : ℤ) : ℚ) = (2 ^ 53 - 1 : ℤ) := by
      push_cast
      rw [hbelow]
      norm_num
    have := Int.cast_inj.mp hscaled
    omega
  · obtain rfl := Int.cast_inj.mp hy
    exact h

theorem halfUp_whole {z : ℤ} (h : |z| ≤ 2 ^ 52) : halfUp (.whole z) = .ok z := by
  have hbits : z.natAbs ≤ 2 ^ 53 := by
    rw [Int.abs_eq_natAbs] at h
    omega
  have hsmooth : ¬ Slips z := fun hslips => not_lt.mpr h (slips_intCast_iff.mp hslips).2.1
  obtain ⟨x, hx, hinteger⟩ := isInteger_ofInt? hbits
  have hround := (halfUp_double (value?_of_isInteger hinteger)).1 hsmooth
  rw [halfUp_of_toDouble? (n := .whole z) hx, hround, floor_intCast_add_half]

/-- An integer of more than 53 bits is rounded to an integer, which rounding half up leaves alone. -/
theorem value?_of_halfUp_of_large {z : Int} (large : 2 ^ 53 < z.natAbs) {x : Binary64}
    (hx : ofInt? z = some x) (h : halfUp (.double x) = .ok z) : x.value? = some (z : ℚ) := by
  -- the integer is rounded to a double
  have hquanta : ∃ n representable, x = .finite (z < 0) n representable
      ∧ n = nearest (z.natAbs * unit) 1 := by
    rw [ofInt?, ofRatio, ofQuanta] at hx
    split at hx
    · rename_i representable
      exact ⟨_, representable, (Option.some.inj hx).symm, rfl⟩
    · cases hx
  obtain ⟨n, representable, rfl, hn⟩ := hquanta
  -- no double in that range has a fraction, and none of the integers there slips
  have hlarge : 2 ^ 53 * unit ≤ n := by
    rw [hn]
    exact two_pow_mul_unit_le_nearest (Nat.le_of_lt large)
  -- so the double is an integer again
  obtain ⟨k, hn⟩ : unit ∣ n := by
    obtain ⟨e, f, -, -, hunit, -⟩ := exists_exponents
    rw [hunit] at hlarge ⊢
    refine whole_of_large representable.spacing_dvd (Nat.le_trans ?_ hlarge)
    rw [← Nat.pow_add]
    exact Nat.pow_le_pow_right Nat.two_pos (by omega)
  have hk : 2 ^ 53 ≤ k := by
    rw [hn, Nat.mul_comm] at hlarge
    exact Nat.le_of_mul_le_mul_left hlarge unit_pos
  have hvalue : (finite (z < 0) n representable).value?
      = some ((signed (z < 0) k : ℤ) : ℚ) := by
    refine congrArg some (value_eq_intCast_iff.mpr ?_)
    rw [hn, Nat.mul_comm, signed_mul]
  -- which is beyond all that slip
  have hsmooth : ¬ Slips (signed (z < 0) k : ℤ) := by
    intro hslips
    have hlt := (slips_intCast_iff.mp hslips).2.2
    rw [Int.abs_eq_natAbs, natAbs_signed] at hlt
    omega
  rw [(halfUp_double hvalue).1 hsmooth, floor_intCast_add_half] at h
  rw [hvalue, Except.ok.inj h]

/-- **When rounding half up gives the nearest integer**, a half going up: for the numbers that are
doubles, except those that slip. Every number up to `2 ^ 53` is a double, and the nearest integer of
an integer is the integer itself. -/
theorem halfUp_eq_floor_iff {n : Number} {q : ℚ} (h : n.value? = some q) :
    (halfUp n = .ok ⌊q + 1 / 2⌋ ↔ n.IsDouble q ∧ ¬ Slips q)
      ∧ (|q| ≤ 2 ^ 53 → n.IsDouble q)
      ∧ ∀ z : ℤ, q = z → (halfUp n = .ok z ↔ n.IsDouble q ∧ ¬ Slips q) := by
  have hiff : halfUp n = .ok ⌊q + 1 / 2⌋ ↔ n.IsDouble q ∧ ¬ Slips q := by
    constructor
    -- the result is right, so the number is the double that it is rounded to
    · intro hround
      obtain ⟨x, hx⟩ := exists_toDouble?_of_halfUp hround
      rw [halfUp_of_toDouble? hx] at hround
      have hvalue : x.value? = some q := by
        cases n with
        | double y =>
          obtain rfl : y = x := Option.some.inj hx
          exact h
        -- an integer that fits is that double, and a larger one is by its result
        | whole z =>
          obtain rfl : (z : ℚ) = q := Option.some.inj h
          rw [floor_intCast_add_half] at hround
          rcases Nat.lt_or_ge (2 ^ 53) z.natAbs with large | small
          · exact value?_of_halfUp_of_large large hx hround
          · obtain ⟨y, hy, hinteger⟩ := isInteger_ofInt? small
            obtain rfl : y = x := Option.some.inj (hy.symm.trans hx)
            exact value?_of_isInteger hinteger
      -- and this double does not slip, or the result would be one higher
      refine ⟨⟨x, hx, hvalue⟩, fun hslips => ?_⟩
      rw [(halfUp_double hvalue).2 hslips] at hround
      have := Except.ok.inj hround
      omega
    -- conversely the result of a double that does not slip is right
    · rintro ⟨⟨x, hx, hvalue⟩, hslips⟩
      rw [halfUp_of_toDouble? hx]
      exact (halfUp_double hvalue).1 hslips
  refine ⟨hiff, Number.isDouble_of_abs_le h, ?_⟩
  rintro z rfl
  rwa [floor_intCast_add_half] at hiff

/-- The greatest odd integer below `2 ^ 53` is rounded to its neighbour. -/
theorem greatestOdd_not_rounded :
    (Number.whole (2 ^ 53 - 1)).value? = some ((2 ^ 53 - 1 : ℤ) : ℚ)
      ∧ halfUp (.whole (2 ^ 53 - 1)) ≠ .ok (2 ^ 53 - 1) := by
  refine ⟨rfl, fun hround => ?_⟩
  have hiff := (halfUp_eq_floor_iff (n := .whole (2 ^ 53 - 1)) rfl).2.2 (2 ^ 53 - 1) rfl
  exact (hiff.mp hround).2 (.inr ⟨2 ^ 53 - 1, rfl, by decide, by decide, by decide⟩)

/-- The double just below one half. -/
def almostHalf : Binary64 := .ofRatio false (2 ^ 53 - 1) (2 ^ 54)

theorem value?_almostHalf : almostHalf.value? = some (1 / 2 - 1 / 2 ^ 54) := by
  -- the count of the double is one that a double may have
  have hspacing : spacing ((2 ^ 53 - 1) * halfSpacing) ∣ (2 ^ 53 - 1) * halfSpacing := by
    obtain ⟨e, f, -, -, -, hfine⟩ := exists_exponents
    rw [hfine]
    exact spacing_mul_two_pow (by decide) f
  -- it is far below the limit
  have hlt : (2 ^ 53 - 1) * halfSpacing < limit := by
    refine Nat.lt_of_le_of_lt ?_ (two_pow_mul_unit_lt_limit (by decide : 0 < 1024))
    rw [unit_eq_mul_halfSpacing]
    omega
  -- the ratio is exactly this count
  have hnearest : nearest ((2 ^ 53 - 1) * unit) (2 ^ 54) = (2 ^ 53 - 1) * halfSpacing := by
    rw [unit_eq_mul_halfSpacing, Nat.mul_left_comm]
    exact nearest_mul_left (by decide) hspacing
  rw [almostHalf, ofRatio_of_nearest (representable_of_dvd hspacing hlt) hnearest]
  exact congrArg some (value_eq_almostHalf_iff.mpr rfl)

/-- The double just below one half is rounded to one, and the nearest integer is zero. -/
theorem almostHalf_not_rounded :
    almostHalf.value? = some (1 / 2 - 1 / 2 ^ 54) ∧ halfUp (.double almostHalf) = .ok 1
      ∧ ⌊(1 / 2 - 1 / 2 ^ 54 : ℚ) + 1 / 2⌋ = 0 := by
  have hfloor : ⌊(1 / 2 - 1 / 2 ^ 54 : ℚ) + 1 / 2⌋ = 0 := by norm_num
  have hround := (halfUp_double value?_almostHalf).2 (.inl rfl)
  rw [hfloor] at hround
  exact ⟨value?_almostHalf, hround, hfloor⟩

end Style

end Mockup
