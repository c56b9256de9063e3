import Mockup.Proofs.Number.Nearest

/-!
# Adding one half

A number is rounded half up by adding one half and taking the integer below. The sum of two doubles
is rounded to 53 bits first, so the integer below it is right only where that rounding does not carry
the sum up to the next integer. Here this is settled for counts of quanta, with `2 ^ e` for the half
and `2 ^ (e + 1)` for the unit, so that no power is ever evaluated.

There are four ranges. Below `2 ^ 52` units the sum and the difference stay apart from the integers
(`nearest_add_half_div`, `nearest_sub_half`), with one exception just below the half itself
(`nearest_almost_half`). From `2 ^ 52` to `2 ^ 53` units, doubles are integers and the half is the
midpoint of two of them, so it goes to the even one (`nearest_midpoint`). Further on the half is less
than half the spacing and is lost (`nearest_add_lost`, `nearest_sub_lost`).
-/

namespace Mockup.Binary64

variable {e n : Nat}

theorem two_mul_two_pow (e : Nat) : 2 ^ (e + 1) = 2 * 2 ^ e := Nat.pow_succ'

/-- A half more than what is close above a multiple of the unit stays in the binade. -/
theorem log2_add_half (large : 2 ^ (e + 1) ≤ n) (close : n % 2 ^ (e + 1) < 2 ^ e) :
    (n + 2 ^ e).log2 = n.log2 := by
  have hunit : 0 < 2 ^ (e + 1) := Nat.two_pow_pos _
  have hne : n ≠ 0 := Nat.ne_of_gt (Nat.lt_of_lt_of_le hunit large)
  have hlog : e + 1 ≤ n.log2 := (Nat.le_log2 hne).mpr large
  -- the end of the binade is a multiple of the unit
  obtain ⟨k, hk⟩ : 2 ^ (e + 1) ∣ 2 ^ (n.log2 + 1) := Nat.pow_dvd_pow 2 (by omega)
  have hquotient : n / 2 ^ (e + 1) < k :=
    Nat.div_lt_of_lt_mul (Nat.lt_of_lt_of_eq Nat.lt_log2_self hk)
  -- the sum stays below the end of the binade
  have habove : n + 2 ^ e < 2 ^ (n.log2 + 1) := by
    calc n + 2 ^ e = 2 ^ (e + 1) * (n / 2 ^ (e + 1)) + n % 2 ^ (e + 1) + 2 ^ e := by
          rw [Nat.div_add_mod]
      _ < 2 ^ (e + 1) * (n / 2 ^ (e + 1)) + 2 ^ (e + 1) := by
          have := two_mul_two_pow e
          omega
      _ = 2 ^ (e + 1) * (n / 2 ^ (e + 1) + 1) := by rw [Nat.mul_succ]
      _ ≤ 2 ^ (e + 1) * k := Nat.mul_le_mul_left _ hquotient
      _ = 2 ^ (n.log2 + 1) := hk.symm
  exact (Nat.log2_eq_iff (by omega)).mpr
    ⟨Nat.le_trans (Nat.log2_self_le hne) (Nat.le_add_right _ _), habove⟩

/-! ### The midpoint of two integers -/

/-- **A midpoint goes to the even integer**: where the unit is the spacing. -/
theorem nearest_midpoint (low : 2 ^ 52 ≤ n) (high : n < 2 ^ 53) :
    nearest (2 ^ (e + 1) * n + 2 ^ e) 1 = 2 ^ (e + 1) * (n + n % 2) := by
  have hhalf : 0 < 2 ^ e := Nat.two_pow_pos e
  have hdouble := two_mul_two_pow e
  -- the sum is in the binade that begins with the number of 53 bits
  have hlow : 2 ^ (e + 1 + 52) ≤ 2 ^ (e + 1) * n + 2 ^ e := by
    rw [Nat.pow_add]
    exact Nat.le_trans (Nat.mul_le_mul_left _ low) (Nat.le_add_right _ _)
  have hhigh : 2 ^ (e + 1) * n + 2 ^ e < 2 ^ (e + 1 + 52 + 1) := by
    calc 2 ^ (e + 1) * n + 2 ^ e < 2 ^ (e + 1) * (n + 1) := by rw [Nat.mul_succ]; omega
      _ ≤ 2 ^ (e + 1) * 2 ^ 53 := Nat.mul_le_mul_left _ high
      _ = 2 ^ (e + 1 + 52 + 1) := (Nat.pow_add 2 (e + 1) 53).symm
  have hlog : (2 ^ (e + 1) * n + 2 ^ e).log2 = e + 1 + 52 :=
    (Nat.log2_eq_iff (by omega)).mpr ⟨hlow, hhigh⟩
  -- so the spacing is twice the half, and the sum is halfway
  have hspacing : spacing (2 ^ (e + 1) * n + 2 ^ e) = 2 * 2 ^ e := by
    rw [spacing_eq, hlog, Nat.add_sub_cancel, hdouble]
  rw [nearest_eq, Nat.div_one, hspacing, Nat.one_mul, hdouble, divEven_half hhalf, Nat.mul_comm]

/-! ### The half is lost -/

/-- The distance of a half from a double is less than half the spacing. -/
theorem two_pow_lt_spacing {t : Nat} (large : 2 ^ (e + 1 + 53) ≤ t) : 2 ^ (e + 1) < spacing t := by
  have hne : t ≠ 0 := Nat.ne_of_gt (Nat.lt_of_lt_of_le (Nat.two_pow_pos _) large)
  have hlog : e + 1 + 53 ≤ t.log2 := (Nat.le_log2 hne).mpr large
  rw [spacing_eq]
  exact Nat.pow_lt_pow_right Nat.one_lt_two (by omega)

theorem nearest_add_lost (hn : spacing n ∣ n) (large : 2 ^ (e + 1 + 53) ≤ n)
    (whole : 2 ^ (e + 1) ∣ n) : nearest (n + 2 ^ e) 1 = n := by
  have hdouble := two_mul_two_pow e
  have hunit : 2 ^ (e + 1) ≤ n :=
    Nat.le_trans (Nat.pow_le_pow_right Nat.two_pos (by omega)) large
  -- an integer is no less than the half away from the next one
  have hclose : n % 2 ^ (e + 1) < 2 ^ e := by
    rw [Nat.mod_eq_zero_of_dvd whole]
    exact Nat.two_pow_pos e
  have hspacing : spacing ((n + 2 ^ e) / 1) = spacing n := by
    rw [Nat.div_one, spacing_eq, spacing_eq, log2_add_half hunit hclose]
  -- the half is less than half the spacing
  have hlost := two_pow_lt_spacing large
  refine nearest_of_close_of_dvd Nat.one_pos (by rwa [hspacing]) ?_ ?_
  · rw [hspacing]
    omega
  · rw [hspacing]
    omega

theorem nearest_sub_lost (hn : spacing n ∣ n) (large : 2 ^ (e + 1 + 53) ≤ n - 2 ^ e) :
    nearest (n - 2 ^ e) 1 = n := by
  have hdouble := two_mul_two_pow e
  have hlost := two_pow_lt_spacing large
  rw [← Nat.div_one (n - 2 ^ e)] at hlost
  have hle : (n - 2 ^ e) / 1 ≤ n := by
    rw [Nat.div_one]
    exact Nat.sub_le _ _
  have hpos : 0 < 2 ^ (e + 1 + 53) := Nat.two_pow_pos _
  exact nearest_of_close_of_dvd Nat.one_pos (Nat.dvd_trans (spacing_dvd_spacing hle) hn)
    (by omega) (by omega)

/-! ### The sum below `2 ^ 52` units -/

section Below

variable (hn : spacing n ∣ n) (fine : n < 2 ^ (e + 53))

include hn fine

/-- Where the spacing divides the half, the sum has it as well, so it is exact in the same binade. -/
theorem nearest_add_half_of_close (large : 2 ^ (e + 1) ≤ n) (close : n % 2 ^ (e + 1) < 2 ^ e) :
    nearest (n + 2 ^ e) 1 = n + 2 ^ e := by
  have hspacing : spacing (n + 2 ^ e) = spacing n := by
    rw [spacing_eq, spacing_eq, log2_add_half large close]
  have hdvd : spacing (n + 2 ^ e) ∣ n + 2 ^ e := by
    rw [hspacing]
    exact Nat.dvd_add hn (spacing_dvd_two_pow fine)
  exact nearest_one_of_dvd hdvd

/-- **The sum does not reach the next integer.** -/
theorem nearest_add_half_div (large : 2 ^ e ≤ n) :
    nearest (n + 2 ^ e) 1 / 2 ^ (e + 1) = (n + 2 ^ e) / 2 ^ (e + 1) := by
  have hhalf : 0 < 2 ^ e := Nat.two_pow_pos e
  have hunit : 0 < 2 ^ (e + 1) := Nat.two_pow_pos _
  have hdouble := two_mul_two_pow e
  by_cases coarse : 2 ^ (e + 52) ≤ n
  · -- the spacing is the half, and the sum is a number of halves with 53 bits
    have hlog : n.log2 = e + 52 := (Nat.log2_eq_iff (by omega)).mpr ⟨coarse, fine⟩
    rw [spacing_eq, hlog, Nat.add_sub_cancel] at hn
    obtain ⟨m, rfl⟩ := hn
    have hm : m + 1 ≤ 2 ^ 53 := by
      rw [Nat.pow_add] at fine
      exact Nat.lt_of_mul_lt_mul_left fine
    have hsum : 2 ^ e * m + 2 ^ e = (m + 1) * 2 ^ e := by rw [← Nat.mul_succ, Nat.mul_comm]
    rw [hsum, nearest_one_of_dvd (spacing_mul_two_pow hm e)]
  -- the sum is far below the end of the exact integers
  · have hquotient : (n + 2 ^ e) / 2 ^ (e + 1) + 1 ≤ 2 ^ 52 := by
      refine (Nat.div_lt_iff_lt_mul hunit).mpr ?_
      have hpow : 2 ^ 52 * 2 ^ (e + 1) = 2 * 2 ^ (e + 52) := by
        rw [← Nat.pow_add, ← Nat.pow_succ']
        congr 1
        omega
      have : 2 ^ e ≤ 2 ^ (e + 52) := Nat.pow_le_pow_right Nat.two_pos (by omega)
      omega
    have hdivision := Nat.div_add_mod (n + 2 ^ e) (2 ^ (e + 1))
    by_cases close : n % 2 ^ (e + 1) < 2 ^ e
    -- the half is below the rest, so the sum is exact
    · have hlarge : 2 ^ (e + 1) ≤ n := by
        refine Nat.le_of_not_lt fun hlt => ?_
        rw [Nat.mod_eq_of_lt hlt] at close
        omega
      rw [nearest_add_half_of_close hn fine hlarge close]
    · -- the rest of the sum is at most a half, and an integer and a half is a double
      have hrest : (n + 2 ^ e) % 2 ^ (e + 1) ≤ 2 ^ e := by
        have hlt := Nat.mod_lt n hunit
        rw [← Nat.mod_add_mod, Nat.mod_eq_sub_mod (by omega), Nat.mod_eq_of_lt (by omega)]
        omega
      rw [Nat.mul_comm] at hdivision
      generalize (n + 2 ^ e) / 2 ^ (e + 1) = q at *
      have hhalves : (2 * q + 1) * 2 ^ e = q * 2 ^ (e + 1) + 2 ^ e := by
        rw [hdouble, Nat.add_mul, Nat.one_mul, Nat.mul_assoc, Nat.mul_left_comm]
      -- rounding does not pass the halfway point above, nor the integer below
      have hupper : nearest (n + 2 ^ e) 1 ≤ (2 * q + 1) * 2 ^ e :=
        nearest_le_of_le Nat.one_pos (spacing_mul_two_pow (by omega) e) (by omega)
      have hlower : q * 2 ^ (e + 1) ≤ nearest (n + 2 ^ e) 1 :=
        le_nearest_of_le Nat.one_pos (spacing_mul_two_pow (by omega) (e + 1)) (by omega)
      refine Nat.div_eq_of_lt_le hlower (Nat.lt_of_le_of_lt hupper ?_)
      rw [hhalves, Nat.add_mul, Nat.one_mul]
      omega

end Below

/-- **The difference is exact.** -/
theorem nearest_sub_half (hn : spacing n ∣ n) (fine : n ≤ 2 ^ (e + 53)) :
    nearest (n - 2 ^ e) 1 = n - 2 ^ e := by
  have hlt : n - 2 ^ e < 2 ^ (e + 53) := by
    have := Nat.two_pow_pos e
    have := Nat.two_pow_pos (e + 53)
    omega
  have hdvd : spacing (n - 2 ^ e) ∣ n - 2 ^ e :=
    Nat.dvd_sub (Nat.dvd_trans (spacing_dvd_spacing (Nat.sub_le _ _)) hn)
      (spacing_dvd_two_pow hlt)
  exact nearest_one_of_dvd hdvd

/-! ### Near zero -/

/-- A difference below the half stays there. -/
theorem nearest_half_sub_div : nearest (2 ^ e - n) 1 / 2 ^ (e + 1) = 0 := by
  have hle : nearest (2 ^ e - n) 1 ≤ 2 ^ e := nearest_le_two_pow Nat.one_pos (by omega)
  refine Nat.div_eq_of_lt (Nat.lt_of_le_of_lt hle ?_)
  exact Nat.pow_lt_pow_right Nat.one_lt_two (Nat.lt_succ_self e)

/-- **The double below one half, and one half, add up to a midpoint**, which goes to one. -/
theorem nearest_almost_half {f : Nat} (he : e = f + 53) :
    nearest ((2 ^ 53 - 1) * 2 ^ f + 2 ^ e) 1 = 2 ^ (e + 1) := by
  have hhalf : 2 ^ e = 2 ^ 53 * 2 ^ f := by rw [he, Nat.pow_add, Nat.mul_comm]
  have hsum : (2 ^ 53 - 1) * 2 ^ f + 2 ^ e = 2 ^ (f + 1) * (2 ^ 53 - 1) + 2 ^ f := by
    rw [hhalf, two_mul_two_pow]
    omega
  rw [hsum, nearest_midpoint (by decide) (by decide), two_mul_two_pow f, two_mul_two_pow e, hhalf]
  omega

/-- Any other double below one half is added without a carry. -/
theorem nearest_add_half_near_zero {f : Nat} (he : e = f + 53) (hn : spacing n ∣ n)
    (small : n < 2 ^ e) (other : n ≠ (2 ^ 53 - 1) * 2 ^ f) :
    nearest (n + 2 ^ e) 1 < 2 ^ (e + 1) := by
  have hpos : 0 < 2 ^ f := Nat.two_pow_pos f
  have hhalf : 2 ^ e = 2 ^ 53 * 2 ^ f := by rw [he, Nat.pow_add, Nat.mul_comm]
  -- two spacings are left at least
  have hle : n ≤ (2 ^ 53 - 2) * 2 ^ f := by
    have hquarter : 2 ^ (f + 52) = 2 ^ 52 * 2 ^ f := by rw [Nat.pow_add, Nat.mul_comm]
    -- the last binade below the half is the only one that comes near
    by_cases hlow : 2 ^ (f + 52) ≤ n
    · have hhigh : n < 2 ^ (f + 52 + 1) := by
        rw [two_mul_two_pow]
        omega
      have hlog : n.log2 = f + 52 := (Nat.log2_eq_iff (by omega)).mpr ⟨hlow, hhigh⟩
      rw [spacing_eq, hlog, Nat.add_sub_cancel] at hn
      obtain ⟨m, rfl⟩ := hn
      rw [Nat.mul_comm] at small other ⊢
      -- its last count is excluded
      rw [hhalf] at small
      have hlt : m < 2 ^ 53 := Nat.lt_of_mul_lt_mul_right small
      have hne : m ≠ 2 ^ 53 - 1 := fun heq => other (by rw [heq])
      exact Nat.mul_le_mul_right _ (by omega)
    · omega
  -- rounding does not pass a double above
  have hupper : nearest (n + 2 ^ e) 1 ≤ (2 ^ 53 - 1) * 2 ^ (f + 1) := by
    refine nearest_le_of_le Nat.one_pos (spacing_mul_two_pow (by omega) (f + 1)) ?_
    rw [two_mul_two_pow f]
    omega
  rw [two_mul_two_pow f] at hupper
  rw [two_mul_two_pow e]
  omega

/-! ### All ranges together -/

section Ranges

variable (hn : spacing n ∣ n)

include hn

/-- From `2 ^ 52` units on, doubles are integers. -/
theorem whole_of_large (large : 2 ^ (e + 53) ≤ n) : 2 ^ (e + 1) ∣ n := by
  have hne : n ≠ 0 := Nat.ne_of_gt (Nat.lt_of_lt_of_le (Nat.two_pow_pos _) large)
  have hlog : e + 53 ≤ n.log2 := (Nat.le_log2 hne).mpr large
  exact Nat.dvd_trans (Nat.pow_dvd_pow 2 (by omega)) hn

/-- **The sum with a half**, apart from the double below one half and the odd integers that have no
doubles between them. -/
theorem nearest_add_half_div_eq {f : Nat} (he : e = f + 53) (other : n ≠ (2 ^ 53 - 1) * 2 ^ f)
    (even : ∀ k, n = 2 ^ (e + 1) * k → 2 ^ 52 ≤ k → k < 2 ^ 53 → k % 2 = 0) :
    nearest (n + 2 ^ e) 1 / 2 ^ (e + 1) = (n + 2 ^ e) / 2 ^ (e + 1) := by
  have hunit : 0 < 2 ^ (e + 1) := Nat.two_pow_pos _
  have hdouble := two_mul_two_pow e
  -- below one half, the sum stays below one
  rcases Nat.lt_or_ge n (2 ^ e) with hsmall | hlarge
  · rw [Nat.div_eq_of_lt (nearest_add_half_near_zero he hn hsmall other),
      Nat.div_eq_of_lt (by omega)]
  -- between one half and the integers, rounding does not matter
  rcases Nat.lt_or_ge n (2 ^ (e + 53)) with hfine | hcoarse
  · exact nearest_add_half_div hn hfine hlarge
  · -- the number is an integer: with the half it is a midpoint, or the half is lost
    obtain ⟨k, rfl⟩ := whole_of_large hn hcoarse
    have hlow : 2 ^ 52 ≤ k := by
      rw [show e + 53 = e + 1 + 52 by omega, Nat.pow_add 2 (e + 1) 52] at hcoarse
      exact Nat.le_of_mul_le_mul_left hcoarse hunit
    have hlt : 2 ^ e < 2 ^ (e + 1) := Nat.pow_lt_pow_right Nat.one_lt_two (Nat.lt_succ_self _)
    have hquotient : (2 ^ (e + 1) * k + 2 ^ e) / 2 ^ (e + 1) = k := by
      rw [Nat.mul_add_div hunit, Nat.div_eq_of_lt hlt, Nat.add_zero]
    rw [hquotient]
    -- an even integer wins at the midpoint, and a larger one absorbs the half
    rcases Nat.lt_or_ge k (2 ^ 53) with hmiddle | hfar
    · rw [nearest_midpoint hlow hmiddle, even k rfl hlow hmiddle,
        Nat.mul_div_cancel_left (k + 0) hunit, Nat.add_zero]
    · have hlost : 2 ^ (e + 1 + 53) ≤ 2 ^ (e + 1) * k := by
        rw [Nat.pow_add 2 (e + 1) 53]
        exact Nat.mul_le_mul_left _ hfar
      rw [nearest_add_lost hn hlost (Nat.dvd_mul_right _ _), Nat.mul_div_cancel_left k hunit]

/-- **The difference to a half**, apart from the same odd integers: it is exact, or the half is lost
beside an integer. -/
theorem nearest_sub_half_cases
    (even : ∀ k, n = 2 ^ (e + 1) * k → 2 ^ 52 < k → k < 2 ^ 53 → k % 2 = 0) :
    nearest (n - 2 ^ e) 1 = n - 2 ^ e
      ∨ ∃ k, n = 2 ^ (e + 1) * k ∧ nearest (n - 2 ^ e) 1 = 2 ^ (e + 1) * k := by
  -- above the exact halves, the number is an integer
  rcases Nat.lt_or_ge (2 ^ (e + 53)) n with hcoarse | hfine
  · refine .inr ?_
    obtain ⟨k, rfl⟩ := whole_of_large hn (Nat.le_of_lt hcoarse)
    refine ⟨k, rfl, ?_⟩
    have hhalf : 0 < 2 ^ e := Nat.two_pow_pos e
    have hdouble := two_mul_two_pow e
    have hlow : 2 ^ 52 < k := by
      rw [show e + 53 = e + 1 + 52 by omega, Nat.pow_add 2 (e + 1) 52] at hcoarse
      exact Nat.lt_of_mul_lt_mul_left hcoarse
    -- the difference is the midpoint of the integer and the one before it
    obtain ⟨j, rfl⟩ : ∃ j, k = j + 1 := ⟨k - 1, by omega⟩
    have hmidpoint : 2 ^ (e + 1) * (j + 1) - 2 ^ e = 2 ^ (e + 1) * j + 2 ^ e := by
      rw [Nat.mul_succ]
      omega
    -- the one before is odd, so the even one wins; and far off the half is lost
    rcases Nat.lt_or_ge j (2 ^ 53) with hmiddle | hfar
    · have hodd : j % 2 = 1 := by
        by_cases hend : j + 1 < 2 ^ 53
        · have := even (j + 1) rfl hlow hend
          omega
        · omega
      rw [hmidpoint, nearest_midpoint (by omega) hmiddle, hodd]
    · refine nearest_sub_lost hn ?_
      rw [hmidpoint, Nat.pow_add 2 (e + 1) 53]
      exact Nat.le_trans (Nat.mul_le_mul_left _ hfar) (Nat.le_add_right _ _)
  -- below, the difference is exact
  · exact .inl (nearest_sub_half hn hfine)

/-- The sum with a half stays in the range. -/
theorem nearest_add_half_lt {k : Nat} (hk : e + 1 + 54 < k) (h : n < 2 ^ k) :
    nearest (n + 2 ^ e) 1 < 2 ^ k := by
  -- where the half is lost nothing is added, and further down the range is far away
  rcases Nat.lt_or_ge n (2 ^ (e + 1 + 53)) with hfine | hcoarse
  · have hhalf : 2 ^ e ≤ 2 ^ (e + 1 + 53) := Nat.pow_le_pow_right Nat.two_pos (by omega)
    have hend : 2 ^ (e + 1 + 54) = 2 * 2 ^ (e + 1 + 53) := two_mul_two_pow (e + 1 + 53)
    have hsum : nearest (n + 2 ^ e) 1 ≤ 2 ^ (e + 1 + 54) :=
      nearest_le_two_pow Nat.one_pos (by omega)
    exact Nat.lt_of_le_of_lt hsum (Nat.pow_lt_pow_right Nat.one_lt_two hk)
  · have hlarge : 2 ^ (e + 53) ≤ n :=
      Nat.le_trans (Nat.pow_le_pow_right Nat.two_pos (by omega)) hcoarse
    rw [nearest_add_lost hn hcoarse (whole_of_large hn hlarge)]
    exact h

end Ranges

end Mockup.Binary64
