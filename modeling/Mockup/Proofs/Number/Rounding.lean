import Mathlib.Algebra.Group.Nat.Defs
import Mockup.Number.Binary64

/-!
# Rounding to 53 bits

`Binary64.nearest` divides by the spacing of doubles around the exact ratio, rounds the quotient and
multiplies again. Two things are wanted of the result. It is a multiple of its own spacing, also when
rounding carries it into the next binade, so that it is a double unless it is too large; and it does
not pass a power of two that the exact ratio does not pass, so that it is not too large.

* `divEven_le_of_le_mul`, `le_divEven_of_mul_le` — a rounded quotient does not pass a whole number
  that the exact one does not pass;
* `spacing_mul_two_pow` — a count with 53 significant bits is a multiple of its spacing;
* `spacing_nearest` — **a rounded count is a multiple of its spacing**;
* `nearest_le_two_pow` — a rounded count does not pass a power of two.
-/

namespace Mockup

/-! ### Rounded quotients -/

theorem div_le_divEven (a b : Nat) : a / b ≤ divEven a b := by
  unfold divEven
  dsimp only
  split
  · exact Nat.le_refl _
  split
  · exact Nat.le_succ _
  · exact Nat.le_add_right _ _

theorem divEven_le_div_add_one (a b : Nat) : divEven a b ≤ a / b + 1 := by
  unfold divEven
  dsimp only
  split
  · exact Nat.le_succ _
  split
  · exact Nat.le_refl _
  · exact Nat.add_le_add_left (Nat.le_of_lt_succ (Nat.mod_lt _ Nat.two_pos)) _

/-- An exact quotient is not rounded. -/
theorem divEven_mul_right {b : Nat} (hb : 0 < b) (n : Nat) : divEven (b * n) b = n := by
  unfold divEven
  dsimp only
  rw [Nat.mul_mod_right, if_pos hb, Nat.mul_div_cancel_left n hb]

/-- A rounded quotient does not pass a whole number from below. -/
theorem divEven_le_of_le_mul {a b n : Nat} (hb : 0 < b) (h : a ≤ b * n) : divEven a b ≤ n := by
  have hfloor : a / b ≤ n := Nat.div_le_of_le_mul h
  rcases Nat.lt_or_eq_of_le hfloor with hlt | heq
  · exact Nat.le_trans (divEven_le_div_add_one a b) hlt
  · -- the quotient is the whole number, so it is exact
    have hexact : a = b * n := Nat.le_antisymm h (heq ▸ Nat.mul_div_le a b)
    rw [hexact]
    exact Nat.le_of_eq (divEven_mul_right hb n)

/-- A rounded quotient does not pass a whole number from above. -/
theorem le_divEven_of_mul_le {a b n : Nat} (hb : 0 < b) (h : b * n ≤ a) : n ≤ divEven a b :=
  Nat.le_trans ((Nat.le_div_iff_mul_le hb).mpr (Nat.mul_comm b n ▸ h)) (div_le_divEven a b)

namespace Binary64

/-! ### The spacing of doubles -/

theorem spacing_eq (n : Nat) : spacing n = 2 ^ (n.log2 - 52) := rfl

theorem spacing_pos (n : Nat) : 0 < spacing n := Nat.two_pow_pos _

/-- A count has at most 53 bits above its spacing. -/
theorem lt_spacing_mul (n : Nat) : n < spacing n * 2 ^ 53 := by
  rw [spacing_eq, ← Nat.pow_add]
  refine Nat.lt_of_lt_of_le Nat.lt_log2_self (Nat.pow_le_pow_right Nat.two_pos ?_)
  omega

/-- The spacing around a count below a power of two divides that power and all that follow. -/
theorem spacing_dvd_two_pow {n k : Nat} (h : n < 2 ^ (k + 53)) : spacing n ∣ 2 ^ k := by
  by_cases hn : n = 0
  · subst hn
    exact Nat.one_dvd _
  · have hlog : n.log2 < k + 53 := (Nat.log2_lt hn).mpr h
    exact Nat.pow_dvd_pow 2 (by omega)

/-- A count with 53 significant bits is a multiple of its spacing. -/
theorem spacing_mul_two_pow {m : Nat} (hm : m ≤ 2 ^ 53) (e : Nat) :
    spacing (m * 2 ^ e) ∣ m * 2 ^ e := by
  rcases Nat.lt_or_eq_of_le hm with hlt | rfl
  · -- below the carry the power of two is itself a multiple of the spacing
    refine Nat.dvd_trans (spacing_dvd_two_pow ?_) (Nat.dvd_mul_left _ m)
    rw [Nat.add_comm, Nat.pow_add]
    exact Nat.mul_lt_mul_of_pos_right hlt (Nat.two_pow_pos e)
  · -- the carry: one bit in the next binade
    rw [← Nat.pow_add]
    refine spacing_dvd_two_pow (Nat.pow_lt_pow_right Nat.one_lt_two ?_)
    omega

/-! ### Rounded counts -/

theorem nearest_eq (a b : Nat) :
    nearest a b = divEven a (b * spacing (a / b)) * spacing (a / b) := rfl

/-- **A rounded count is a multiple of its spacing.** -/
theorem spacing_nearest (a : Nat) {b : Nat} (hb : 0 < b) :
    spacing (nearest a b) ∣ nearest a b := by
  rw [nearest_eq]
  refine spacing_mul_two_pow (divEven_le_of_le_mul ?_ ?_) _
  · exact Nat.mul_pos hb (spacing_pos _)
  · calc a ≤ b * (a / b + 1) := Nat.le_of_lt (Nat.lt_mul_div_succ a hb)
      _ ≤ b * (spacing (a / b) * 2 ^ 53) := Nat.mul_le_mul_left b (lt_spacing_mul (a / b))
      _ = b * spacing (a / b) * 2 ^ 53 := (Nat.mul_assoc ..).symm

/-- A rounded count does not pass a multiple of the spacing around the exact ratio. -/
theorem nearest_le {a b c : Nat} (hb : 0 < b) (h : a ≤ b * c) (hc : spacing (a / b) ∣ c) :
    nearest a b ≤ c := by
  obtain ⟨m, rfl⟩ := hc
  rw [nearest_eq, Nat.mul_comm (spacing (a / b)) m]
  refine Nat.mul_le_mul_right _ (divEven_le_of_le_mul (Nat.mul_pos hb (spacing_pos _)) ?_)
  rwa [Nat.mul_assoc]

/-- **A rounded count does not pass a power of two.** -/
theorem nearest_le_two_pow {a b k : Nat} (hb : 0 < b) (h : a ≤ b * 2 ^ k) :
    nearest a b ≤ 2 ^ k := by
  refine nearest_le hb h (spacing_dvd_two_pow ?_)
  calc a / b ≤ 2 ^ k := Nat.div_le_of_le_mul h
    _ < 2 ^ (k + 53) := Nat.pow_lt_pow_right Nat.one_lt_two (by omega)

end Binary64

end Mockup
