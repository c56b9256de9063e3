import Mockup.Proofs.Number.Exact

/-!
# Rounding keeps the order and stays near

What later proofs use of `Binary64.nearest` is not how it divides but three facts about its result. It
is a monotone function of the exact ratio; it is off by half the spacing of doubles at most; and a
count of a double that is nearer than that is the result. The first is not obvious, since two ratios
may be rounded with different spacings: then a power of two lies between them that neither of the
results passes.

* `divEven_mono`, `divEven_error_le`, `le_divEven_error`, `divEven_of_close` — the same for quotients;
* `Binary64.nearest_mono` — **rounding is monotone**;
* `Binary64.nearest_le_of_le`, `Binary64.le_nearest_of_le` — so it does not pass a double;
* `Binary64.nearest_error_le`, `Binary64.le_nearest_error` — **the error is half the spacing at most**;
* `Binary64.nearest_of_close` — **what is nearer than that is the result**.
-/

namespace Mockup

/-! ### Rounded quotients -/

/-- The two ways of rounding a quotient, each with what it says about the rest. -/
theorem divEven_cases (a b : Nat) :
    divEven a b = a / b ∧ 2 * (a % b) ≤ b ∨ divEven a b = a / b + 1 ∧ b ≤ 2 * (a % b) := by
  unfold divEven
  dsimp only
  split
  · rename_i below
    exact .inl ⟨rfl, Nat.le_of_lt below⟩
  split
  · rename_i above
    exact .inr ⟨rfl, Nat.le_of_lt above⟩
  · -- a half goes one way or the other, and both are right about the rest
    rcases Nat.mod_two_eq_zero_or_one (a / b) with heven | hodd
    · exact .inl ⟨by rw [heven, Nat.add_zero], by omega⟩
    · exact .inr ⟨by rw [hodd], by omega⟩

/-- **A rounded quotient is a monotone function of the dividend.** -/
theorem divEven_mono {a a' : Nat} (b : Nat) (h : a ≤ a') : divEven a b ≤ divEven a' b := by
  -- the quotient of the larger is larger
  rcases Nat.lt_or_eq_of_le (Nat.div_le_div_right (c := b) h) with hlt | heq
  · calc divEven a b ≤ a / b + 1 := divEven_le_div_add_one a b
      _ ≤ a' / b := hlt
      _ ≤ divEven a' b := div_le_divEven a' b
  · -- the same quotient, so the rests are compared
    have hrest : a % b ≤ a' % b := by
      have ha := Nat.div_add_mod a b
      have ha' := Nat.div_add_mod a' b
      rw [heq] at ha
      omega
    unfold divEven
    rw [heq]
    dsimp only
    -- below, above and at a half, on either side
    repeat' split
    all_goals omega

/-- A rounded quotient is too large by a half at most. -/
theorem divEven_error_le (a b : Nat) : b * (2 * divEven a b) ≤ 2 * a + b := by
  have hdivision := Nat.div_add_mod a b
  rcases divEven_cases a b with ⟨heq, -⟩ | ⟨heq, hrest⟩
  · rw [heq, Nat.mul_left_comm]
    omega
  · rw [heq, Nat.mul_left_comm, Nat.mul_add, Nat.mul_one]
    omega

/-- A rounded quotient is too small by a half at most. -/
theorem le_divEven_error (a : Nat) {b : Nat} (hb : 0 < b) :
    2 * a ≤ b * (2 * divEven a b) + b := by
  have hdivision := Nat.div_add_mod a b
  have hlt := Nat.mod_lt a hb
  rcases divEven_cases a b with ⟨heq, hrest⟩ | ⟨heq, -⟩
  · rw [heq, Nat.mul_left_comm]
    omega
  · rw [heq, Nat.mul_left_comm, Nat.mul_add, Nat.mul_one]
    omega

/-- **An integer that is nearer than a half is the rounded quotient.** -/
theorem divEven_of_close {a b n : Nat} (hb : 0 < b) (low : b * (2 * n) < 2 * a + b)
    (high : 2 * a < b * (2 * n) + b) : divEven a b = n := by
  have hle := divEven_error_le a b
  have hge := le_divEven_error a hb
  -- the rounded quotient is less than one away from both sides
  refine Nat.le_antisymm ?_ ?_
  · have hlt : b * (2 * divEven a b) < b * (2 * n + 2) := by
      rw [Nat.mul_add]
      omega
    have := Nat.lt_of_mul_lt_mul_left hlt
    omega
  · have hlt : b * (2 * n) < b * (2 * divEven a b + 2) := by
      rw [Nat.mul_add]
      omega
    have := Nat.lt_of_mul_lt_mul_left hlt
    omega

/-- Half of an odd number goes to the even neighbour. -/
theorem divEven_half {d : Nat} (hd : 0 < d) (n : Nat) :
    divEven (2 * d * n + d) (2 * d) = n + n % 2 := by
  have hquotient : (2 * d * n + d) / (2 * d) = n := by
    rw [Nat.mul_add_div (by omega), Nat.div_eq_of_lt (by omega), Nat.add_zero]
  have hrest : (2 * d * n + d) % (2 * d) = d := by
    rw [Nat.mul_add_mod, Nat.mod_eq_of_lt (by omega)]
  unfold divEven
  rw [hquotient, hrest]
  dsimp only
  rw [if_neg (Nat.lt_irrefl _), if_neg (Nat.lt_irrefl _)]

/-- A quotient of multiples. -/
theorem divEven_mul_mul_left {c : Nat} (hc : 0 < c) (a b : Nat) :
    divEven (c * a) (c * b) = divEven a b := by
  have hless : ∀ m n, (2 * (c * m) < c * n) = (2 * m < n) := by
    intro m n
    rw [Nat.mul_left_comm]
    exact propext (Nat.mul_lt_mul_left hc)
  have hmore : ∀ m n, (c * n < 2 * (c * m)) = (n < 2 * m) := by
    intro m n
    rw [Nat.mul_left_comm]
    exact propext (Nat.mul_lt_mul_left hc)
  simp only [divEven, Nat.mul_div_mul_left a b hc, Nat.mul_mod_mul_left, hless, hmore]

namespace Binary64

/-! ### Spacings -/

theorem log2_mono {m n : Nat} (h : m ≤ n) : m.log2 ≤ n.log2 := by
  by_cases hm : m = 0
  · rw [hm]
    exact Nat.zero_le _
  · have hn : n ≠ 0 := fun hn => hm (Nat.le_zero.mp (hn ▸ h))
    exact (Nat.le_log2 hn).mpr (Nat.le_trans (Nat.log2_self_le hm) h)

/-- A spacing divides every power of two from its own binade on. -/
theorem spacing_dvd_two_pow_of_le {n k : Nat} (h : n.log2 ≤ k) : spacing n ∣ 2 ^ k :=
  Nat.pow_dvd_pow 2 (Nat.le_trans (Nat.sub_le ..) h)

theorem spacing_dvd_spacing {m n : Nat} (h : m ≤ n) : spacing m ∣ spacing n :=
  Nat.pow_dvd_pow 2 (Nat.sub_le_sub_right (log2_mono h) 52)

/-! ### Doubles -/

theorem Representable.spacing_dvd {n : Nat} (h : Representable n) : spacing n ∣ n :=
  Nat.dvd_of_mod_eq_zero h.1

theorem representable_of_dvd {n : Nat} (hn : spacing n ∣ n) (h : n < limit) : Representable n :=
  ⟨Nat.mod_eq_zero_of_dvd hn, h⟩

/-- **A double is rounded to itself.** -/
theorem nearest_one_of_dvd {n : Nat} (hn : spacing n ∣ n) : nearest n 1 = n := by
  have hexact := nearest_mul_left Nat.one_pos hn
  rwa [Nat.one_mul] at hexact

/-- The double of a ratio whose count is known. -/
theorem ofRatio_of_nearest {s : Bool} {a b n : Nat} (h : Representable n)
    (hn : nearest (a * unit) b = n) : ofRatio s a b = .finite s n h := by
  rw [ofRatio, hn, ofQuanta, dif_pos h]

/-! ### Ratios -/

theorem nearest_zero (b : Nat) : nearest 0 b = 0 := by
  rw [nearest_eq, divEven]
  simp

/-- **Only the ratio counts.** -/
theorem nearest_mul_mul_left {c : Nat} (hc : 0 < c) (a b : Nat) :
    nearest (c * a) (c * b) = nearest a b := by
  rw [nearest_eq, nearest_eq, Nat.mul_div_mul_left a b hc, Nat.mul_assoc, divEven_mul_mul_left hc]

/-! ### Order -/

variable {a b n : Nat}

/-- A rounded count does not fall below the power of two at the start of the binade. -/
theorem two_pow_log2_le_nearest (hb : 0 < b) (h : a / b ≠ 0) :
    2 ^ (a / b).log2 ≤ nearest a b := by
  obtain ⟨m, hm⟩ := spacing_dvd_two_pow_of_le (Nat.le_refl (a / b).log2)
  rw [nearest_eq, hm, Nat.mul_comm (spacing (a / b)) m]
  refine Nat.mul_le_mul_right _
    (le_divEven_of_mul_le (Nat.mul_pos hb (spacing_pos _)) ?_)
  calc b * spacing (a / b) * m = b * 2 ^ (a / b).log2 := by rw [hm, Nat.mul_assoc]
    _ ≤ b * (a / b) := Nat.mul_le_mul_left b (Nat.log2_self_le h)
    _ ≤ a := Nat.mul_div_le a b

/-- **Rounding is monotone.** -/
theorem nearest_mono {a' : Nat} (hb : 0 < b) (h : a ≤ a') : nearest a b ≤ nearest a' b := by
  have hratio : a / b ≤ a' / b := Nat.div_le_div_right h
  rcases Nat.lt_or_eq_of_le (log2_mono hratio) with hlt | heq
  · -- the power of two at the start of the larger binade is between the two
    have hne : a' / b ≠ 0 := by
      intro hzero
      rw [hzero] at hlt
      exact Nat.not_lt_zero _ hlt
    have hbelow : a / b < 2 ^ (a' / b).log2 :=
      Nat.lt_of_lt_of_le Nat.lt_log2_self (Nat.pow_le_pow_right Nat.two_pos hlt)
    have hupper : a ≤ b * 2 ^ (a' / b).log2 := by
      rw [Nat.mul_comm]
      exact Nat.le_of_lt ((Nat.div_lt_iff_lt_mul hb).mp hbelow)
    exact Nat.le_trans (nearest_le_two_pow hb hupper) (two_pow_log2_le_nearest hb hne)
  -- in one binade both are rounded to one grid
  · have hspacing : spacing (a / b) = spacing (a' / b) := by
      rw [spacing_eq, spacing_eq, heq]
    rw [nearest_eq, nearest_eq, hspacing]
    exact Nat.mul_le_mul_right _ (divEven_mono _ h)

/-- So a rounded count does not pass that of a double from below. -/
theorem nearest_le_of_le (hb : 0 < b) (hn : spacing n ∣ n) (h : a ≤ b * n) : nearest a b ≤ n :=
  Nat.le_trans (nearest_mono hb h) (Nat.le_of_eq (nearest_mul_left hb hn))

/-- Nor from above. -/
theorem le_nearest_of_le (hb : 0 < b) (hn : spacing n ∣ n) (h : b * n ≤ a) : n ≤ nearest a b :=
  Nat.le_trans (Nat.le_of_eq (nearest_mul_left hb hn).symm) (nearest_mono hb h)

/-- An integer of more than 53 bits is not rounded to one of fewer bits. -/
theorem two_pow_mul_unit_le_nearest {k : Nat} (h : 2 ^ 53 ≤ k) :
    2 ^ 53 * unit ≤ nearest (k * unit) 1 := by
  refine le_nearest_of_le Nat.one_pos (representable_mul_unit (Nat.le_refl _)).spacing_dvd ?_
  rw [Nat.one_mul]
  exact Nat.mul_le_mul_right unit h

/-! ### Nearness -/

/-- A rounded count is too large by half the spacing at most. -/
theorem nearest_error_le (a b : Nat) :
    b * (2 * nearest a b) ≤ 2 * a + b * spacing (a / b) := by
  calc b * (2 * nearest a b)
      = b * spacing (a / b) * (2 * divEven a (b * spacing (a / b))) := by
        rw [nearest_eq, Nat.mul_assoc b, ← Nat.mul_assoc 2, Nat.mul_comm (spacing (a / b))]
    _ ≤ 2 * a + b * spacing (a / b) := divEven_error_le a _

/-- A rounded count is too small by half the spacing at most. -/
theorem le_nearest_error (a : Nat) (hb : 0 < b) :
    2 * a ≤ b * (2 * nearest a b) + b * spacing (a / b) := by
  calc 2 * a ≤ b * spacing (a / b) * (2 * divEven a (b * spacing (a / b)))
        + b * spacing (a / b) := le_divEven_error a (Nat.mul_pos hb (spacing_pos _))
    _ = b * (2 * nearest a b) + b * spacing (a / b) := by
        rw [nearest_eq, Nat.mul_assoc b, ← Nat.mul_assoc 2, Nat.mul_comm (spacing (a / b))]

/-- A count that is a multiple of the spacing and nearer than half of it is the result. -/
theorem nearest_of_close_of_dvd (hb : 0 < b) (hn : spacing (a / b) ∣ n)
    (low : b * (2 * n) < 2 * a + b * spacing (a / b))
    (high : 2 * a < b * (2 * n) + b * spacing (a / b)) : nearest a b = n := by
  obtain ⟨m, rfl⟩ := hn
  have hswap : b * (2 * (spacing (a / b) * m)) = b * spacing (a / b) * (2 * m) := by
    rw [Nat.mul_left_comm 2, Nat.mul_assoc b]
  rw [hswap] at low high
  rw [nearest_eq, divEven_of_close (Nat.mul_pos hb (spacing_pos _)) low high, Nat.mul_comm]

/-- **A double that is nearer than half its spacing is the result.** A power of two is left out: the
doubles below it have half the spacing. -/
theorem nearest_of_close (hb : 0 < b) (hn : spacing n ∣ n) (inner : 2 ^ n.log2 < n)
    (low : b * (2 * n) < 2 * a + b * spacing n)
    (high : 2 * a < b * (2 * n) + b * spacing n) : nearest a b = n := by
  -- the double is no zero, as it is above a power of two
  have hne : n ≠ 0 := Nat.ne_of_gt (Nat.lt_of_le_of_lt (Nat.zero_le _) inner)
  -- the neighbours of the double are in the same binade
  have hbelow : 2 ^ n.log2 + spacing n ≤ n := by
    have hdvd := Nat.dvd_sub hn (spacing_dvd_two_pow_of_le (Nat.le_refl n.log2))
    have := Nat.le_of_dvd (Nat.sub_pos_of_lt inner) hdvd
    omega
  have habove : n + spacing n ≤ 2 ^ (n.log2 + 1) := by
    have hdvd := Nat.dvd_sub (spacing_dvd_two_pow_of_le (Nat.le_succ n.log2)) hn
    have := Nat.le_of_dvd (Nat.sub_pos_of_lt Nat.lt_log2_self) hdvd
    have : n < 2 ^ (n.log2 + 1) := Nat.lt_log2_self
    omega
  -- so the ratio is in that binade as well
  have hlow : b * 2 ^ n.log2 ≤ a := by
    have := Nat.mul_le_mul_left b hbelow
    rw [Nat.mul_add] at this
    rw [Nat.mul_left_comm] at low
    omega
  have hhigh : a < b * 2 ^ (n.log2 + 1) := by
    have := Nat.mul_le_mul_left b habove
    rw [Nat.mul_add] at this
    rw [Nat.mul_left_comm] at high
    omega
  -- the quotient has the same leading bit
  have hle : 2 ^ n.log2 ≤ a / b := (Nat.le_div_iff_mul_le hb).mpr (Nat.mul_comm b _ ▸ hlow)
  have hlt : a / b < 2 ^ (n.log2 + 1) :=
    (Nat.div_lt_iff_lt_mul hb).mpr (Nat.mul_comm b _ ▸ hhigh)
  have hratio : a / b ≠ 0 := Nat.ne_of_gt (Nat.lt_of_lt_of_le (Nat.two_pow_pos _) hle)
  have hspacing : spacing (a / b) = spacing n := by
    rw [spacing_eq, spacing_eq, (Nat.log2_eq_iff hratio).mpr ⟨hle, hlt⟩]
  -- and the same spacing, which decides the rounding
  rw [← hspacing] at hn low high
  exact nearest_of_close_of_dvd hb hn low high

end Binary64

end Mockup
