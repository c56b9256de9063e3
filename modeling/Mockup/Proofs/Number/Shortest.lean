import Mockup.Proofs.Number.Fraction
import Mockup.Proofs.Number.Nearest

/-!
# Shortest decimals read back

The shortest decimal of a double is found by a search over finer and finer decimal grids, and on each
grid the two neighbours of the double are tried. The search gives something only if one of the
neighbours reads back somewhere, which depends on what the double is. Here it is a double nearest to a
number of four decimals. Then a neighbour on the grid of four decimals reads back, because rounding is
monotone and that number lies on the one or the other side; and where that grid would take more than
17 digits, the one with 17 digits is fine enough. In either case there are no more than four decimals.

* `Binary64.ReadsBack` — a decimal that reads back as a count of quanta;
* `Binary64.shortestFrom_readsBack` — what the search gives when a known grid has such a decimal;
* `Binary64.exists_readsBack_places`, `Binary64.exists_readsBack_digits` — the two grids;
* `Binary64.shortest_readsBack` — **the shortest decimal reads back and has four decimals at most.**
-/

namespace Mockup.Binary64

theorem ten_pow_pos (k : Nat) : 0 < 10 ^ k := Nat.pow_pos (by decide)

/-! ### Reading -/

theorem length_toString (n : Nat) : (toString n).length = (decimalDigits n).length := by
  rw [Nat.toString_eq_ofList_toDigits, String.length_ofList, decimalDigits]

/-- **A decimal with `k` digits after the point is read as a ratio**, when it is not beyond the range. -/
theorem ofDecimal_neg {digits k : Nat} (hk : k ≤ 300) (h : digits < 10 ^ (311 + k))
    (negative : Bool) : ofDecimal negative digits (-k) = ofRatio negative digits (10 ^ k) := by
  have hlength := length_decimalDigits_le (by omega) h
  rw [← length_toString] at hlength
  rw [ofDecimal]
  by_cases hzero : digits = 0
  -- zero is written without digits
  · rw [if_pos (.inl hzero), hzero, ofRatio, Nat.zero_mul, nearest_zero]
  -- few digits and a small exponent, so the scale is read in full
  · have hinside : ¬ (digits = 0 ∨ -(k : Int) + (toString digits).length < -330) := by omega
    rw [if_neg hinside, if_neg (by omega)]
    split
    -- no decimals: both ways of writing the ratio agree
    · obtain rfl : k = 0 := by omega
      rw [Nat.pow_zero, Int.natCast_zero, Int.neg_zero, Int.toNat_zero, Nat.pow_eq, Nat.pow_zero,
        Nat.mul_one]
    · rw [Int.neg_neg, Int.toNat_natCast, Nat.pow_eq]

/-- A decimal with `k` zeros at the end is read as an integer. -/
theorem ofDecimal_natCast {digits k : Nat} (h : k + (decimalDigits digits).length ≤ 311)
    (negative : Bool) : ofDecimal negative digits k = ofRatio negative (digits * 10 ^ k) 1 := by
  rw [← length_toString] at h
  rw [ofDecimal]
  by_cases hzero : digits = 0
  · rw [if_pos (.inl hzero), hzero, ofRatio, Nat.zero_mul, Nat.zero_mul, nearest_zero]
  · have hinside : ¬ (digits = 0 ∨ (k : Int) + (toString digits).length < -330) := by omega
    rw [if_neg hinside, if_neg (by omega), if_pos (by omega), Int.toNat_natCast, Nat.pow_eq]

/-- **A decimal that reads back** as a count of quanta. -/
def ReadsBack (n digits : Nat) (exponent : Int) : Prop :=
  ofDecimal false digits exponent = ofQuanta false n

theorem readsBack_of_nearest {n digits k : Nat} (hk : k ≤ 300) (h : digits < 10 ^ (311 + k))
    (hnearest : nearest (digits * unit) (10 ^ k) = n) : ReadsBack n digits (-k) := by
  rw [ReadsBack, ofDecimal_neg hk h, ofRatio, hnearest]

theorem ofQuanta_inj {s : Bool} {m n : Nat} (hn : Representable n)
    (h : ofQuanta s m = ofQuanta s n) : m = n := by
  rw [ofQuanta, ofQuanta, dif_pos hn] at h
  split at h
  · exact (finite.inj h).2
  · cases h

theorem nearest_of_readsBack {n digits k : Nat} (hn : Representable n) (hk : k ≤ 300)
    (h : digits < 10 ^ (311 + k)) (hread : ReadsBack n digits (-k)) :
    nearest (digits * unit) (10 ^ k) = n := by
  rw [ReadsBack, ofDecimal_neg hk h, ofRatio] at hread
  exact ofQuanta_inj hn hread

/-! ### Searching -/

/-- The two neighbours on a grid of `k` decimals are the multiples around the count. -/
theorem neighbours_neg {n k digits : Nat}
    (h : digits = n * 10 ^ k / unit ∨ digits = n * 10 ^ k / unit + 1) :
    (neighbours n (-k)).1 = digits ∨ (neighbours n (-k)).2 = digits := by
  have hone : (-(k : Int)).toNat = 0 := by omega
  rw [neighbours, Int.neg_neg, Int.toNat_natCast, hone, Nat.pow_eq, Nat.pow_eq, Nat.pow_zero,
    Nat.mul_one]
  dsimp only
  rcases divEven_cases (n * 10 ^ k) unit with ⟨hnear, -⟩ | ⟨hnear, -⟩
  · rw [hnear, if_pos rfl]
    exact h.imp Eq.symm Eq.symm
  · rw [hnear, if_neg (Nat.succ_ne_self _)]
    exact h.symm.imp Eq.symm Eq.symm

/-- **What the search gives**, when a neighbour on the grid of `last` digits reads back: a decimal that
reads back, on that grid or a coarser one. -/
theorem shortestFrom_readsBack {n : Nat} {point : Int} {last digits : Nat}
    (hdigits : (neighbours n (point - last)).1 = digits ∨ (neighbours n (point - last)).2 = digits)
    (hread : ReadsBack n digits (point - last)) :
    ∀ (remaining places : Nat), places ≤ last → last < places + remaining →
      ReadsBack n (shortestFrom n point places remaining).1
          (shortestFrom n point places remaining).2
        ∧ point - last ≤ (shortestFrom n point places remaining).2 := by
  intro remaining
  induction remaining with
  | zero =>
    intro places hplaces hlast
    omega
  | succ remaining ih =>
    intro places hplaces hlast
    rcases hneighbours : neighbours n (point - places) with ⟨near, far⟩
    rw [shortestFrom, hneighbours]
    simp only [decide_eq_true_eq]
    -- a grid tried earlier is coarser
    have hcoarser : point - last ≤ point - places := by omega
    split
    -- the nearer neighbour is tried first
    · rename_i hnear
      exact ⟨hnear, hcoarser⟩
    split
    · rename_i hfar
      exact ⟨hfar, hcoarser⟩
    · -- neither reads back, so this is not the grid that is known
      rename_i hnear hfar
      have hne : places ≠ last := by
        rintro rfl
        rw [hneighbours] at hdigits
        rcases hdigits with rfl | rfl
        · exact hnear hread
        · exact hfar hread
      -- the search goes on with one more digit
      exact ih (places + 1) (by omega) (by omega)

/-! ### Where the point is -/

theorem lt_length_decimalDigits {n k : Nat} (h : 10 ^ k ≤ n) : k < (decimalDigits n).length := by
  by_cases hk : k = 0
  · rw [hk]
    exact Nat.length_toDigits_pos
  · refine Nat.lt_of_not_le fun hle => ?_
    have := (Nat.length_toDigits_le_iff (by decide) (Nat.pos_of_ne_zero hk)).mp hle
    omega

theorem lt_ten_pow_of_length {n k : Nat} (h : (decimalDigits n).length ≤ k) : n < 10 ^ k :=
  Nat.lt_of_not_le fun hle => Nat.not_lt.mpr h (lt_length_decimalDigits hle)

/-- A count from `10 ^ (-k)` on has fewer than `k` zeros after the point. -/
theorem lt_pointPosition {n k : Nat} (hk : k ≤ 400) (h : unit ≤ n * 10 ^ k) :
    -(k : Int) < pointPosition n := by
  unfold pointPosition
  -- by how many digits the point is moved is of no importance, only that it is not fewer than `k`
  generalize hj : 400 = j at hk ⊢
  have hmoved : 10 ^ (j - k) ≤ n * Nat.pow 10 j / unit := by
    refine (Nat.le_div_iff_mul_le unit_pos).mpr ?_
    calc 10 ^ (j - k) * unit ≤ 10 ^ (j - k) * (n * 10 ^ k) := Nat.mul_le_mul_left _ h
      _ = n * 10 ^ j := by rw [Nat.mul_left_comm, ← Nat.pow_add, Nat.sub_add_cancel hk]
  have hlength := lt_length_decimalDigits hmoved
  rw [← length_toString] at hlength
  omega

/-- A count with more than `k` digits before the point is from `10 ^ k` on. -/
theorem ten_pow_mul_le_of_lt_pointPosition {n k : Nat} (h : (k : Int) < pointPosition n) :
    10 ^ k * unit ≤ n := by
  -- the count of quanta is moved up by four hundred decimals before it is cut
  unfold pointPosition at h
  generalize hj : 400 = j at h
  -- a smaller number would have a shorter numeral
  have hmoved : 10 ^ (k + j) ≤ n * Nat.pow 10 j / unit := by
    refine Nat.le_of_not_lt fun hlt => ?_
    have hlength : (toString (n * Nat.pow 10 j / unit)).length ≤ k + j := by
      rw [length_toString]
      exact length_decimalDigits_le (by omega) hlt
    omega
  have hscaled : 10 ^ k * unit * 10 ^ j ≤ n * 10 ^ j := by
    calc 10 ^ k * unit * 10 ^ j = 10 ^ (k + j) * unit := by rw [Nat.mul_right_comm, ← Nat.pow_add]
      _ ≤ n * 10 ^ j := (Nat.le_div_iff_mul_le unit_pos).mp hmoved
  exact Nat.le_of_mul_le_mul_right hscaled (ten_pow_pos j)

/-! ### Two grids -/

section Grids

variable {n : Nat}

/-- What is not whole is not a power of two, from one on. -/
theorem two_pow_log2_lt (large : unit ≤ n) (fraction : n % unit ≠ 0) : 2 ^ n.log2 < n := by
  have hne : n ≠ 0 := Nat.ne_of_gt (Nat.lt_of_lt_of_le unit_pos large)
  refine Nat.lt_of_le_of_ne (Nat.log2_self_le hne) fun heq => fraction ?_
  obtain ⟨e, he⟩ : ∃ e, e = 1074 := ⟨_, rfl⟩
  rw [unit_eq he] at large ⊢
  rw [← heq]
  exact Nat.mod_eq_zero_of_dvd (Nat.pow_dvd_pow 2 ((Nat.le_log2 hne).mpr large))

/-- **On a grid finer than the spacing, the nearest decimal reads back.** -/
theorem nearest_divEven {k : Nat} (hn : spacing n ∣ n) (inner : 2 ^ n.log2 < n)
    (fine : unit < spacing n * 10 ^ k) :
    nearest (divEven (n * 10 ^ k) unit * unit) (10 ^ k) = n := by
  have hlow := le_divEven_error (n * 10 ^ k) unit_pos
  have hhigh := divEven_error_le (n * 10 ^ k) unit
  generalize divEven (n * 10 ^ k) unit = digits at hlow hhigh ⊢
  have hcount : 10 ^ k * (2 * n) = 2 * (n * 10 ^ k) := by rw [Nat.mul_left_comm, Nat.mul_comm n]
  have hdigits : unit * (2 * digits) = 2 * (digits * unit) := by
    rw [Nat.mul_left_comm, Nat.mul_comm unit]
  rw [Nat.mul_comm (spacing n)] at fine
  exact nearest_of_close (ten_pow_pos k) hn inner (by omega) (by omega)

/-- **On the grid of the number that was rounded, a neighbour reads back**: that number is on the one
or the other side of the double, and the neighbour on that side is between them. -/
theorem exists_readsBack_places {d k : Nat} (hk : k ≤ 300) (h : n < 2 ^ 52 * unit)
    (hn : nearest (d * unit) (10 ^ k) = n) :
    ∃ digits, (digits = n * 10 ^ k / unit ∨ digits = n * 10 ^ k / unit + 1)
      ∧ ReadsBack n digits (-k) := by
  have hpow := ten_pow_pos k
  have hspacing : spacing n ∣ n := by
    rw [← hn]
    exact spacing_nearest _ hpow
  have hbound : ∀ digits ≤ n * 10 ^ k / unit + 1, digits < 10 ^ (311 + k) := fun digits hle =>
    Nat.lt_of_lt_of_le (lt_of_le_fine h hle) (Nat.pow_le_pow_right (by decide) (by omega))
  have hlow : n * 10 ^ k / unit * unit ≤ 10 ^ k * n := by
    rw [Nat.mul_comm (10 ^ k) n]
    exact Nat.div_mul_le_self _ _
  have hhigh : 10 ^ k * n ≤ (n * 10 ^ k / unit + 1) * unit := by
    rw [Nat.mul_comm (10 ^ k) n, Nat.mul_comm _ unit]
    exact Nat.le_of_lt (Nat.lt_mul_div_succ _ unit_pos)
  generalize n * 10 ^ k / unit = below at hbound hlow hhigh ⊢
  -- the decimal is above the number, and the grid point above that still rounds to it
  rcases Nat.lt_or_ge below d with habove | hbelow
  · refine ⟨below + 1, .inr rfl, readsBack_of_nearest hk (hbound _ (Nat.le_refl _)) ?_⟩
    refine Nat.le_antisymm ?_ (le_nearest_of_le hpow hspacing hhigh)
    calc nearest ((below + 1) * unit) (10 ^ k)
        ≤ nearest (d * unit) (10 ^ k) := nearest_mono hpow (Nat.mul_le_mul_right unit habove)
      _ = n := hn
  -- or not above, and the grid point below it rounds to it
  · refine ⟨below, .inl rfl, readsBack_of_nearest hk (hbound _ (Nat.le_succ _)) ?_⟩
    refine Nat.le_antisymm (nearest_le_of_le hpow hspacing hlow) ?_
    calc n = nearest (d * unit) (10 ^ k) := hn.symm
      _ ≤ nearest (below * unit) (10 ^ k) := nearest_mono hpow (Nat.mul_le_mul_right unit hbelow)

/-- **With 17 digits, a neighbour reads back**, when the point is among them. -/
theorem exists_readsBack_digits {k : Nat} (hk : k ≤ 16) (hn : spacing n ∣ n)
    (h : n < 2 ^ 52 * unit) (fraction : n % unit ≠ 0) (hpoint : pointPosition n = 17 - k) :
    ∃ digits, (digits = n * 10 ^ k / unit ∨ digits = n * 10 ^ k / unit + 1)
      ∧ ReadsBack n digits (-k) := by
  have hlarge : 10 ^ (16 - k) * unit ≤ n := ten_pow_mul_le_of_lt_pointPosition (by omega)
  have hone : unit ≤ n :=
    Nat.le_trans (Nat.le_mul_of_pos_left unit (ten_pow_pos _)) hlarge
  -- 17 digits are more than 53 bits
  have hfine : unit < spacing n * 10 ^ k := by
    refine Nat.lt_of_mul_lt_mul_left (a := 10 ^ (16 - k)) ?_
    calc 10 ^ (16 - k) * unit ≤ n := hlarge
      _ < spacing n * 2 ^ 53 := lt_spacing_mul n
      _ ≤ spacing n * 10 ^ 16 := Nat.mul_le_mul_left _ (by decide)
      _ = 10 ^ (16 - k) * (spacing n * 10 ^ k) := by
        rw [Nat.mul_left_comm, ← Nat.pow_add, Nat.sub_add_cancel hk]
  -- the grid is finer than the doubles, so the nearest point of it reads back
  have hnear := nearest_divEven hn (two_pow_log2_lt hone fraction) hfine
  have hcases : divEven (n * 10 ^ k) unit = n * 10 ^ k / unit
      ∨ divEven (n * 10 ^ k) unit = n * 10 ^ k / unit + 1 :=
    (divEven_cases _ _).imp And.left And.left
  -- the digits are few enough to be read as they are
  have hbound : divEven (n * 10 ^ k) unit < 10 ^ (311 + k) :=
    Nat.lt_of_lt_of_le (lt_of_le_fine h (divEven_le_div_add_one _ _))
      (Nat.pow_le_pow_right (by decide) (by omega))
  exact ⟨_, hcases, readsBack_of_nearest (by omega) hbound hnear⟩

end Grids

/-! ### Four decimals -/

/-- The double nearest to a ten-thousandth is not below it. -/
theorem unit_le_nearest : unit ≤ nearest (1 * unit) (10 ^ 4) * 10 ^ 4 := by
  decide +kernel

/-- **The shortest decimal** of a fraction that was rounded to four decimals reads back, and has four
decimals at most. -/
theorem shortest_readsBack {n d : Nat} (h : n < 2 ^ 52 * unit) (fraction : n % unit ≠ 0)
    (hn : nearest (d * unit) (10 ^ 4) = n) :
    ReadsBack n (shortest n).1 (shortest n).2 ∧ -4 ≤ (shortest n).2 := by
  have hspacing : spacing n ∣ n := by
    rw [← hn]
    exact spacing_nearest _ (ten_pow_pos 4)
  -- nothing but zero is rounded to zero, and what is not zero is a ten-thousandth at least
  have hd : 1 ≤ d := by
    refine Nat.one_le_iff_ne_zero.mpr fun hzero => fraction ?_
    rw [← hn, hzero, Nat.zero_mul, nearest_zero, Nat.zero_mod]
  have hsmall : unit ≤ n * 10 ^ 4 := by
    refine Nat.le_trans unit_le_nearest (Nat.mul_le_mul_right _ ?_)
    rw [← hn]
    exact nearest_mono (ten_pow_pos 4) (Nat.mul_le_mul_right unit hd)
  -- the point stands neither too far left nor too far right
  have hlow := lt_pointPosition (by decide) hsmall
  have hhigh := pointPosition_le h
  rw [shortest]
  -- the search tries seventeen grids, and that of four decimals is one of them unless the number has
  -- more than thirteen digits before the point
  rcases Int.lt_or_le 13 (pointPosition n) with hlong | hshort
  -- more than thirteen digits before the point: the last grid has seventeen digits
  · obtain ⟨k, hk⟩ : ∃ k : Nat, pointPosition n = 17 - k := ⟨(17 - pointPosition n).toNat, by omega⟩
    obtain ⟨digits, hdigits, hread⟩ :=
      exists_readsBack_digits (by omega) hspacing h fraction hk
    have hgrid : pointPosition n - (17 : Nat) = -k := by omega
    have hsearch := shortestFrom_readsBack (by rw [hgrid]; exact neighbours_neg hdigits)
      (by rw [hgrid]; exact hread) 17 1 (by decide) (by decide)
    exact ⟨hsearch.1, by omega⟩
  -- the grid of four decimals is among the seventeen
  · obtain ⟨last, hlast⟩ : ∃ last : Nat, pointPosition n - last = -(4 : Nat) :=
      ⟨(pointPosition n + 4).toNat, by omega⟩
    obtain ⟨digits, hdigits, hread⟩ := exists_readsBack_places (by decide) h hn
    have hsearch := shortestFrom_readsBack (by rw [hlast]; exact neighbours_neg hdigits)
      (by rw [hlast]; exact hread) 17 1 (by omega) (by omega)
    exact ⟨hsearch.1, by omega⟩

end Mockup.Binary64
