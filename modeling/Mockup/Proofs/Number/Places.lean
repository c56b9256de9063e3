import Mockup.Proofs.Number.Shortest

/-!
# Rounding to four decimals

Rounding to decimals goes to the nearest multiple of a ten-thousandth first, and that to the nearest
double, which need not be a multiple. Rounding twice is still the same as rounding once. Where the
doubles are closer together than the multiples, the multiple is found again; where they are further
apart, the double is found again from whatever multiple is nearest to it.

* `Binary64.roundPlaces_of_whole` — a whole number is not changed;
* `Binary64.exists_roundPlaces` — what becomes of a finite double;
* `Binary64.roundPlaces_roundPlaces` — **rounding twice is rounding once.**
-/

namespace Mockup.Binary64

/-! ### Spacings -/

/-- The spacing around a ratio is not above that around its rounded count. -/
theorem spacing_le_spacing_nearest {a b : Nat} (hb : 0 < b) :
    spacing (a / b) ≤ spacing (nearest a b) := by
  by_cases hzero : a / b = 0
  · rw [hzero]
    exact spacing_pos _
  · have hle := two_pow_log2_le_nearest hb hzero
    have hne : nearest a b ≠ 0 := Nat.ne_of_gt (Nat.lt_of_lt_of_le (Nat.two_pow_pos _) hle)
    have hlog : (a / b).log2 ≤ (nearest a b).log2 := (Nat.le_log2 hne).mpr hle
    rw [spacing_eq, spacing_eq]
    exact Nat.pow_le_pow_right Nat.two_pos (by omega)

/-- A count that is not among the finest has 53 bits. -/
theorem spacing_mul_le {n : Nat} (h : 1 < spacing n) : spacing n * 2 ^ 52 ≤ n := by
  have hlog : 52 < n.log2 := by
    refine Nat.lt_of_not_le fun hle => ?_
    rw [spacing_eq, Nat.sub_eq_zero_of_le hle] at h
    exact Nat.lt_irrefl _ h
  have hne : n ≠ 0 := by
    rintro rfl
    exact Nat.not_lt_zero _ hlog
  rw [spacing_eq, ← Nat.pow_add, Nat.sub_add_cancel (Nat.le_of_lt hlog)]
  exact Nat.log2_self_le hne

/-- Doubles are either closer together than ten-thousandths or further apart. -/
theorem spacing_lt_or_lt (n : Nat) :
    10 ^ 4 * spacing n < unit ∨ unit < spacing n * 10 ^ 4 := by
  obtain ⟨e, he⟩ : ∃ e, e = 1074 := ⟨_, rfl⟩
  rw [unit_eq he, spacing_eq]
  -- both are powers of two, and ten thousand lies between two of them
  generalize n.log2 - 52 = j
  have hpos : 0 < 2 ^ j := Nat.two_pow_pos j
  rcases Nat.lt_or_ge (j + 13) e with hfine | hcoarse
  -- below it the grid of doubles is the finer one
  · left
    calc 10 ^ 4 * 2 ^ j < 2 ^ 14 * 2 ^ j := Nat.mul_lt_mul_of_pos_right (by decide) hpos
      _ = 2 ^ (14 + j) := (Nat.pow_add 2 14 j).symm
      _ ≤ 2 ^ e := Nat.pow_le_pow_right Nat.two_pos (by omega)
  -- from there on the grid of decimals is
  · right
    calc 2 ^ e ≤ 2 ^ (j + 13) := Nat.pow_le_pow_right Nat.two_pos hcoarse
      _ = 2 ^ j * 2 ^ 13 := Nat.pow_add 2 j 13
      _ < 2 ^ j * 10 ^ 4 := Nat.mul_lt_mul_of_pos_left (by decide) hpos

/-! ### Counts -/

theorem ten_pow_le_unit : 10 ^ 4 ≤ unit := by
  obtain ⟨e, he⟩ : ∃ e, e = 1074 := ⟨_, rfl⟩
  rw [unit_eq he]
  calc 10 ^ 4 ≤ 2 ^ 14 := by decide
    _ ≤ 2 ^ e := Nat.pow_le_pow_right Nat.two_pos (by omega)

/-- **A fraction that was rounded to four decimals** is rounded to itself. -/
theorem nearest_divEven_of_nearest {n d : Nat} (fraction : n % unit ≠ 0)
    (hn : nearest (d * unit) (10 ^ 4) = n) :
    nearest (divEven (n * 10 ^ 4) unit * unit) (10 ^ 4) = n := by
  have hten := ten_pow_pos 4
  rcases spacing_lt_or_lt (d * unit / 10 ^ 4) with hfine | hcoarse
  · -- the multiple is found again
    -- the double is close to the multiple, less than half a unit off
    have hhigh := nearest_error_le (d * unit) (10 ^ 4)
    have hlow := le_nearest_error (d * unit) hten
    rw [hn] at hhigh hlow
    have hmultiple : divEven (n * 10 ^ 4) unit = d := by
      have hd : unit * (2 * d) = 2 * (d * unit) := by rw [Nat.mul_left_comm, Nat.mul_comm unit]
      refine divEven_of_close unit_pos ?_ ?_
      · rw [hd]
        omega
      · rw [hd]
        omega
    rw [hmultiple, hn]
  · -- the double is found again
    have hspacing : spacing n ∣ n := by
      rw [← hn]
      exact spacing_nearest _ hten
    -- the doubles around are wider than the decimals
    have hfine : unit < spacing n * 10 ^ 4 := by
      refine Nat.lt_of_lt_of_le hcoarse (Nat.mul_le_mul_right _ ?_)
      rw [← hn]
      exact spacing_le_spacing_nearest hten
    -- so the number is at least one
    have hlarge : unit ≤ n := by
      have hone : 1 < spacing n := by
        refine Nat.lt_of_not_le fun hle => ?_
        have := ten_pow_le_unit
        omega
      calc unit ≤ spacing n * 10 ^ 4 := Nat.le_of_lt hfine
        _ ≤ spacing n * 2 ^ 52 := Nat.mul_le_mul_left _ (by decide)
        _ ≤ n := spacing_mul_le hone
    -- and its decimal neighbour is rounded back to it
    exact nearest_divEven hspacing (two_pow_log2_lt hlarge fraction) hfine

/-! ### Doubles -/

theorem roundPlaces_finite {s : Bool} {n : Nat} (h : Representable n) (places : Nat) :
    (finite s n h).roundPlaces places
      = ofQuanta s (nearest (divEven (n * 10 ^ places) unit * unit) (10 ^ places)) := rfl

/-- A whole number is not changed. -/
theorem roundPlaces_of_whole {s : Bool} {n : Nat} (h : Representable n) (whole : n % unit = 0)
    (places : Nat) : (finite s n h).roundPlaces places = finite s n h := by
  obtain ⟨k, hk⟩ : unit ∣ n := Nat.dvd_of_mod_eq_zero whole
  have hmultiple : divEven (n * 10 ^ places) unit = 10 ^ places * k := by
    rw [hk, Nat.mul_assoc, divEven_mul_right unit_pos, Nat.mul_comm]
  have hexact : nearest (10 ^ places * k * unit) (10 ^ places) = n := by
    rw [Nat.mul_assoc, Nat.mul_comm k, ← hk]
    exact nearest_mul_left (ten_pow_pos places) h.spacing_dvd
  rw [roundPlaces_finite, hmultiple, hexact, ofQuanta, dif_pos h]

/-- **What becomes of a finite double**: a double of the same sign, whole or nearest to a multiple of a
ten-thousandth. -/
theorem exists_roundPlaces (s : Bool) {n : Nat} (h : Representable n) :
    ∃ m, ∃ hm : Representable m, (finite s n h).roundPlaces 4 = finite s m hm
      ∧ (m % unit = 0 ∨ ∃ d, nearest (d * unit) (10 ^ 4) = m) := by
  by_cases whole : n % unit = 0
  · exact ⟨n, h, roundPlaces_of_whole h whole 4, .inl whole⟩
  · -- a fraction is below `2 ^ 52`, so what it is rounded to does not leave the range
    have hmultiple : divEven (n * 10 ^ 4) unit ≤ 10 ^ 4 * 2 ^ 52 := by
      refine divEven_le_of_le_mul unit_pos ?_
      calc n * 10 ^ 4 ≤ 2 ^ 52 * unit * 10 ^ 4 :=
            Nat.mul_le_mul_right _ (Nat.le_of_lt (lt_of_fraction h whole))
        _ = unit * (10 ^ 4 * 2 ^ 52) := by
            rw [Nat.mul_comm (2 ^ 52), Nat.mul_assoc, Nat.mul_comm (2 ^ 52)]
    -- so it is a double
    have hwithin : Within 52 ((finite s n h).roundPlaces 4) :=
      within_ofRatio (by decide) (ten_pow_pos 4) hmultiple s
    rw [roundPlaces_finite, ofQuanta] at hwithin ⊢
    split
    · rename_i hm
      exact ⟨_, hm, rfl, .inr ⟨_, rfl⟩⟩
    -- an infinite one was excluded
    · rename_i hm
      rw [dif_neg hm] at hwithin
      cases hwithin

/-- **Rounding to four decimals twice is rounding once.** -/
theorem roundPlaces_roundPlaces (x : Binary64) :
    (x.roundPlaces 4).roundPlaces 4 = x.roundPlaces 4 := by
  cases x with
  | infinite s => rfl
  | nan => rfl
  | finite s n h =>
    obtain ⟨m, hm, hround, hcases⟩ := exists_roundPlaces s h
    rw [hround]
    by_cases whole : m % unit = 0
    -- what was rounded to an integer is not rounded again
    · exact roundPlaces_of_whole hm whole 4
    -- what was rounded to a multiple is rounded to it again
    · obtain ⟨d, hd⟩ := hcases.resolve_left whole
      rw [roundPlaces_finite, nearest_divEven_of_nearest whole hd, ofQuanta, dif_pos hm]

end Mockup.Binary64
