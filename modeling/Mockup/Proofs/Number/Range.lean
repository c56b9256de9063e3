import Mockup.Number.Basic
import Mockup.Proofs.Number.Rounding

/-!
# Numbers in a range

Arithmetic on documents fails only where a number leaves the range of doubles. Numbers whose magnitude
is at most a power of two stay in the range through a sum or a product, and the bound of the result
is known.

* `Binary64.Within`, `Number.Within` — a finite number of magnitude at most `2 ^ k`;
* `Binary64.within_add`, `Binary64.within_mul` — **arithmetic in a range**;
* `Number.within_toDouble?`, `Number.within_sub?`, `Number.within_mul?` — the same for numbers as a
  document writes them, where an operation may have no result;
* `Number.exists_mul?_two_pow` — a number that is doubled again and again.
-/

namespace Mockup

namespace Binary64

/-- **A double in a range**: it is finite, and its magnitude is at most `2 ^ k`. -/
inductive Within (k : Nat) : Binary64 → Prop
  | finite {negative : Bool} {n : Nat} {h : Representable n} (le : n ≤ 2 ^ k * unit) :
    Within k (.finite negative n h)

/-- The number of quanta in one, the exponent a variable so that the power is not evaluated. -/
theorem unit_eq {e : Nat} (he : e = 1074) : unit = 2 ^ e := by
  unfold unit
  generalize 1074 = k at *
  subst he
  exact Nat.pow_eq

theorem limit_eq {e : Nat} (he : e = 2098) : limit = 2 ^ e := by
  unfold limit
  generalize 2098 = k at *
  subst he
  exact Nat.pow_eq

theorem unit_pos : 0 < unit := by
  obtain ⟨e, he⟩ : ∃ e, e = 1074 := ⟨_, rfl⟩
  rw [unit_eq he]
  exact Nat.two_pow_pos e

/-- A power of two, counted in quanta, is a power of two. -/
theorem two_pow_mul_unit (k : Nat) : 2 ^ k * unit = 2 ^ (k + 1074) := by
  obtain ⟨e, he⟩ : ∃ e, e = 1074 := ⟨_, rfl⟩
  rw [unit_eq he, ← he, Nat.pow_add]

/-- The powers of two below `2 ^ 1024` are in the range of doubles. -/
theorem two_pow_mul_unit_lt_limit {k : Nat} (hk : k < 1024) : 2 ^ k * unit < limit := by
  obtain ⟨e, he⟩ : ∃ e, e = 2098 := ⟨_, rfl⟩
  rw [two_pow_mul_unit, limit_eq he]
  exact Nat.pow_lt_pow_right Nat.one_lt_two (by omega)

theorem Within.mono {j k : Nat} {x : Binary64} (h : x.Within j) (hjk : j ≤ k) : x.Within k := by
  obtain ⟨le⟩ := h
  exact ⟨Nat.le_trans le (Nat.mul_le_mul_right _ (Nat.pow_le_pow_right Nat.two_pos hjk))⟩

/-- A count that is a multiple of its spacing and not too large is that of a double. -/
theorem within_ofQuanta {k n : Nat} (hk : k < 1024) (hspacing : spacing n ∣ n)
    (h : n ≤ 2 ^ k * unit) (negative : Bool) : Within k (ofQuanta negative n) := by
  have hlimit : n < limit := Nat.lt_of_le_of_lt h (two_pow_mul_unit_lt_limit hk)
  rw [ofQuanta, dif_pos ⟨Nat.mod_eq_zero_of_dvd hspacing, hlimit⟩]
  exact ⟨h⟩

/-- A rounded count is that of a double when the exact one is not too large. -/
theorem within_ofQuanta_nearest {k a b : Nat} (hk : k < 1024) (hb : 0 < b)
    (h : a ≤ b * (2 ^ k * unit)) (negative : Bool) :
    Within k (ofQuanta negative (nearest a b)) := by
  refine within_ofQuanta hk (spacing_nearest a hb) ?_ negative
  rw [two_pow_mul_unit] at h ⊢
  exact nearest_le_two_pow hb h

theorem within_ofRatio {k a b : Nat} (hk : k < 1024) (hb : 0 < b) (h : a ≤ b * 2 ^ k)
    (negative : Bool) : Within k (ofRatio negative a b) := by
  refine within_ofQuanta_nearest hk hb ?_ negative
  rw [← Nat.mul_assoc]
  exact Nat.mul_le_mul_right unit h

/-- An integer in a range is rounded to a double. -/
theorem within_ofInt? {k : Nat} (hk : k < 1024) {z : Int} (h : z.natAbs ≤ 2 ^ k) :
    ∃ x, ofInt? z = some x ∧ x.Within k := by
  rw [← Nat.one_mul (2 ^ k)] at h
  have hz : Within k (ofRatio (z < 0) z.natAbs 1) := within_ofRatio hk Nat.one_pos h _
  rw [ofInt?]
  -- from here on it is any double in the range
  generalize ofRatio (z < 0) z.natAbs 1 = x at hz ⊢
  obtain ⟨le⟩ := hz
  exact ⟨_, rfl, ⟨le⟩⟩

theorem within_neg {k : Nat} {x : Binary64} (h : x.Within k) : x.neg.Within k := by
  obtain ⟨le⟩ := h
  exact ⟨le⟩

theorem natAbs_signed (negative : Bool) (n : Nat) : (signed negative n).natAbs = n := by
  cases negative
  · exact Int.natAbs_natCast n
  · exact (Int.natAbs_neg _).trans (Int.natAbs_natCast n)

/-- **A sum in a range.** -/
theorem within_add {k : Nat} (hk : k + 1 < 1024) {x y : Binary64} (hx : x.Within k)
    (hy : y.Within k) : (x.add y).Within (k + 1) := by
  obtain @⟨s, m, _, hm⟩ := hx
  obtain @⟨t, n, _, hn⟩ := hy
  rw [add]
  split
  · exact within_ofQuanta hk (Nat.dvd_zero _) (Nat.zero_le _) _
  · refine within_ofQuanta_nearest hk Nat.one_pos ?_ _
    have hsum := Int.natAbs_add_le (signed s m) (signed t n)
    rw [natAbs_signed, natAbs_signed] at hsum
    rw [Nat.one_mul, Nat.pow_succ', Nat.mul_assoc, Nat.two_mul]
    exact Nat.le_trans hsum (Nat.add_le_add hm hn)

/-- **A product in a range.** -/
theorem within_mul {j k : Nat} (hjk : j + k < 1024) {x y : Binary64} (hx : x.Within j)
    (hy : y.Within k) : (x.mul y).Within (j + k) := by
  obtain @⟨s, m, _, hm⟩ := hx
  obtain @⟨t, n, _, hn⟩ := hy
  rw [mul]
  refine within_ofQuanta_nearest hjk unit_pos ?_ _
  calc m * n ≤ 2 ^ j * unit * (2 ^ k * unit) := Nat.mul_le_mul hm hn
    _ = unit * (2 ^ (j + k) * unit) := by
      rw [Nat.pow_add, Nat.mul_comm (2 ^ j) unit, Nat.mul_assoc unit, ← Nat.mul_assoc (2 ^ j)]

end Binary64

namespace Number

/-- **A number in a range**: it is finite, and its magnitude is at most `2 ^ k`. -/
def Within (k : Nat) : Number → Prop
  | .whole z => z.natAbs ≤ 2 ^ k
  | .double x => x.Within k

theorem Within.mono {j k : Nat} {n : Number} (h : n.Within j) (hjk : j ≤ k) : n.Within k := by
  cases n with
  | whole z => exact Nat.le_trans h (Nat.pow_le_pow_right Nat.two_pos hjk)
  | double x => exact Binary64.Within.mono h hjk

theorem within_toDouble? {k : Nat} (hk : k < 1024) {n : Number} (h : n.Within k) :
    ∃ x, n.toDouble? = some x ∧ x.Within k := by
  cases n with
  | whole z => exact Binary64.within_ofInt? hk h
  | double x => exact ⟨x, rfl, h⟩

/-- An operation in a range: it is enough to know the bounds of its two exact forms. -/
theorem within_combine? {i j k : Nat} (hi : i < 1024) (hj : j < 1024)
    {onIntegers : Int → Int → Int} {onDoubles : Binary64 → Binary64 → Binary64}
    (integers : ∀ a b : Int, a.natAbs ≤ 2 ^ i → b.natAbs ≤ 2 ^ j →
      (onIntegers a b).natAbs ≤ 2 ^ k)
    (doubles : ∀ x y : Binary64, x.Within i → y.Within j → (onDoubles x y).Within k)
    {a b : Number} (ha : a.Within i) (hb : b.Within j) :
    ∃ c, combine? onIntegers onDoubles a b = some c ∧ c.Within k := by
  obtain ⟨x, hx, hxi⟩ := within_toDouble? hi ha
  obtain ⟨y, hy, hyj⟩ := within_toDouble? hj hb
  -- beside a double, both numbers are rounded first
  have rounded : ∃ c : Number, (do return .double (onDoubles (← a.toDouble?) (← b.toDouble?)))
      = some c ∧ c.Within k := by
    rw [hx, hy]
    exact ⟨_, rfl, doubles x y hxi hyj⟩
  -- only two integers are combined exactly
  cases a with
  | double x => exact rounded
  | whole a =>
    cases b with
    | double y => exact rounded
    | whole b => exact ⟨_, rfl, integers a b ha hb⟩

theorem within_sub? {k : Nat} (hk : k + 1 < 1024) {a b : Number} (ha : a.Within k)
    (hb : b.Within k) : ∃ c, sub? a b = some c ∧ c.Within (k + 1) := by
  refine within_combine? (by omega) (by omega) ?_ ?_ ha hb
  · intro a b ha hb
    have := Int.natAbs_sub_le a b
    rw [Nat.pow_succ]
    omega
  · exact fun x y hx hy => Binary64.within_add hk hx (Binary64.within_neg hy)

theorem within_mul? {j k : Nat} (hjk : j + k < 1024) {a b : Number} (ha : a.Within j)
    (hb : b.Within k) : ∃ c, mul? a b = some c ∧ c.Within (j + k) := by
  refine within_combine? (by omega) (by omega) ?_ ?_ ha hb
  · intro a b ha hb
    rw [Int.natAbs_mul, Nat.pow_add]
    exact Nat.mul_le_mul ha hb
  · exact fun x y hx hy => Binary64.within_mul hjk hx hy

/-- A number times a power of two in the range of doubles: the product of two doubles always is one,
if an infinite one, so it is enough that the power can be rounded. -/
theorem exists_mul?_two_pow (n : Number) {k : Nat} (hk : k < 1024) :
    ∃ product, n.mul? (.whole (2 ^ k : Nat)) = some product := by
  cases n with
  | whole z => exact ⟨_, mul?_whole z (2 ^ k : Nat)⟩
  | double x =>
    have hpower : Within k (.whole (2 ^ k : Nat)) := Nat.le_of_eq (Int.natAbs_natCast (2 ^ k))
    obtain ⟨y, hy, -⟩ := within_toDouble? hk hpower
    have hx : (Number.double x).toDouble? = some x := rfl
    have rounded : (do
        return .double (.mul (← toDouble? (.double x)) (← toDouble? (.whole (2 ^ k : Nat)))) :
        Option Number) = some (.double (x.mul y)) := by
      rw [hx, hy]
      rfl
    exact ⟨_, rounded⟩

end Number

end Mockup
