import Mathlib.Data.Rat.Floor
import Mockup.Proofs.Number.Exact

/-!
# The exact value of a number

A finite number of a document has an exact rational value, whether it is written as an integer or is
a double. Statements about rounding compare what is computed with this value.

* `Binary64.value?`, `Number.value?` — the exact value of a finite number;
* `Number.IsDouble` — a number whose value is that of a double, so that it is not rounded when it is
  used beside one.
-/

namespace Mockup

namespace Binary64

/-- **The exact value** of a finite double. -/
def value? : Binary64 → Option ℚ
  | .finite negative n _ => some (signed negative n / unit)
  | _ => none

theorem value?_eq_some {x : Binary64} {q : ℚ} (h : x.value? = some q) :
    ∃ negative n representable, x = .finite negative n representable
      ∧ q = (signed negative n : ℚ) / (unit : ℕ) := by
  cases x with
  | finite negative n representable =>
    exact ⟨negative, n, representable, rfl, (Option.some.inj h).symm⟩
  | infinite negative => cases h
  | nan => cases h

theorem unit_cast_pos : (0 : ℚ) < (unit : ℕ) := Nat.cast_pos.mpr unit_pos

/-- A value that is an integer. -/
theorem value_eq_intCast_iff {negative : Bool} {n : Nat} {z : ℤ} :
    (signed negative n : ℚ) / (unit : ℕ) = z ↔ signed negative n = z * unit := by
  rw [div_eq_iff (ne_of_gt unit_cast_pos)]
  exact_mod_cast Iff.rfl

theorem value?_of_isInteger {x : Binary64} {z : ℤ} (h : x.IsInteger z) : x.value? = some (z : ℚ) := by
  obtain ⟨h⟩ := h
  exact congrArg some (value_eq_intCast_iff.mpr h)

end Binary64

namespace Number

/-- **The exact value** of a finite number. -/
def value? : Number → Option ℚ
  | .whole z => some z
  | .double x => x.value?

/-- **A number whose value is that of a double.** -/
def IsDouble (n : Number) (q : ℚ) : Prop := ∃ x, n.toDouble? = some x ∧ x.value? = some q

/-- Integers of at most 53 bits are doubles. -/
theorem isDouble_of_abs_le {n : Number} {q : ℚ} (h : n.value? = some q) (hq : |q| ≤ 2 ^ 53) :
    n.IsDouble q := by
  cases n with
  | double x => exact ⟨x, rfl, h⟩
  | whole z =>
    obtain rfl : (z : ℚ) = q := Option.some.inj h
    have hz : z.natAbs ≤ 2 ^ 53 := by
      rw [← Int.cast_abs] at hq
      have hbound : |z| ≤ 2 ^ 53 := by exact_mod_cast hq
      rw [Int.abs_eq_natAbs] at hbound
      exact_mod_cast hbound
    obtain ⟨x, hx, hinteger⟩ := Binary64.isInteger_ofInt? hz
    exact ⟨x, hx, Binary64.value?_of_isInteger hinteger⟩

end Number

end Mockup
