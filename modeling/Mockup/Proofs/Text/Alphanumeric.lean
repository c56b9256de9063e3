import Mathlib.Data.Nat.Basic
import Mockup.Text.Character

/-!
# Letters and digits

The parts of links and of escapes are made of the letters and digits of ASCII. What is true of all of
them is decided once for each character of ASCII.

* `ascii_of_isAlphanum` — **what holds of the letters and digits of ASCII holds of every character
  that counts as one**;
* `isAlphanum_of_hexValue?` — hexadecimal digits are among them;
* `isBlank_of_isAlphanum` — none is a blank.
-/

namespace Mockup.Text

variable {c : Char}

theorem toNat_lt_of_isAlphanum (h : c.isAlphanum = true) : c.toNat < 0x80 := by
  have below {last : Char} (hle : c.val ≤ last.val) (hlast : last.toNat < 0x80) : c.toNat < 0x80 :=
    Nat.lt_of_le_of_lt (UInt32.le_iff_toNat_le.mp hle) hlast
  -- each of the three classes ends within ASCII
  rcases Bool.or_eq_true_iff.mp h with h | hdigit
  · rcases Bool.or_eq_true_iff.mp h with hupper | hlower
    · exact below (of_decide_eq_true hupper).2 (by decide)
    · exact below (of_decide_eq_true (Bool.and_eq_true_iff.mp hlower).2) (by decide)
  · exact below (of_decide_eq_true (Bool.and_eq_true_iff.mp hdigit).2) (by decide)

/-- **What holds of the letters and digits of ASCII** holds of every character that counts as one. -/
theorem ascii_of_isAlphanum {p : Char → Prop}
    (h : ∀ n < 0x80, (Char.ofNat n).isAlphanum = true → p (Char.ofNat n)) (hc : c.isAlphanum = true) :
    p c := by
  have hp := h c.toNat (toNat_lt_of_isAlphanum hc)
  rw [Char.ofNat_toNat] at hp
  exact hp hc

/-- Hexadecimal digits are letters and digits. -/
theorem isAlphanum_of_hexValue? (h : (hexValue? c).isSome = true) : c.isAlphanum = true := by
  have hlt : c.toNat < 0x80 := by
    by_contra large
    have upper {d : Char} (hd : d.toNat < 0x80) : ¬ c ≤ d := fun hle => large (Nat.lt_of_le_of_lt hle hd)
    rw [hexValue?, if_neg fun hc => upper (by decide) hc.2, if_neg fun hc => upper (by decide) hc.2,
      if_neg fun hc => upper (by decide) hc.2] at h
    cases h
  have hall : ∀ n < 0x80, (hexValue? (Char.ofNat n)).isSome = true →
      (Char.ofNat n).isAlphanum = true := by decide
  have hchar := hall c.toNat hlt
  rw [Char.ofNat_toNat] at hchar
  exact hchar h

theorem isBlank_of_isAlphanum (h : c.isAlphanum = true) : isBlank c = false :=
  ascii_of_isAlphanum (p := fun c => isBlank c = false) (by decide) h

end Mockup.Text
