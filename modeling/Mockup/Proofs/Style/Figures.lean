import Mockup.Proofs.Number.FixedPoint
import Mockup.Proofs.Number.Reading
import Mockup.Proofs.Number.Value
import Mockup.Proofs.Outcome
import Mockup.Style.Figure

/-!
# The figures of a stylesheet

Every length, angle and opacity of a stylesheet goes through one function, which rounds to four decimals
and then writes a whole number without a fraction and any other as its shortest decimal. Nothing in it
forbids an exponent or a negative zero; that there is none follows from the sizes of the numbers: what is
not whole is below `2 ^ 52` and, once rounded, not below a ten-thousandth. And since rounding twice is
rounding once and a shortest decimal reads back, what is written is written again in the same way.

* `Style.Figure` — a sign, digits, and up to four digits after the point, none superfluous;
* `Style.figure_roundPlaces` — only the rounded number counts;
* `Style.Figure.StandsFor` — a figure that a double is written as, and what it reads back as again;
* `Style.exists_standsFor` — **every finite double has such a figure**;
* `Style.number_eq_figure` — **every finite number is written as a figure.**
-/

namespace Mockup.Style

open Binary64 Text

/-- **A figure**: digits before and after a point, none superfluous, and a sign unless it is zero. -/
structure Figure where
  negative : Bool
  whole : List Char
  fraction : List Char
  fixed : IsFixed whole fraction
  no_negative_zero : negative = true → whole = ['0'] → fraction ≠ []

namespace Figure

/-- The text of a figure. -/
def text (f : Figure) : String := String.ofList (plainNumeral f.negative f.whole f.fraction)

/-- **A figure is read as its decimal.** -/
theorem ofText?_text (f : Figure) :
    ofText? f.text
      = some (ofDecimal f.negative (naturalOfDigits (f.whole ++ f.fraction)) (-f.fraction.length)) :=
  ofText?_plainNumeral f.fixed.whole_digits f.fixed.whole_ne f.fixed.fraction_digits f.negative

/-! ### Integers -/

theorem isFixed_decimalDigits (n : Nat) : IsFixed (decimalDigits n) [] where
  whole_digits := isDigit_decimalDigits
  fraction_digits := List.forall_mem_nil _
  whole_ne := Nat.toDigits_ne_nil
  no_leading_zero hzero := by
    by_cases hn : n = 0
    · rw [hn]
      rfl
    · exact absurd hzero (head?_decimalDigits hn)
  short := Nat.zero_le _
  no_trailing_zero := nofun

/-- **The figure of an integer.** -/
def ofInt (z : Int) : Figure where
  negative := z < 0
  whole := decimalDigits z.natAbs
  fraction := []
  fixed := isFixed_decimalDigits z.natAbs
  no_negative_zero hnegative hzero := by
    have hvalue := naturalOfDigits_decimalDigits z.natAbs
    rw [hzero] at hvalue
    have hzero : z.natAbs = 0 := hvalue.symm
    have := of_decide_eq_true hnegative
    omega

theorem text_ofInt (z : Int) : (ofInt z).text = integerNumeral z := by
  have hdigits : toString z.natAbs = String.ofList (decimalDigits z.natAbs) :=
    Nat.toString_eq_ofList_toDigits
  have htext : (ofInt z).text
      = String.ofList ((if decide (z < 0) then ['-'] else []) ++ (decimalDigits z.natAbs ++ [])) := rfl
  rw [htext, List.append_nil, integerNumeral, hdigits]
  by_cases hz : z < 0
  · rw [if_pos hz, if_pos (decide_eq_true hz), String.ofList_append]
  · rw [if_neg hz, decide_eq_false hz, if_neg Bool.false_ne_true, List.nil_append]

/-- The integers that are doubles have a few hundred digits. -/
theorem lt_ten_pow_of_representable {n : Nat} (h : Representable (n * unit)) :
    n < 10 ^ (311 + 0) := by
  obtain ⟨e, he⟩ : ∃ e, e = 1024 + 1074 := ⟨_, rfl⟩
  have hlt : n * unit < 2 ^ 1024 * unit := by
    rw [two_pow_mul_unit, ← he, ← limit_eq he]
    exact h.2
  calc n < 2 ^ 1024 := Nat.lt_of_mul_lt_mul_right hlt
    _ < 10 ^ (311 + 0) := by decide +kernel

/-- **The figure of an integer is read as the integer**, when it is a double. -/
theorem ofText?_ofInt {z : Int} (h : Representable (z.natAbs * unit)) :
    ofText? (ofInt z).text = some (.finite (z < 0) (z.natAbs * unit) h) := by
  -- the digits are those of the magnitude
  have hvalue : naturalOfDigits ((ofInt z).whole ++ (ofInt z).fraction) = z.natAbs := by
    rw [show (ofInt z).whole ++ (ofInt z).fraction = decimalDigits z.natAbs from List.append_nil _]
    exact naturalOfDigits_decimalDigits z.natAbs
  -- the double is the integer itself
  have hexact : nearest (z.natAbs * unit) (10 ^ 0) = z.natAbs * unit := by
    rw [Nat.pow_zero]
    exact nearest_one_of_dvd h.spacing_dvd
  -- so it is read without rounding
  have hread : ofDecimal (z < 0) z.natAbs (-(0 : Nat)) = .finite (z < 0) (z.natAbs * unit) h := by
    rw [ofDecimal_neg (Nat.zero_le _) (lt_ten_pow_of_representable h), ofRatio_of_nearest h hexact]
  rw [ofText?_text, hvalue]
  exact congrArg some hread

/-! ### Doubles -/

/-- **What a double is written as**: a figure that is read as a double, which is written in the same
way. -/
structure StandsFor (f : Figure) (x : Binary64) : Prop where
  written : figure x = f.text
  read : ∃ s n, ∃ h : Representable n, ofText? f.text = some (.finite s n h)
    ∧ figure (.finite s n h) = f.text

end Figure

/-- **Only the rounded number counts.** -/
theorem figure_roundPlaces (x : Binary64) : figure (x.roundPlaces 4) = figure x := by
  rw [figure, figure, roundPlaces_roundPlaces]

theorem figure_of_whole {s : Bool} {n : Nat} (h : Representable n) (whole : n % unit = 0) :
    figure (.finite s n h) = integerNumeral (signed s (n / unit)) := by
  have hwhole : (Binary64.finite s n h).isWhole = true := decide_eq_true whole
  rw [figure, roundPlaces_of_whole h whole, if_pos hwhole, wholeNumeral]

/-- **The figure of a whole number.** -/
theorem exists_standsFor_whole (s : Bool) {n : Nat} (h : Representable n) (whole : n % unit = 0) :
    ∃ f : Figure, f.StandsFor (.finite s n h) := by
  -- the double is so many units
  obtain ⟨k, hk⟩ : unit ∣ n := Nat.dvd_of_mod_eq_zero whole
  obtain ⟨z, hz⟩ : ∃ z, z = signed s k := ⟨_, rfl⟩
  have hcount : z.natAbs * unit = n := by rw [hz, natAbs_signed, hk, Nat.mul_comm]
  have hrepresentable : Representable (z.natAbs * unit) := by rwa [hcount]
  -- the double that is read has the sign of the integer, so a negative zero becomes a positive one
  refine ⟨.ofInt z, ?written, _, _, hrepresentable, Figure.ofText?_ofInt hrepresentable, ?again⟩
  case written =>
    rw [figure_of_whole h whole, Figure.text_ofInt, hz, hk, Nat.mul_div_cancel_left k unit_pos]
  -- and what is read from it is printed alike
  case again =>
    rw [figure_of_whole hrepresentable (Nat.mul_mod_left _ _), Nat.mul_div_cancel _ unit_pos,
      signed_natAbs, Figure.text_ofInt]

/-- **The figure of a fraction of four decimals.** -/
theorem exists_standsFor_fraction (s : Bool) {n d : Nat} (h : Representable n)
    (fraction : n % unit ≠ 0) (hd : nearest (d * unit) (10 ^ 4) = n) :
    ∃ f : Figure, f.StandsFor (.finite s n h) := by
  obtain ⟨whole, after, hwritten, hfixed, hne, hbound, hnearest⟩ := exists_fixed h fraction hd
  -- it is rounded to itself, so it is its own shortest decimal that is written
  have hround : (Binary64.finite s n h).roundPlaces 4 = .finite s n h := by
    rw [roundPlaces_finite, nearest_divEven_of_nearest fraction hd, ofQuanta, dif_pos h]
  -- it is no integer, so it is written with a point
  have hwhole : (Binary64.finite s n h).isWhole = false := decide_eq_false fraction
  -- read back, the digits are rounded to the same double
  have hread : ofDecimal s (naturalOfDigits (whole ++ after)) (-after.length) = .finite s n h := by
    have hplaces : after.length ≤ 300 := Nat.le_trans hfixed.short (by decide)
    rw [ofDecimal_neg hplaces hbound, ofRatio_of_nearest h hnearest]
  -- the sign, the digits before the point and those after it
  let f : Figure := ⟨s, whole, after, hfixed, fun _ _ => hne⟩
  have hfigure : figure (.finite s n h) = f.text := by
    rw [figure, hround, hwhole, if_neg Bool.false_ne_true, numeral, hwritten, Figure.text,
      plainNumeral, if_neg hne]
    cases s <;> rfl
  exact ⟨f, hfigure, s, n, h, by rw [Figure.ofText?_text, hread], hfigure⟩

/-- **Every finite double has a figure.** -/
theorem exists_standsFor (s : Bool) {n : Nat} (h : Representable n) :
    ∃ f : Figure, f.StandsFor (.finite s n h) := by
  obtain ⟨m, hm, hround, hcases⟩ := exists_roundPlaces s h
  obtain ⟨f, hwritten, hread⟩ : ∃ f : Figure, f.StandsFor (.finite s m hm) := by
    by_cases whole : m % unit = 0
    · exact exists_standsFor_whole s hm whole
    · obtain ⟨d, hd⟩ := hcases.resolve_left whole
      exact exists_standsFor_fraction s hm whole hd
  refine ⟨f, ?_, hread⟩
  rw [← figure_roundPlaces, hround, hwritten]

/-! ### Numbers -/

theorem number_num {n : Number} {x : Binary64} (h : n.toDouble? = some x) :
    number (.num n) = .ok (figure x) := by
  rw [number, Json.toDouble, h]
  rfl

theorem natAbs_le_of_abs_le {z : ℤ} {k : ℕ} (h : |z| ≤ 2 ^ k) : z.natAbs ≤ 2 ^ k := by
  rw [Int.abs_eq_natAbs] at h
  exact_mod_cast h

/-- A finite number is rounded to a finite double, if it is not an integer beyond the range. -/
theorem exists_toDouble?_finite {n : Number} {q : ℚ} (h : n.value? = some q)
    (bound : ∀ z, n = .whole z → |z| < 2 ^ 1023) :
    ∃ s m, ∃ hm : Representable m, n.toDouble? = some (.finite s m hm) := by
  cases n with
  | double x =>
    obtain ⟨s, m, hm, rfl, -⟩ := value?_eq_some h
    exact ⟨s, m, hm, rfl⟩
  | whole z =>
    have hz := natAbs_le_of_abs_le (Int.le_of_lt (bound z rfl))
    obtain ⟨x, hx, ⟨_⟩⟩ := within_ofInt? (by decide) hz
    exact ⟨_, _, _, hx⟩

/-- A number whose value is an integer. -/
theorem isInteger_of_value? {n : Number} {z : ℤ} (h : n.value? = some (z : ℚ)) : n.IsInteger z := by
  cases n with
  | double x =>
    obtain ⟨s, m, hm, rfl, heq⟩ := value?_eq_some h
    exact .double ⟨value_eq_intCast_iff.mp heq.symm⟩
  | whole y =>
    obtain rfl : y = z := Int.cast_inj.mp (Option.some.inj h)
    exact .whole y

/-- **Every finite number is written as a figure**: integers of at most 53 bits as their decimal digits,
and what is written is read as a double that is written in the same way. -/
theorem number_eq_figure {n : Number} {q : ℚ} (h : n.value? = some q)
    (bound : ∀ z, n = .whole z → |z| < 2 ^ 1023) :
    ∃ f : Figure, number (.num n) = .ok f.text
      ∧ (∀ z : ℤ, q = z → |z| ≤ 2 ^ 53 → f.text = integerNumeral z)
      ∧ ∃ x r, ofText? f.text = some x ∧ x.value? = some r ∧ number (.ofDouble x) = .ok f.text := by
  -- a finite number is a double, or rounded to one
  obtain ⟨s, m, hm, hx⟩ := exists_toDouble?_finite h bound
  -- whose figure is a text that can be read
  obtain ⟨f, hfigure, t, k, hk, hread, hagain⟩ := exists_standsFor s hm
  refine ⟨f, ?_, ?_, .finite t k hk, _, hread, rfl, ?_⟩
  · rw [number_num hx, hfigure]
  -- up to 2 ^ 53 an integer is not rounded
  · rintro z rfl hz
    obtain ⟨y, hy, hinteger⟩ := (isInteger_of_value? h).toDouble? (natAbs_le_of_abs_le hz)
    obtain rfl : y = .finite s m hm := Option.some.inj (hy.symm.trans hx)
    rw [← hfigure, figure_of_isInteger hinteger (natAbs_le_of_abs_le hz)]
  -- and what is read from the text is printed alike
  · rw [← hagain]
    exact number_num rfl

/-- The negative double that is nearest to zero. -/
def leastNegative : Binary64 := .ofQuanta true 1

/-- It is written without a sign. -/
theorem number_leastNegative : ∃ f : Figure, number (.ofDouble leastNegative) = .ok f.text
    ∧ f.text = "0" := by
  obtain ⟨q, hq⟩ := Option.isSome_iff_exists.mp
    (show (Number.value? (.double leastNegative)).isSome = true by decide +kernel)
  obtain ⟨f, hf, -⟩ := number_eq_figure hq nofun
  have hwritten : number (.ofDouble leastNegative) = .ok "0" :=
    eq_ok_of_toOption (by decide +kernel)
  exact ⟨f, hf, Except.ok.inj (hf.symm.trans hwritten)⟩

end Mockup.Style
