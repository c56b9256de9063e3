import Std.Data.String.ToInt
import Mockup.Proofs.Number.Range
import Mockup.Style.Figure

/-!
# Integers are exact

A double has 53 significant bits, so an integer of magnitude at most `2 ^ 53` is a double, and what
is computed exactly and is such an integer is not changed by rounding. This holds through all that
is done to a coordinate on its way into a stylesheet: it is rounded to a double, subtracted from
another one, rounded to four decimals, and written.

* `Binary64.IsInteger`, `Number.IsInteger`, `Json.IsInteger` — the integer that a value is;
* `Binary64.nearest_mul_left` — a ratio that is a count of a double is not rounded;
* `Binary64.IsInteger.sub`, `Number.IsInteger.sub?` — **differences of integers are exact**;
* `Style.figure_of_isInteger` — an integer is written as its decimal digits;
* `Style.pixels_difference` — **the difference of two integer coordinates, as it is written**;
* `toInt?_integerNumeral` — what is written reads back as the integer.
-/

namespace Mockup

/-! ### Reading back -/

/-- **The numeral of an integer reads back as the integer.** -/
theorem toInt?_integerNumeral (z : Int) : (integerNumeral z).toInt? = some z := by
  unfold integerNumeral
  split
  · rename_i negative
    calc ("-" ++ toString z.natAbs).toInt?
        = Option.map (fun n : Nat => -(n : Int)) (toString z.natAbs).toNat? :=
          String.toInt?_minus_append
      _ = some (-(z.natAbs : Int)) := by
        rw [show (toString z.natAbs).toNat? = some z.natAbs from Nat.toNat?_repr _]
        rfl
      _ = some z := by rw [show -(z.natAbs : Int) = z by omega]
  · rename_i positive
    calc (toString z.natAbs).toInt?
        = some (z.natAbs : Int) := Nat.toInt?_repr _
      _ = some z := by rw [show (z.natAbs : Int) = z by omega]

theorem integerNumeral_inj {a b : Int} (h : integerNumeral a = integerNumeral b) : a = b := by
  have hread := toInt?_integerNumeral a
  rw [h, toInt?_integerNumeral b] at hread
  exact (Option.some.inj hread).symm

namespace Binary64

/-! ### Counts that are not rounded -/

/-- **A count with 53 significant bits is the nearest one to itself**, also as a ratio. -/
theorem nearest_mul_left {b n : Nat} (hb : 0 < b) (hn : spacing n ∣ n) : nearest (b * n) b = n := by
  obtain ⟨quotient, hquotient⟩ := hn
  rw [nearest_eq, Nat.mul_div_cancel_left n hb]
  calc divEven (b * n) (b * spacing n) * spacing n
      = divEven (b * spacing n * quotient) (b * spacing n) * spacing n := by
        rw [Nat.mul_assoc b, ← hquotient]
    _ = quotient * spacing n := by
        rw [divEven_mul_right (Nat.mul_pos hb (spacing_pos n))]
    _ = n := by rw [Nat.mul_comm, ← hquotient]

/-- **An integer of at most 53 bits is a double.** -/
theorem representable_mul_unit {m : Nat} (hm : m ≤ 2 ^ 53) : Representable (m * unit) := by
  constructor
  · obtain ⟨e, he⟩ : ∃ e, e = 1074 := ⟨_, rfl⟩
    rw [unit_eq he]
    exact Nat.mod_eq_zero_of_dvd (spacing_mul_two_pow hm e)
  · calc m * unit ≤ 2 ^ 53 * unit := Nat.mul_le_mul_right _ hm
      _ < limit := two_pow_mul_unit_lt_limit (by omega)

/-! ### Doubles that are integers -/

/-- **A double that is an integer**: its quanta, with its sign, are those of the integer. Zeros of
either sign are the integer zero. -/
inductive IsInteger : Binary64 → Int → Prop
  | finite {negative : Bool} {n : Nat} {h : Representable n} {z : Int}
    (eq : signed negative n = z * unit) : IsInteger (.finite negative n h) z

theorem unit_ne_zero : (unit : Int) ≠ 0 := Int.natCast_ne_zero.mpr (Nat.ne_of_gt unit_pos)

theorem signed_not (negative : Bool) (n : Nat) : signed (!negative) n = -signed negative n := by
  cases negative
  · rfl
  · exact (Int.neg_neg _).symm

theorem signed_mul (negative : Bool) (m n : Nat) :
    signed negative (m * n) = signed negative m * n := by
  cases negative
  · exact Int.natCast_mul m n
  · exact (congrArg Neg.neg (Int.natCast_mul m n)).trans (Int.neg_mul ..).symm

/-- The sign of an integer, put back before its magnitude. -/
theorem signed_natAbs (z : Int) : signed (z < 0) z.natAbs = z := by
  rw [signed]
  split
  · rename_i negative
    have := of_decide_eq_true negative
    omega
  · rename_i positive
    have := of_decide_eq_false (eq_false_of_ne_true positive)
    omega

/-- The quanta of an integer. -/
theorem quanta_of_signed {negative : Bool} {n : Nat} {z : Int} (h : signed negative n = z * unit) :
    n = z.natAbs * unit := by
  rw [← natAbs_signed negative n, h, Int.natAbs_mul, Int.natAbs_natCast]

/-- The sign of an integer, without the quanta. -/
theorem signed_natAbs_of_signed {negative : Bool} {n : Nat} {z : Int}
    (h : signed negative n = z * unit) : signed negative z.natAbs = z := by
  rw [quanta_of_signed h, signed_mul] at h
  exact Int.eq_of_mul_eq_mul_right unit_ne_zero h

/-- The double of a magnitude of at most 53 bits is the integer of that magnitude. -/
theorem isInteger_ofQuanta {m : Nat} (hm : m ≤ 2 ^ 53) (negative : Bool) :
    IsInteger (ofQuanta negative (m * unit)) (signed negative m) := by
  rw [ofQuanta, dif_pos (representable_mul_unit hm)]
  exact ⟨signed_mul negative m unit⟩

/-- So is the one that is nearest to it as a ratio. -/
theorem isInteger_nearest {b m : Nat} (hb : 0 < b) (hm : m ≤ 2 ^ 53) (negative : Bool) :
    IsInteger (ofQuanta negative (nearest (b * (m * unit)) b)) (signed negative m) := by
  have hspacing : spacing (m * unit) ∣ m * unit :=
    Nat.dvd_of_mod_eq_zero (representable_mul_unit hm).1
  rw [nearest_mul_left hb hspacing]
  exact isInteger_ofQuanta hm negative

theorem isInteger_ofRatio {b m : Nat} (hb : 0 < b) (hm : m ≤ 2 ^ 53) (negative : Bool) :
    IsInteger (ofRatio negative (b * m) b) (signed negative m) := by
  rw [ofRatio, Nat.mul_assoc]
  exact isInteger_nearest hb hm negative

/-- **An integer of at most 53 bits is rounded to itself.** -/
theorem isInteger_ofInt? {z : Int} (hz : z.natAbs ≤ 2 ^ 53) :
    ∃ x, ofInt? z = some x ∧ x.IsInteger z := by
  have h := isInteger_ofRatio Nat.one_pos hz (z < 0)
  rw [Nat.one_mul, signed_natAbs] at h
  rw [ofInt?]
  generalize ofRatio (z < 0) z.natAbs 1 = x at h ⊢
  obtain ⟨eq⟩ := h
  exact ⟨_, rfl, ⟨eq⟩⟩

namespace IsInteger

variable {x y : Binary64} {a b : Int}

/-- A double is one integer at most. -/
theorem unique (ha : x.IsInteger a) (hb : x.IsInteger b) : a = b := by
  obtain ⟨ha⟩ := ha
  obtain ⟨hb⟩ := hb
  exact Int.eq_of_mul_eq_mul_right unit_ne_zero (ha.symm.trans hb)

theorem neg (h : x.IsInteger a) : x.neg.IsInteger (-a) := by
  obtain ⟨h⟩ := h
  exact ⟨by rw [signed_not, h, Int.neg_mul]⟩

/-- **The sum of two integers is exact** as long as it has at most 53 bits. -/
theorem add (hx : x.IsInteger a) (hy : y.IsInteger b) (hsum : (a + b).natAbs ≤ 2 ^ 53) :
    (x.add y).IsInteger (a + b) := by
  obtain @⟨s, m, hm, _, hx⟩ := hx
  obtain @⟨t, n, hn, _, hy⟩ := hy
  -- the sum of the quanta is a multiple of the unit
  have htotal : signed s m + signed t n = (a + b) * unit := by rw [hx, hy, Int.add_mul]
  rw [Binary64.add, htotal]
  by_cases hzero : a + b = 0
  · -- opposite integers: a zero, of one sign or the other
    rw [hzero, Int.zero_mul, if_pos rfl, ← Nat.zero_mul unit]
    have hsign : signed (s && t) 0 = 0 := by cases s && t <;> rfl
    rw [← hsign]
    exact isInteger_ofQuanta (Nat.zero_le _) _
  -- the sum has the sign of the integer
  · have htotal_ne : (a + b) * (unit : Int) ≠ 0 := Int.mul_ne_zero hzero unit_ne_zero
    have hsign : decide ((a + b) * (unit : Int) < 0) = decide (a + b < 0) := by
      have hunit : 0 < (unit : Int) := Int.natCast_pos.mpr unit_pos
      exact decide_eq_decide.mpr
        ⟨fun h => Int.neg_of_mul_neg_left h hunit, fun h => Int.mul_neg_of_neg_of_pos h hunit⟩
    -- and it is representable, so it is not rounded
    rw [if_neg htotal_ne, Int.natAbs_mul, Int.natAbs_natCast, hsign]
    have hnearest := isInteger_nearest Nat.one_pos hsum (a + b < 0)
    rwa [Nat.one_mul, signed_natAbs] at hnearest

/-- **The difference of two integers is exact** as long as it has at most 53 bits. -/
theorem sub (hx : x.IsInteger a) (hy : y.IsInteger b) (hdiff : (a - b).natAbs ≤ 2 ^ 53) :
    (x.sub y).IsInteger (a - b) :=
  hx.add hy.neg hdiff

/-- An integer is rounded to itself at any number of places. -/
theorem roundPlaces (h : x.IsInteger a) (ha : a.natAbs ≤ 2 ^ 53) (places : Nat) :
    (x.roundPlaces places).IsInteger a := by
  obtain @⟨s, n, _, _, h⟩ := h
  have hexact : divEven (n * Nat.pow 10 places) unit = Nat.pow 10 places * a.natAbs := by
    rw [quanta_of_signed h, Nat.mul_comm a.natAbs unit, Nat.mul_assoc, divEven_mul_right unit_pos,
      Nat.mul_comm]
  rw [Binary64.roundPlaces, hexact]
  have hround := isInteger_ofRatio (Nat.pow_pos (n := places) (by decide : 0 < 10)) ha s
  rwa [signed_natAbs_of_signed h] at hround

theorem isWhole (h : x.IsInteger a) : x.isWhole = true := by
  obtain ⟨h⟩ := h
  rw [Binary64.isWhole, quanta_of_signed h, Nat.mul_mod_left]
  rfl

/-- **The written form of an integer.** -/
theorem wholeNumeral (h : x.IsInteger a) : x.wholeNumeral = integerNumeral a := by
  obtain ⟨h⟩ := h
  rw [Binary64.wholeNumeral, quanta_of_signed h, Nat.mul_div_cancel _ unit_pos,
    signed_natAbs_of_signed h]

end IsInteger

end Binary64

/-! ### Numbers and values that are integers -/

/-- **A number that is an integer**, written as such or not. -/
inductive Number.IsInteger : Number → Int → Prop
  | whole (z : Int) : IsInteger (.whole z) z
  | double {x : Binary64} {z : Int} (h : x.IsInteger z) : IsInteger (.double x) z

namespace Number.IsInteger

variable {m n : Number} {a b : Int}

theorem unique (ha : n.IsInteger a) (hb : n.IsInteger b) : a = b := by
  cases ha with
  | whole => cases hb; rfl
  | double ha => cases hb with | double hb => exact ha.unique hb

theorem toDouble? (h : n.IsInteger a) (ha : a.natAbs ≤ 2 ^ 53) :
    ∃ x, n.toDouble? = some x ∧ x.IsInteger a := by
  cases h with
  | whole => exact Binary64.isInteger_ofInt? ha
  | double h => exact ⟨_, rfl, h⟩

/-- **The difference of two integers is exact**, whichever way they are written. -/
theorem sub? (hm : m.IsInteger a) (hn : n.IsInteger b) (ha : a.natAbs ≤ 2 ^ 52)
    (hb : b.natAbs ≤ 2 ^ 52) : ∃ c, m.sub? n = some c ∧ c.IsInteger (a - b) := by
  have hdiff : (a - b).natAbs ≤ 2 ^ 53 := by omega
  -- both are doubles without a loss
  obtain ⟨x, hx, hxa⟩ := hm.toDouble? (by omega)
  obtain ⟨y, hy, hyb⟩ := hn.toDouble? (by omega)
  -- beside a double, both numbers are doubles first
  have rounded : ∃ c : Number, (do return .double (.sub (← m.toDouble?) (← n.toDouble?))) = some c
      ∧ c.IsInteger (a - b) := by
    rw [hx, hy]
    exact ⟨_, rfl, .double (hxa.sub hyb hdiff)⟩
  cases hm with
  | double h => exact rounded
  -- a double among the two
  | whole =>
    cases hn with
    | double h => exact rounded
    -- two integers are subtracted as integers
    | whole => exact ⟨_, rfl, .whole _⟩

end Number.IsInteger

/-- **A value that is an integer**: a number that is one, or a truth value. -/
def Json.IsInteger (j : Json) (z : Int) : Prop := ∃ n, j.number? = some n ∧ n.IsInteger z

theorem Json.IsInteger.unique {j : Json} {a b : Int} (ha : j.IsInteger a) (hb : j.IsInteger b) :
    a = b := by
  obtain ⟨n, hn, ha⟩ := ha
  obtain ⟨m, hm, hb⟩ := hb
  obtain rfl : n = m := Option.some.inj (hn.symm.trans hm)
  exact ha.unique hb

namespace Style

/-- **An integer is written as its decimal digits.** -/
theorem figure_of_isInteger {x : Binary64} {a : Int} (h : x.IsInteger a) (ha : a.natAbs ≤ 2 ^ 53) :
    figure x = integerNumeral a := by
  have hround := h.roundPlaces ha 4
  rw [figure, if_pos hround.isWhole, hround.wholeNumeral]

/-- **The difference of two integer coordinates, as it is written.** -/
theorem pixels_difference {i j : Json} {a b : Int} (hi : i.IsInteger a) (hj : j.IsInteger b)
    (ha : a.natAbs ≤ 2 ^ 52) (hb : b.natAbs ≤ 2 ^ 52) :
    (do pixels (.num (← difference i j))) = .ok (integerNumeral (a - b) ++ "px") := by
  obtain ⟨m, hm, hma⟩ := hi
  obtain ⟨n, hn, hnb⟩ := hj
  -- the difference is the integer
  obtain ⟨c, hc, hdiff⟩ := hma.sub? hnb ha hb
  have hbound : (a - b).natAbs ≤ 2 ^ 53 := by omega
  obtain ⟨x, hx, hxdiff⟩ := hdiff.toDouble? hbound
  have hdifference : difference i j = .ok c := by
    rw [difference, Json.operand, Json.operand, hm, hn]
    show orFault .outOfRange (m.sub? n) = .ok c
    rw [hc]
    rfl
  have hnumber : number (.num c) = .ok (integerNumeral (a - b)) := by
    rw [number, Json.toDouble, hx, ← figure_of_isInteger hxdiff hbound]
    rfl
  rw [hdifference]
  show pixels (.num c) = _
  rw [pixels, hnumber]
  rfl

end Style

end Mockup
