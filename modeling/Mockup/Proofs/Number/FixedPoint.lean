import Mockup.Proofs.Number.Places
import Mockup.Proofs.Text.Trim
import Mockup.Text.Character

/-!
# Numerals in fixed point

A numeral in fixed point has digits before and after the point, none of them superfluous: no zero
stands in front of other digits and none at the end of the fraction. The written form of a double puts
the point among its shortest digits, which gives such a numeral as long as the point is not too far from
them; and the numeral denotes what the shortest decimal does.

* `naturalOfDigits_decimalDigits` — the digits of a natural number write it;
* `Binary64.IsFixed` — digits before and after a point, none superfluous;
* `Binary64.positional_eq`, `Binary64.Significant.isFixed` — putting the point among digits;
* `Binary64.exists_fixed` — **a fraction of four decimals is written in fixed point.**
-/

namespace Mockup

open Text

/-! ### Digits of natural numbers -/

theorem isDigit_decimalDigits {n : Nat} : ∀ c ∈ decimalDigits n, c.isDigit = true := fun _ hc =>
  Nat.isDigit_of_mem_toDigits (by decide) (by decide) hc

/-- **The digits of a natural number write it.** -/
theorem naturalOfDigits_decimalDigits (n : Nat) : naturalOfDigits (decimalDigits n) = n :=
  Nat.ofDigitChars_ten_toDigits

theorem naturalOfDigits_append_zeros (digits : List Char) (k : Nat) :
    naturalOfDigits (digits ++ List.replicate k '0') = naturalOfDigits digits * 10 ^ k := by
  induction k with
  | zero => rw [List.replicate_zero, List.append_nil, Nat.pow_zero, Nat.mul_one]
  | succ k ih =>
    have hstep : naturalOfDigits (digits ++ List.replicate k '0' ++ ['0'])
        = 10 * naturalOfDigits (digits ++ List.replicate k '0') := List.foldl_append
    rw [List.replicate_succ', ← List.append_assoc, hstep, ih, Nat.mul_left_comm, Nat.pow_succ']

theorem naturalOfDigits_zeros_append (digits : List Char) (k : Nat) :
    naturalOfDigits (List.replicate k '0' ++ digits) = naturalOfDigits digits := by
  induction k with
  | zero => rfl
  | succ k ih => exact ih

/-- A positive number does not begin with a zero. -/
theorem head?_decimalDigits {n : Nat} (hn : n ≠ 0) : (decimalDigits n).head? ≠ some '0' := by
  induction n using Nat.strong_induction_on with
  | _ n ih =>
    rw [decimalDigits, Nat.toDigits_eq_if (by decide)]
    split
    · rename_i small
      have hall : ∀ n < 10, n ≠ 0 → [Nat.digitChar n].head? ≠ some '0' := by decide
      exact hall n small hn
    · rename_i large
      rw [List.head?_append_of_ne_nil _ Nat.toDigits_ne_nil]
      exact ih (n / 10) (by omega) (by omega)

namespace Binary64

/-! ### Zeros at the end -/

/-- What is left out are zeros. -/
theorem exists_zeros (digits : List Char) :
    ∃ k, digits = dropTrailingZeros digits ++ List.replicate k '0' := by
  obtain ⟨k, hk⟩ : ∃ k, digits.reverse.takeWhile (· == '0') = List.replicate k '0' := by
    refine ⟨_, List.eq_replicate_of_mem fun c hc => ?_⟩
    exact eq_of_beq (List.mem_takeWhile_imp (p := (· == '0')) hc)
  refine ⟨k, ?_⟩
  calc digits = digits.reverse.reverse := (List.reverse_reverse digits).symm
    _ = (digits.reverse.takeWhile (· == '0') ++ digits.reverse.dropWhile (· == '0')).reverse := by
      rw [List.takeWhile_append_dropWhile]
    _ = dropTrailingZeros digits ++ List.replicate k '0' := by
      rw [List.reverse_append, hk, List.reverse_replicate, dropTrailingZeros]

theorem getLast?_dropTrailingZeros (digits : List Char) :
    (dropTrailingZeros digits).getLast? ≠ some '0' := by
  intro h
  rw [dropTrailingZeros, List.getLast?_reverse] at h
  have := head?_dropWhile (· == '0') digits.reverse '0' h
  cases this

/-- **Digits without superfluous zeros**, at the front or at the end. -/
structure Significant (digits : List Char) : Prop where
  isDigit : ∀ c ∈ digits, c.isDigit = true
  ne : digits ≠ []
  first : digits.head? ≠ some '0'
  last : digits.getLast? ≠ some '0'

/-- **The digits of a number without the zeros at its end.** -/
theorem exists_significant {n : Nat} (hn : n ≠ 0) :
    ∃ digits zeros, dropTrailingZeros (decimalDigits n) = digits ∧ Significant digits
      ∧ n = naturalOfDigits digits * 10 ^ zeros
      ∧ (decimalDigits n).length = digits.length + zeros := by
  -- the numeral is the digits kept and the zeros dropped
  obtain ⟨zeros, hzeros⟩ := exists_zeros (decimalDigits n)
  have hlast := getLast?_dropTrailingZeros (decimalDigits n)
  have hvalue := naturalOfDigits_decimalDigits n
  have hfirst := head?_decimalDigits hn
  generalize dropTrailingZeros (decimalDigits n) = digits at hzeros hlast ⊢
  -- what is kept are digits of the numeral
  have hdigits : ∀ c ∈ digits, c.isDigit = true := by
    intro c hc
    refine isDigit_decimalDigits c (?_ : c ∈ decimalDigits n)
    rw [hzeros]
    exact List.mem_append_left _ hc
  -- the zeros multiply by ten each
  rw [hzeros, naturalOfDigits_append_zeros] at hvalue
  -- not all of the digits are zeros, so the first one is among those that are left
  have hne : digits ≠ [] := by
    rintro rfl
    exact hn (hvalue.symm.trans (Nat.zero_mul _))
  rw [hzeros, List.head?_append_of_ne_nil _ hne] at hfirst
  refine ⟨digits, zeros, rfl, ⟨hdigits, hne, hfirst, hlast⟩, hvalue.symm, ?_⟩
  rw [hzeros, List.length_append, List.length_replicate]

/-! ### The point -/

/-- **Digits before and after a point**, none superfluous. -/
structure IsFixed (whole fraction : List Char) : Prop where
  whole_digits : ∀ c ∈ whole, c.isDigit = true
  fraction_digits : ∀ c ∈ fraction, c.isDigit = true
  whole_ne : whole ≠ []
  no_leading_zero : whole.head? = some '0' → whole = ['0']
  short : fraction.length ≤ 4
  no_trailing_zero : fraction.getLast? ≠ some '0'

/-- The digits before a point that stands before the last `k` digits. -/
def digitsBefore (digits : List Char) (k : Nat) : List Char :=
  if digits.length ≤ k then ['0'] else digits.take (digits.length - k)

/-- The digits after it. -/
def digitsAfter (digits : List Char) (k : Nat) : List Char :=
  List.replicate (k - digits.length) '0' ++ digits.drop (digits.length - k)

section Point

variable {digits : List Char} {k : Nat}

theorem length_digitsAfter (digits : List Char) (k : Nat) : (digitsAfter digits k).length = k := by
  rw [digitsAfter, List.length_append, List.length_replicate, List.length_drop]
  omega

theorem positional_eq (hk : 0 < k) :
    positional digits (digits.length - k) = digitsBefore digits k ++ '.' :: digitsAfter digits k := by
  rw [positional, digitsBefore, digitsAfter]
  -- the point stands in front of all digits
  by_cases hle : digits.length ≤ k
  · have hzeros : (-((digits.length : Int) - k)).toNat = k - digits.length := by omega
    rw [if_pos (by omega), if_pos hle, hzeros, Nat.sub_eq_zero_of_le hle, List.drop_zero]
    rfl
  -- or some digits stand before it
  · have hpoint : ((digits.length : Int) - k).toNat = digits.length - k := by omega
    have hnone : k - digits.length = 0 := by omega
    have hbefore : (digits.take (digits.length - k)).length = digits.length - k :=
      List.length_take_of_le (Nat.sub_le _ _)
    have hafter : (digits.drop (digits.length - k)).isEmpty = false := by
      rw [List.isEmpty_eq_false_iff, ← List.length_pos_iff, List.length_drop]
      omega
    rw [if_neg (by omega), if_neg hle, hpoint, hnone]
    dsimp only
    rw [hbefore, hafter, Nat.sub_self, if_neg Bool.false_ne_true]
    simp

theorem naturalOfDigits_split (digits : List Char) (k : Nat) :
    naturalOfDigits (digitsBefore digits k ++ digitsAfter digits k) = naturalOfDigits digits := by
  rw [digitsBefore, digitsAfter]
  split
  · rename_i hle
    rw [Nat.sub_eq_zero_of_le hle, List.drop_zero]
    exact naturalOfDigits_zeros_append digits (k - digits.length + 1)
  · have hnone : k - digits.length = 0 := by omega
    rw [hnone, List.replicate_zero, List.nil_append, List.take_append_drop]

/-- **Putting the point among digits** without superfluous zeros. -/
theorem Significant.isFixed (h : Significant digits) (hk : 0 < k) (short : k ≤ 4) :
    IsFixed (digitsBefore digits k) (digitsAfter digits k) := by
  have hlength : 0 < digits.length := List.length_pos_iff.mpr h.ne
  -- the last digit is after the point, and so is the first one if the point stands in front of it
  have hlast : (digitsAfter digits k).getLast? = digits.getLast? := by
    have hne : digits.drop (digits.length - k) ≠ [] := by
      rw [← List.length_pos_iff, List.length_drop]
      omega
    rw [digitsAfter, List.getLast?_append_of_ne_nil _ hne, List.getLast?_drop, if_neg (by omega)]
  -- zeros filled in are digits
  have hzeros : ∀ c ∈ List.replicate (k - digits.length) '0', c.isDigit = true := by
    intro c hc
    rw [List.eq_of_mem_replicate hc]
    rfl
  -- before the point stands a zero, or the digits that are left
  have hbefore : digitsBefore digits k = ['0']
      ∨ digitsBefore digits k = digits.take (digits.length - k) ∧ k < digits.length := by
    rw [digitsBefore]
    split
    · exact .inl rfl
    · exact .inr ⟨rfl, by omega⟩
  have hafter : ∀ c ∈ digitsAfter digits k, c.isDigit = true :=
    List.forall_mem_append.mpr ⟨hzeros, fun c hc => h.isDigit c (List.mem_of_mem_drop hc)⟩
  have hshort : (digitsAfter digits k).length ≤ 4 := by rwa [length_digitsAfter]
  -- no zero stands at the end
  have hlast' : (digitsAfter digits k).getLast? ≠ some '0' := by
    rw [hlast]
    exact h.last
  rcases hbefore with heq | ⟨heq, hlt⟩
  -- the point in front of the digits
  · rw [heq]
    exact ⟨List.forall_mem_singleton.mpr rfl, hafter, List.cons_ne_nil _ _, fun _ => rfl, hshort,
      hlast'⟩
  -- the point among the digits, the first of which is no zero
  · have hhead : (digits.take (digits.length - k)).head? = digits.head? := by
      rw [List.head?_take, if_neg (by omega)]
    rw [heq]
    refine ⟨fun c hc => h.isDigit c (List.mem_of_mem_take hc), hafter, ?_, ?_, hshort, hlast'⟩
    · rw [← List.length_pos_iff, List.length_take]
      omega
    · rw [hhead]
      exact fun hzero => absurd hzero h.first

end Point

/-! ### Fractions -/

section Fraction

variable {n : Nat} (hn : Representable n)

include hn

/-- An integer is rounded to a whole number. -/
theorem whole_of_nearest {k : Nat} (h : nearest (k * unit) 1 = n) : n % unit = 0 := by
  by_contra fraction
  have hlt := lt_of_fraction hn fraction
  rcases Nat.lt_or_ge (2 ^ 53) k with hlarge | hsmall
  · -- too large to be rounded to a fraction
    have hle := two_pow_mul_unit_le_nearest (Nat.le_of_lt hlarge)
    omega
  · have hexact := nearest_one_of_dvd (representable_mul_unit hsmall).spacing_dvd
    rw [h] at hexact
    rw [hexact, Nat.mul_mod_left] at fraction
    exact fraction rfl

variable (fraction : n % unit ≠ 0)

include fraction

/-- **A decimal of a fraction has digits after the point**, zeros at the end not counted. -/
theorem exponent_neg {value zeros : Nat} {exponent : Int}
    (hread : ReadsBack n (value * 10 ^ zeros) exponent)
    (hpoint : exponent + (decimalDigits (value * 10 ^ zeros)).length ≤ 16) (hfine : -4 ≤ exponent) :
    exponent + zeros < 0 := by
  refine Int.lt_of_not_ge fun hwhole => ?_
  -- otherwise it is an integer, written with zeros or with an exponent, and integers are rounded to
  -- whole numbers
  obtain ⟨k, hk⟩ : ∃ k, nearest (k * unit) 1 = n := by
    rcases Int.le_total 0 exponent with hcoarse | hneg
    · obtain ⟨j, rfl⟩ := Int.eq_ofNat_of_zero_le hcoarse
      rw [ReadsBack, ofDecimal_natCast (by omega), ofRatio] at hread
      exact ⟨_, ofQuanta_inj hn hread⟩
    · obtain ⟨j, hj⟩ := Int.eq_ofNat_of_zero_le (Int.neg_nonneg_of_nonpos hneg)
      obtain rfl : exponent = -j := by omega
      obtain ⟨i, rfl⟩ : ∃ i, zeros = j + i := ⟨zeros - j, by omega⟩
      have hbound := lt_ten_pow_of_length
        (by omega : (decimalDigits (value * 10 ^ (j + i))).length ≤ 311 + j)
      have hnearest := nearest_of_readsBack hn (by omega) hbound hread
      have hratio : value * 10 ^ (j + i) * unit = 10 ^ j * (value * 10 ^ i * unit) := by
        rw [Nat.pow_add, Nat.mul_left_comm value, Nat.mul_assoc (10 ^ j)]
      rw [hratio, ← Nat.mul_one (10 ^ j), Nat.mul_assoc, Nat.one_mul,
        nearest_mul_mul_left (ten_pow_pos _)] at hnearest
      exact ⟨_, hnearest⟩
  exact fraction (whole_of_nearest hn hk)

omit hn in
/-- Where the point is not too far from the digits, it is put among them. -/
-- the common power of ten is cancelled
theorem magnitudeNumeral_eq {value : Nat} {exponent : Int} (hshortest : shortest n = (value, exponent))
    (low : -4 < exponent + (decimalDigits value).length)
    (high : exponent + (decimalDigits value).length ≤ 16) :
    magnitudeNumeral n = positional (dropTrailingZeros (decimalDigits value))
      (exponent + (decimalDigits value).length) := by
  have hpos : n ≠ 0 := by
    rintro rfl
    exact fraction (Nat.zero_mod _)
  rw [magnitudeNumeral, if_neg hpos, hshortest]
  dsimp only
  rw [if_pos ⟨low, high⟩]

theorem ne_zero_of_readsBack {value : Nat} {exponent : Int} (hread : ReadsBack n value exponent) :
    value ≠ 0 := by
  rintro rfl
  rw [ReadsBack, ofDecimal, if_pos (.inl rfl)] at hread
  rw [← ofQuanta_inj hn hread, Nat.zero_mod] at fraction
  exact fraction rfl

/-- **A fraction of four decimals is written in fixed point**, and what is written denotes it. -/
theorem exists_fixed {d : Nat} (hd : nearest (d * unit) (10 ^ 4) = n) :
    ∃ whole after, magnitudeNumeral n = whole ++ '.' :: after ∧ IsFixed whole after ∧ after ≠ []
      ∧ naturalOfDigits (whole ++ after) < 10 ^ (311 + after.length)
      ∧ nearest (naturalOfDigits (whole ++ after) * unit) (10 ^ after.length) = n := by
  -- a number with a fraction is below the integers of 53 bits
  have hlt := lt_of_fraction hn fraction
  obtain ⟨hread, hfine⟩ := shortest_readsBack hlt fraction hd
  have hpoint := point_shortest_le hlt
  rcases hshortest : shortest n with ⟨value, exponent⟩
  rw [hshortest] at hread hfine hpoint
  dsimp only at hread hfine hpoint
  -- the shortest digits without the zeros at their end
  obtain ⟨digits, zeros, hdigits, hsignificant, hvalue, hlength⟩ :=
    exists_significant (ne_zero_of_readsBack hn fraction hread)
  have hpositive : 0 < digits.length := List.length_pos_iff.mpr hsignificant.ne
  -- the exponent of the digits kept is negative, as the number is no integer
  have hnegative : exponent + zeros < 0 := by
    rw [hvalue] at hread hpoint
    exact exponent_neg hn fraction hread hpoint hfine
  -- the point stands before the last `k` of the digits
  obtain ⟨k, rfl⟩ : ∃ k : Nat, exponent = -(zeros + k : Nat) := ⟨(-exponent - zeros).toNat, by omega⟩
  have hwritten : magnitudeNumeral n = digitsBefore digits k ++ '.' :: digitsAfter digits k := by
    have hplace : -((zeros + k : Nat) : Int) + (decimalDigits value).length = digits.length - k := by
      omega
    rw [magnitudeNumeral_eq fraction hshortest (by omega) hpoint, hdigits, hplace,
      positional_eq (by omega)]
  -- the point does not change the value of the digits
  have hnatural : naturalOfDigits (digitsBefore digits k ++ digitsAfter digits k)
      = naturalOfDigits digits := naturalOfDigits_split digits k
  have hbound : value < 10 ^ (311 + k) := lt_ten_pow_of_length (by omega)
  -- the form, the digits after the point, their number and what they read as
  refine ⟨_, _, hwritten, hsignificant.isFixed (by omega) (by omega), ?_, ?_, ?_⟩
  · rw [← List.length_pos_iff, length_digitsAfter]
    omega
  · rw [hnatural, length_digitsAfter]
    refine Nat.lt_of_le_of_lt ?_ hbound
    rw [hvalue]
    exact Nat.le_mul_of_pos_right _ (ten_pow_pos zeros)
  · rw [hnatural, length_digitsAfter]
    have hdecimals : value < 10 ^ (311 + (zeros + k)) := lt_ten_pow_of_length (by omega)
    -- the digits with the zeros read back, and the zeros cancel
    have hnearest := nearest_of_readsBack hn (by omega) hdecimals hread
    have hratio : value * unit = 10 ^ zeros * (naturalOfDigits digits * unit) := by
      rw [hvalue, Nat.mul_comm _ (10 ^ zeros), Nat.mul_assoc]
    rw [hratio, Nat.pow_add, nearest_mul_mul_left (ten_pow_pos _)] at hnearest
    exact hnearest

end Fraction

end Binary64

end Mockup
