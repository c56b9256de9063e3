import Mockup.Number.Decimal

/-!
# The characters of a numeral

A written number has digits, a point, signs, the mark of an exponent, and the letters of the names
for what has no digits. Which of them a particular double needs is a question of its size; that there
are no others is a question of how numerals are put together, and is shown here for all doubles.

* `isNumeralChar` — the characters;
* `isDigit_or_minus_of_mem_integerNumeral` — those of integers, which are fewer;
* `Binary64.isNumeralChar_numeral`, `Binary64.isNumeralChar_wholeNumeral` — **a numeral has no
  others**.
-/

namespace Mockup

/-- **The characters of numerals.** -/
def isNumeralChar (c : Char) : Bool :=
  c.isDigit || c ∈ ['.', '-', '+', 'e', 'i', 'n', 'f', 'a']

theorem isNumeralChar_of_isDigit {c : Char} (h : c.isDigit = true) : isNumeralChar c = true := by
  rw [isNumeralChar, h, Bool.true_or]

theorem isNumeralChar_decimalDigits {n : Nat} : ∀ c ∈ decimalDigits n, isNumeralChar c = true :=
  fun _ hc => isNumeralChar_of_isDigit (Nat.isDigit_of_mem_toDigits (by decide) (by decide) hc)

/-- **The characters of an integer**: digits, and a sign before them. -/
theorem isDigit_or_minus_of_mem_integerNumeral {z : Int} :
    ∀ c ∈ (integerNumeral z).toList, c.isDigit = true ∨ c = '-' := by
  have hdigits : ∀ c ∈ (toString z.natAbs).toList, c.isDigit = true ∨ c = '-' := by
    intro c hc
    rw [Nat.toString_eq_ofList_toDigits, String.toList_ofList] at hc
    exact .inl (Nat.isDigit_of_mem_toDigits (by decide) (by decide) hc)
  unfold integerNumeral
  split
  · rw [String.toList_append]
    exact List.forall_mem_append.mpr ⟨List.forall_mem_singleton.mpr (.inr rfl), hdigits⟩
  · exact hdigits

theorem isNumeralChar_integerNumeral (z : Int) :
    ∀ c ∈ (integerNumeral z).toList, isNumeralChar c = true := by
  intro c hc
  rcases isDigit_or_minus_of_mem_integerNumeral c hc with hdigit | rfl
  · exact isNumeralChar_of_isDigit hdigit
  · rfl

namespace Binary64

/-! ### Digits and the point among them -/

variable {digits : List Char}

theorem isNumeralChar_dropTrailingZeros (h : ∀ c ∈ digits, isNumeralChar c = true) :
    ∀ c ∈ dropTrailingZeros digits, isNumeralChar c = true := by
  intro c hc
  have hc := (List.dropWhile_sublist _).subset (List.mem_reverse.mp hc)
  exact h c (List.mem_reverse.mp hc)

/-- Digits that fill up a numeral. -/
theorem isNumeralChar_replicate {n : Nat} :
    ∀ c ∈ List.replicate n '0', isNumeralChar c = true := by
  intro c hc
  obtain rfl := List.eq_of_mem_replicate hc
  rfl

theorem isNumeralChar_positional (h : ∀ c ∈ digits, isNumeralChar c = true) (point : Int) :
    ∀ c ∈ positional digits point, isNumeralChar c = true := by
  unfold positional
  split
  · exact List.forall_mem_cons.mpr ⟨rfl, List.forall_mem_cons.mpr
      ⟨rfl, List.forall_mem_append.mpr ⟨isNumeralChar_replicate, h⟩⟩⟩
  · refine List.forall_mem_append.mpr ⟨List.forall_mem_append.mpr
      ⟨fun c hc => h c (List.mem_of_mem_take hc), isNumeralChar_replicate⟩, ?_⟩
    refine List.forall_mem_cons.mpr ⟨rfl, ?_⟩
    -- after the point are the digits that are left, or a zero
    split
    · exact List.forall_mem_singleton.mpr rfl
    · exact fun c hc => h c (List.mem_of_mem_drop hc)

theorem isNumeralChar_scientific (h : ∀ c ∈ digits, isNumeralChar c = true) (exponent : Int) :
    ∀ c ∈ scientific digits exponent, isNumeralChar c = true := by
  have hfraction : ∀ c ∈ (if digits.length ≤ 1 then [] else '.' :: digits.drop 1),
      isNumeralChar c = true := by
    split
    · exact List.forall_mem_nil _
    · exact List.forall_mem_cons.mpr ⟨rfl, fun c hc => h c (List.mem_of_mem_drop hc)⟩
  have hsign : isNumeralChar (if exponent < 0 then '-' else '+') = true := by
    split <;> rfl
  unfold scientific
  refine List.forall_mem_append.mpr ⟨List.forall_mem_append.mpr
    ⟨fun c hc => h c (List.mem_of_mem_take hc), hfraction⟩, ?_⟩
  exact List.forall_mem_cons.mpr ⟨rfl, List.forall_mem_cons.mpr ⟨hsign,
    List.forall_mem_append.mpr ⟨isNumeralChar_replicate, isNumeralChar_decimalDigits⟩⟩⟩

theorem isNumeralChar_magnitudeNumeral (n : Nat) :
    ∀ c ∈ magnitudeNumeral n, isNumeralChar c = true := by
  unfold magnitudeNumeral
  split
  · exact List.all_eq_true.mp (by decide : ['0', '.', '0'].all isNumeralChar = true)
  · obtain ⟨value, exponent⟩ := shortest n
    have hdigits := isNumeralChar_dropTrailingZeros (isNumeralChar_decimalDigits (n := value))
    dsimp only
    split
    · exact isNumeralChar_positional hdigits _
    · exact isNumeralChar_scientific hdigits _

/-! ### Doubles -/

/-- What has no digits has a name. -/
theorem isNumeralChar_named {name : String} (h : name ∈ ["inf", "-inf", "nan"]) :
    ∀ c ∈ name.toList, isNumeralChar c = true := by
  have hall : ∀ name ∈ ["inf", "-inf", "nan"], name.toList.all isNumeralChar = true := by
    decide +kernel
  exact List.all_eq_true.mp (hall name h)

theorem isNumeralChar_numeral (x : Binary64) : ∀ c ∈ x.numeral.toList, isNumeralChar c = true := by
  cases x with
  | finite negative n representable =>
    rw [numeral, String.toList_ofList]
    split
    · exact List.forall_mem_cons.mpr ⟨rfl, isNumeralChar_magnitudeNumeral n⟩
    · exact isNumeralChar_magnitudeNumeral n
  | infinite negative => cases negative <;> exact isNumeralChar_named (by decide)
  | nan => exact isNumeralChar_named (by decide)

theorem isNumeralChar_wholeNumeral (x : Binary64) :
    ∀ c ∈ x.wholeNumeral.toList, isNumeralChar c = true := by
  cases x with
  | finite negative n representable => exact isNumeralChar_integerNumeral _
  | infinite negative => exact isNumeralChar_numeral (.infinite negative)
  | nan => exact isNumeralChar_numeral .nan

end Binary64

end Mockup
