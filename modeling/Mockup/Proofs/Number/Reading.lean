import Mockup.Number.Written
import Mockup.Proofs.Text.Alphanumeric
import Mockup.Proofs.Text.Trim

/-!
# Reading plain numerals

A text that is read as a number may have blanks, underscores, digits of other scripts, names and
exponents. A plain numeral has none of them: it is a sign, digits, and digits after a point. All that
the reader does for the other texts leaves it alone.

* `Binary64.plainNumeral` — a sign, digits, and digits after a point;
* `Binary64.ofText?_of_plain` — only the numeral itself is read;
* `Binary64.ofText?_plainNumeral` — **a plain numeral is read as its decimal.**
-/

namespace Mockup.Binary64

open Text

/-- **A plain numeral**: a sign, digits, and digits after a point. -/
def plainNumeral (negative : Bool) (whole fraction : List Char) : List Char :=
  (if negative then ['-'] else []) ++ (whole ++ if fraction = [] then [] else '.' :: fraction)

/-! ### Characters -/

/-- **The characters of plain numerals.** -/
def isPlain (c : Char) : Bool := c.isDigit || c == '-' || c == '.'

variable {c : Char}

theorem isPlain_of_isDigit (h : c.isDigit = true) : isPlain c = true := by
  rw [isPlain, h, Bool.true_or, Bool.true_or]

theorem isAsciiDigit_eq_isDigit (c : Char) : isAsciiDigit c = c.isDigit := rfl

/-- What holds of the plain characters of ASCII holds of all plain characters. -/
theorem ascii_of_isPlain {p : Char → Prop}
    (h : ∀ n < 0x80, isPlain (Char.ofNat n) = true → p (Char.ofNat n)) (hc : isPlain c = true) :
    p c := by
  have hlt : c.toNat < 0x80 := by
    simp only [isPlain, Bool.or_eq_true, beq_iff_eq] at hc
    rcases hc with (hdigit | rfl) | rfl
    · refine toNat_lt_of_isAlphanum ?_
      rw [Char.isAlphanum, hdigit, Bool.or_true]
    · decide
    · decide
  have hp := h c.toNat hlt
  rw [Char.ofNat_toNat] at hp
  exact hp hc

theorem plainDigit_of_isPlain (h : isPlain c = true) : plainDigit c = c :=
  ascii_of_isPlain (p := fun c => plainDigit c = c) (by decide +kernel) h

theorem isMargin_of_isPlain (h : isPlain c = true) : isMargin c = false :=
  ascii_of_isPlain (p := fun c => isMargin c = false) (by decide +kernel) h

theorem ne_underscore_of_isPlain (h : isPlain c = true) : c ≠ '_' := by
  rintro rfl
  cases h

/-- Neither a name nor a sign begins with a digit. -/
theorem ne_of_isDigit {d : Char} (hc : c.isDigit = true) (hd : d.isDigit = false) : c ≠ d := by
  rintro rfl
  rw [hc] at hd
  cases hd

theorem toLower_of_isDigit (h : c.isDigit = true) : c.toLower = c :=
  ascii_of_isPlain (p := fun c => c.toLower = c) (by decide +kernel) (isPlain_of_isDigit h)

/-! ### The text around a numeral -/

variable {cs : List Char}

theorem joinGroups?_of_plain (h : ∀ c ∈ cs, isPlain c = true) (before : Char) :
    joinGroups? before cs = some cs := by
  induction cs generalizing before with
  | nil => rfl
  | cons c rest ih =>
    obtain ⟨hc, hrest⟩ := List.forall_mem_cons.mp h
    have hne := ne_underscore_of_isPlain hc
    have hstep : joinGroups? before (c :: rest) = (joinGroups? c rest).map (c :: ·) := by
      rw [joinGroups?, if_neg hne]
      exact fun _ _ heq => absurd heq hne
    rw [hstep, ih hrest]
    rfl

/-- **Only the numeral itself is read** of a text of plain characters. -/
theorem ofText?_of_plain (h : ∀ c ∈ cs, isPlain c = true) :
    ofText? (String.ofList cs) = ofNumeral? cs := by
  have htrim : trimBoth isMargin cs = cs :=
    trimBoth_eq_self (fun c hc => isMargin_of_isPlain (h c (List.mem_of_mem_head? hc)))
      (fun c hc => isMargin_of_isPlain (h c (List.mem_of_mem_getLast? hc)))
  have hplain : cs.map plainDigit = cs :=
    (List.map_congr_left fun c hc => plainDigit_of_isPlain (h c hc)).trans (List.map_id cs)
  rw [ofText?, String.toList_ofList, htrim, hplain, joinGroups?_of_plain h]
  rfl

/-! ### The numeral -/

section Numeral

variable {first : Char} {whole fraction rest : List Char}

theorem splitSign_of_isDigit (h : first.isDigit = true) :
    splitSign (first :: rest) = (false, first :: rest) := by
  rw [splitSign]
  · exact fun _ heq => ne_of_isDigit h rfl (List.cons.inj heq).1
  · exact fun _ heq => ne_of_isDigit h rfl (List.cons.inj heq).1

/-- Names do not begin with a digit. -/
theorem named?_of_isDigit (h : first.isDigit = true) (negative : Bool) :
    named? negative (first :: rest) = none := by
  have hname : ∀ {name : String} {letter : Char}, name.toList.head? = some letter →
      letter.isDigit = false → String.ofList ((first :: rest).map Char.toLower) ≠ name := by
    rintro name letter hletter hdigit rfl
    rw [String.toList_ofList, List.map_cons, List.head?_cons, toLower_of_isDigit h] at hletter
    rw [← Option.some.inj hletter, h] at hdigit
    cases hdigit
  have hinf : "inf".toList.head? = some 'i' := by simp
  have hinfinity : "infinity".toList.head? = some 'i' := by simp
  have hnan : "nan".toList.head? = some 'n' := by simp
  rw [named?, if_neg (not_or.mpr ⟨hname hinf rfl, hname hinfinity rfl⟩), if_neg (hname hnan rfl)]

/-- Digits are split off where they end. -/
theorem splitDigits_append (hdigits : ∀ c ∈ whole, c.isDigit = true)
    (hrest : ∀ c ∈ rest.head?, c.isDigit = false) : splitDigits (whole ++ rest) = (whole, rest) := by
  have hplain : ∀ c ∈ whole, isAsciiDigit c = true := hdigits
  have hnone : rest.takeWhile isAsciiDigit = [] := by
    cases rest with
    | nil => rfl
    | cons c rest =>
      refine List.takeWhile_cons_of_neg ?_
      rw [isAsciiDigit_eq_isDigit, hrest c rfl]
      exact Bool.false_ne_true
  have hkept : rest.dropWhile isAsciiDigit = rest := dropWhile_eq_self hrest
  rw [splitDigits, List.takeWhile_append_of_pos hplain, hnone, List.append_nil,
    List.dropWhile_append_of_pos hplain, hkept]

theorem unsignedNumeral?_whole (hwhole : ∀ c ∈ whole, c.isDigit = true) (hne : whole ≠ [])
    (negative : Bool) :
    unsignedNumeral? negative whole = some (ofDecimal negative (naturalOfDigits whole) 0) := by
  have hsplit : splitDigits (whole ++ []) = (whole, []) := splitDigits_append hwhole nofun
  rw [List.append_nil] at hsplit
  rw [unsignedNumeral?, hsplit]
  simp [guard, hne, exponentOf?]

theorem unsignedNumeral?_point (hwhole : ∀ c ∈ whole, c.isDigit = true) (hne : whole ≠ [])
    (hfraction : ∀ c ∈ fraction, c.isDigit = true) (negative : Bool) :
    unsignedNumeral? negative (whole ++ '.' :: fraction)
      = some (ofDecimal negative (naturalOfDigits (whole ++ fraction)) (-fraction.length)) := by
  have hpoint : ∀ c ∈ ('.' :: fraction).head?, c.isDigit = false := by
    rintro c ⟨⟩
    rfl
  have hsplit : splitDigits (fraction ++ []) = (fraction, []) := splitDigits_append hfraction nofun
  rw [List.append_nil] at hsplit
  rw [unsignedNumeral?, splitDigits_append hwhole hpoint]
  simp [hsplit, guard, hne, exponentOf?]

/-- **A plain numeral is read as its decimal.** -/
theorem ofText?_plainNumeral (hwhole : ∀ c ∈ whole, c.isDigit = true) (hne : whole ≠ [])
    (hfraction : ∀ c ∈ fraction, c.isDigit = true) (negative : Bool) :
    ofText? (String.ofList (plainNumeral negative whole fraction))
      = some (ofDecimal negative (naturalOfDigits (whole ++ fraction)) (-fraction.length)) := by
  -- the first digit is what tells the numeral from a sign and from a name
  obtain ⟨first, others, rfl⟩ := List.exists_cons_of_ne_nil hne
  have hfirst := hwhole first List.mem_cons_self
  have hunsigned : ∀ negative, unsignedNumeral? negative
      (first :: others ++ if fraction = [] then [] else '.' :: fraction)
      = some (ofDecimal negative (naturalOfDigits (first :: others ++ fraction))
          (-fraction.length)) := by
    intro negative
    split
    · rename_i hempty
      rw [hempty, List.append_nil, unsignedNumeral?_whole hwhole hne]
      rfl
    · exact unsignedNumeral?_point hwhole hne hfraction negative
  have hplain : ∀ c ∈ plainNumeral negative (first :: others) fraction, isPlain c = true := by
    have hpoint : ∀ c ∈ if fraction = [] then [] else '.' :: fraction, isPlain c = true := by
      split
      · exact List.forall_mem_nil _
      · exact List.forall_mem_cons.mpr ⟨rfl, fun c hc => isPlain_of_isDigit (hfraction c hc)⟩
    have hsign : ∀ c ∈ if negative then ['-'] else [], isPlain c = true := by
      split
      · exact List.forall_mem_singleton.mpr rfl
      · exact List.forall_mem_nil _
    exact List.forall_mem_append.mpr ⟨hsign, List.forall_mem_append.mpr
      ⟨fun c hc => isPlain_of_isDigit (hwhole c hc), hpoint⟩⟩
  have hsign : splitSign (plainNumeral negative (first :: others) fraction)
      = (negative, first :: others ++ if fraction = [] then [] else '.' :: fraction) := by
    cases negative with
    | false => exact splitSign_of_isDigit hfirst
    | true => rfl
  rw [ofText?_of_plain hplain, ofNumeral?, hsign]
  dsimp only
  rw [hunsigned, List.cons_append, named?_of_isDigit hfirst]
  rfl

end Numeral

end Mockup.Binary64
