import Mathlib.Data.List.Forall2
import Mockup.Text.Markup

/-!
# Identifiers and class names

The class name of a node is made of its identifier, character by character, and what may not stand
in a name becomes a hyphen. So a name does not tell apart the characters that become hyphens, nor
these from a hyphen that was there.

* `Text.Alike` — two identifiers that differ only in separators;
* `Text.className_eq_iff` — **two class names are equal exactly when the identifiers are alike**;
* `Text.identifier_identifier` — a name made of a name is that name;
* `Text.eq_of_alike` — identifiers with a single separator are alike only when they are equal.
-/

namespace Mockup.Text

/-- **Whether a character is a separator**: it is a hyphen in a name. -/
def isSeparator (c : Char) : Bool := !isNameChar c || c == '-'

/-- The character of a name that stands for a character of an identifier. -/
def nameChar (c : Char) : Char := if isNameChar c then c else '-'

theorem toList_identifier (text : String) :
    (identifier text).toList = text.toList.map nameChar := by
  rw [identifier, String.toList_ofList]
  rfl

/-- Two identifiers are **alike** when they have the same length and differ only in separators. -/
def Alike (a b : String) : Prop :=
  List.Forall₂ (fun c d => c = d ∨ isSeparator c = true ∧ isSeparator d = true) a.toList b.toList

/-! ### One character -/

theorem nameChar_of_isSeparator {c : Char} (h : isSeparator c = true) : nameChar c = '-' := by
  rw [isSeparator, Bool.or_eq_true, Bool.not_eq_true', beq_iff_eq] at h
  rcases h with outside | rfl
  · rw [nameChar, if_neg (by simp [outside])]
  · rfl

theorem nameChar_of_not_isSeparator {c : Char} (h : isSeparator c = false) : nameChar c = c := by
  rw [isSeparator, Bool.or_eq_false_iff, Bool.not_eq_false'] at h
  rw [nameChar, if_pos h.1]

/-- A character that is no separator does not become a hyphen. -/
theorem nameChar_eq_hyphen_iff {c : Char} : nameChar c = '-' ↔ isSeparator c = true := by
  refine ⟨fun hyphen => ?_, nameChar_of_isSeparator⟩
  by_contra letter
  rw [nameChar_of_not_isSeparator (eq_false_of_ne_true letter)] at hyphen
  subst hyphen
  exact letter rfl

theorem nameChar_eq_iff {c d : Char} :
    nameChar c = nameChar d ↔ c = d ∨ isSeparator c = true ∧ isSeparator d = true := by
  constructor
  · intro h
    cases hc : isSeparator c with
    | true =>
      -- both become hyphens
      have hd : nameChar d = '-' := h ▸ nameChar_of_isSeparator hc
      exact .inr ⟨rfl, nameChar_eq_hyphen_iff.mp hd⟩
    | false =>
      -- neither does, so both stay
      have hd : isSeparator d = false := by
        refine eq_false_of_ne_true fun hd => ?_
        have hyphen : nameChar c = '-' := h.trans (nameChar_of_isSeparator hd)
        exact Bool.false_ne_true (hc.symm.trans (nameChar_eq_hyphen_iff.mp hyphen))
      rw [nameChar_of_not_isSeparator hc, nameChar_of_not_isSeparator hd] at h
      exact .inl h
  · rintro (rfl | ⟨hc, hd⟩)
    · rfl
    · rw [nameChar_of_isSeparator hc, nameChar_of_isSeparator hd]

/-- The characters of names stay what they are. -/
theorem nameChar_nameChar (c : Char) : nameChar (nameChar c) = nameChar c := by
  cases hc : isSeparator c with
  | true => rw [nameChar_of_isSeparator hc]; rfl
  | false => rw [nameChar_of_not_isSeparator hc, nameChar_of_not_isSeparator hc]

/-! ### Whole identifiers -/

variable {a b : String}

/-- **Names are equal exactly when the identifiers are alike.** -/
theorem identifier_eq_iff : identifier a = identifier b ↔ Alike a b := by
  calc identifier a = identifier b
      ↔ a.toList.map nameChar = b.toList.map nameChar := by
        rw [← String.toList_inj, toList_identifier, toList_identifier]
    _ ↔ List.Forall₂ (fun c d => nameChar c = nameChar d) a.toList b.toList := by
        rw [← List.forall₂_eq_eq_eq, List.forall₂_map_left_iff, List.forall₂_map_right_iff]
    _ ↔ Alike a b := by
        rw [Alike]
        simp only [nameChar_eq_iff]

instance (a b : String) : Decidable (Alike a b) := decidable_of_iff _ identifier_eq_iff

/-- **Class names are equal exactly when the identifiers are alike.** -/
theorem className_eq_iff : className a = className b ↔ Alike a b := by
  rw [className, className, String.append_right_inj, identifier_eq_iff]

theorem Alike.symm (h : Alike a b) : Alike b a :=
  identifier_eq_iff.mp (identifier_eq_iff.mpr h).symm

/-- A name made of a name is that name. -/
theorem identifier_identifier (text : String) : identifier (identifier text) = identifier text := by
  rw [← String.toList_inj, toList_identifier, toList_identifier, List.map_map]
  exact List.map_congr_left fun c _ => nameChar_nameChar c

/-- **A single separator is told apart from everything else**: identifiers that have no other
separator are alike only when they are equal. -/
theorem eq_of_alike {separator : Char}
    (ha : ∀ c ∈ a.toList, isSeparator c = true → c = separator)
    (hb : ∀ c ∈ b.toList, isSeparator c = true → c = separator) (h : Alike a b) : a = b := by
  refine String.toList_inj.mp ?_
  rw [Alike] at h
  generalize a.toList = first at ha h ⊢
  generalize b.toList = second at hb h ⊢
  induction h with
  | nil => rfl
  | cons head tail ih =>
    rw [ih (fun c hc => ha c (.tail _ hc)) (fun d hd => hb d (.tail _ hd))]
    rcases head with rfl | ⟨hc, hd⟩
    · rfl
    · rw [ha _ (.head _) hc, hb _ (.head _) hd]

end Mockup.Text
