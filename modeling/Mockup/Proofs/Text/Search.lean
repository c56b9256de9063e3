import Mathlib.Data.List.Infix
import Mockup.Link.Target

/-!
# Searching a text

What a reader of a page looks for is announced by a mark, and the first place counts where the mark
stands. Text before the mark is skipped when the mark begins nowhere in it, not even to go on in what
comes after it.

* `afterFirst?` — **the text after the first place of a mark**;
* `Clashes`, `Skipped` — a text in which a mark does not begin, whatever comes after it;
* `afterFirst?_of_skipped` — **such a text is skipped**;
* `before?`, `between?` — **the text before an ending**, and that between the first places of two marks.
-/

namespace Mockup.Text

/-- **The text after the first place of a mark.** -/
def afterFirst? (mark cs : List Char) : Option (List Char) := cs.tails.findSome? (Link.after? mark)

/-- Whether a mark and a text differ somewhere within both. -/
def Clashes (mark cs : List Char) : Prop := ∃ pair ∈ mark.zip cs, pair.1 ≠ pair.2

/-- Whether a mark begins nowhere in a text, whatever comes after the text. -/
def Skipped (mark cs : List Char) : Prop := ∀ tail ∈ cs.tails, tail ≠ [] → Clashes mark tail

instance (mark cs : List Char) : Decidable (Clashes mark cs) :=
  decidable_of_iff ((mark.zip cs).any (fun pair => pair.1 ≠ pair.2) = true) (by simp [Clashes])

instance (mark cs : List Char) : Decidable (Skipped mark cs) :=
  decidable_of_iff (cs.tails.all (fun tail => tail = [] ∨ Clashes mark tail) = true)
    (by simp [Skipped, or_iff_not_imp_left])

variable {mark cs : List Char}

/-- The text after a beginning. -/
theorem after?_append (mark rest : List Char) : Link.after? mark (mark ++ rest) = some rest := by
  rw [Link.after?, if_pos (List.isPrefixOf_iff_prefix.mpr (List.prefix_append mark rest)),
    List.drop_left]

/-- What differs within both stays different when the text goes on. -/
theorem after?_of_clashes (h : Clashes mark cs) (rest : List Char) :
    Link.after? mark (cs ++ rest) = none := by
  rw [Link.after?, if_neg]
  intro hprefix
  obtain ⟨after, hafter⟩ := List.isPrefixOf_iff_prefix.mp hprefix
  obtain ⟨⟨c, d⟩, hpair, hne⟩ := h
  obtain ⟨position, hget⟩ := List.mem_iff_getElem?.mp hpair
  obtain ⟨hc, hd⟩ := List.getElem?_zip_eq_some.mp hget
  -- both have the character at that position of the longer text
  have hwhole : (cs ++ rest)[position]? = some c := by
    rw [← hafter, List.getElem?_append_left (List.getElem?_eq_some_iff.mp hc).1, hc]
  rw [List.getElem?_append_left (List.getElem?_eq_some_iff.mp hd).1, hd] at hwhole
  exact hne (Option.some.inj hwhole).symm

theorem afterFirst?_mark_append (mark rest : List Char) :
    afterFirst? mark (mark ++ rest) = some rest := by
  cases hcs : mark ++ rest with
  | nil =>
    obtain ⟨rfl, rfl⟩ := List.append_eq_nil_iff.mp hcs
    rfl
  | cons c tail =>
    rw [afterFirst?, List.tails_cons, List.findSome?_cons, ← hcs, after?_append]

/-- **What is skipped does not matter.** -/
theorem afterFirst?_of_skipped (h : Skipped mark cs) (rest : List Char) :
    afterFirst? mark (cs ++ rest) = afterFirst? mark rest := by
  induction cs with
  | nil => rfl
  | cons c cs ih =>
    rw [Skipped, List.tails_cons, List.forall_mem_cons] at h
    obtain ⟨hhere, hfurther⟩ := h
    have hnone := after?_of_clashes (hhere (List.cons_ne_nil c cs)) rest
    rw [List.cons_append] at hnone
    rw [List.cons_append, afterFirst?, List.tails_cons, List.findSome?_cons, hnone]
    exact ih hfurther

/-- A text without the first character of a mark is skipped. -/
theorem skipped_of_notMem {first : Char} (h : first ∉ cs) (mark : List Char) :
    Skipped (first :: mark) cs := by
  intro tail htail hne
  obtain ⟨c, tail, rfl⟩ := List.exists_cons_of_ne_nil hne
  refine ⟨(first, c), List.mem_cons_self, fun same => ?_⟩
  obtain rfl : first = c := same
  exact h (((List.mem_tails _ _).mp htail).mem List.mem_cons_self)

/-- What differs further on is different from here on. -/
theorem Clashes.cons (h : Clashes mark cs) (first c : Char) : Clashes (first :: mark) (c :: cs) :=
  let ⟨pair, hpair, hne⟩ := h
  ⟨pair, List.mem_cons_of_mem _ hpair, hne⟩

/-- A text without the second character of a mark is skipped, if the mark does not go on from its
second character in what comes after the text. -/
theorem skipped_append_of_notMem {first second : Char} {next : List Char} (h : second ∉ cs)
    (hclash : Clashes (second :: mark) next) (hnext : Skipped (first :: second :: mark) next) :
    Skipped (first :: second :: mark) (cs ++ next) := by
  induction cs with
  | nil => exact hnext
  | cons c cs ih =>
    have hcs : second ∉ cs := fun hmem => h (List.mem_cons_of_mem c hmem)
    rw [Skipped, List.cons_append, List.tails_cons, List.forall_mem_cons]
    refine ⟨fun _ => ?_, ih hcs⟩
    -- the second character is that of the text, or else the mark goes on in what comes after
    cases cs with
    | nil => exact hclash.cons first c
    | cons d cs =>
      have hne : second ≠ d := fun same => hcs (same ▸ List.mem_cons_self)
      exact ⟨(second, d), List.mem_cons_of_mem _ List.mem_cons_self, hne⟩

/-! ### Endings -/

/-- **The text before an ending.** -/
def before? (ending cs : List Char) : Option (List Char) :=
  if ending.isSuffixOf cs then some (cs.take (cs.length - ending.length)) else none

theorem before?_append (cs ending : List Char) : before? ending (cs ++ ending) = some cs := by
  rw [before?, if_pos (List.isSuffixOf_iff_suffix.mpr (List.suffix_append cs ending)),
    List.length_append, Nat.add_sub_cancel, List.take_left]

/-- **The text between the first place of a mark and the first place of another.** -/
def between? (opening closing cs : List Char) : Option (List Char) := do
  let rest ← afterFirst? opening cs
  let tail ← afterFirst? closing cs
  before? (closing ++ tail) rest

theorem between?_of_afterFirst? {opening closing rest tail : List Char}
    (hopening : afterFirst? opening cs = some (rest ++ (closing ++ tail)))
    (hclosing : afterFirst? closing cs = some tail) : between? opening closing cs = some rest := by
  rw [between?, hopening, hclosing]
  exact before?_append rest (closing ++ tail)

end Mockup.Text
