import Mathlib.Data.List.DropRight
import Mockup.Text.Character

/-!
# Trimmed texts

The names of files and the texts of links are trimmed: what satisfies a test is left out at both
ends, and nothing else is.

* `exists_trimBoth` — **what is left out stands at the ends**;
* `head?_trimBoth`, `getLast?_trimBoth` — neither end of what is left satisfies the test;
* `trimBoth_surrounded` — **a text is what is left of it with anything around it that is left out**;
* `exists_trimBoth_append` — the beginning of a text, when its end is not known;
* `Unblank` — texts without blanks, of which nothing is trimmed;
* `infix_trimBoth_iff` — a part of a text without anything that is left out.
-/

namespace Mockup.Text

variable {drop : Char → Bool} {cs front body back : List Char}

/-- A text that does not begin with what is left out keeps its beginning. -/
theorem dropWhile_eq_self (h : ∀ c ∈ body.head?, drop c = false) : body.dropWhile drop = body := by
  cases body with
  | nil => rfl
  | cons c rest =>
    have hc : drop c = false := h c rfl
    rw [List.dropWhile_cons_of_neg (by simp [hc])]

/-- What is left begins with something else. -/
theorem head?_dropWhile (drop : Char → Bool) (cs : List Char) :
    ∀ c ∈ (cs.dropWhile drop).head?, drop c = false := by
  intro c hc
  have hhead := List.head?_dropWhile_not drop cs
  rwa [Option.mem_def.mp hc] at hhead

/-- **What is left out stands at the ends.** -/
theorem exists_trimBoth (drop : Char → Bool) (cs : List Char) :
    ∃ front back, (∀ c ∈ front, drop c = true) ∧ (∀ c ∈ back, drop c = true)
      ∧ cs = front ++ (trimBoth drop cs ++ back) := by
  have hback : cs.dropWhile drop
      = trimBoth drop cs ++ ((cs.dropWhile drop).reverse.takeWhile drop).reverse := by
    rw [trimBoth, ← List.reverse_append, List.takeWhile_append_dropWhile, List.reverse_reverse]
  refine ⟨cs.takeWhile drop, ((cs.dropWhile drop).reverse.takeWhile drop).reverse,
    fun c hc => List.mem_takeWhile_imp hc,
    fun c hc => List.mem_takeWhile_imp (List.mem_reverse.mp hc), ?_⟩
  rw [← hback, List.takeWhile_append_dropWhile]

/-- What is left is a part of the text. -/
theorem trimBoth_isInfix (drop : Char → Bool) (cs : List Char) : trimBoth drop cs <:+: cs := by
  obtain ⟨front, back, -, -, h⟩ := exists_trimBoth drop cs
  exact ⟨front, back, (List.append_assoc _ _ _).trans h.symm⟩

/-- Trimming brings in nothing. -/
theorem mem_of_mem_trimBoth {c : Char} (h : c ∈ trimBoth drop cs) : c ∈ cs :=
  (trimBoth_isInfix drop cs).mem h

/-- What is left does not end with what is left out. -/
theorem getLast?_trimBoth (drop : Char → Bool) (cs : List Char) :
    ∀ c ∈ (trimBoth drop cs).getLast?, drop c = false := by
  rw [trimBoth, List.getLast?_reverse]
  exact head?_dropWhile drop _

/-- Nor does it begin with it. -/
theorem head?_trimBoth (drop : Char → Bool) (cs : List Char) :
    ∀ c ∈ (trimBoth drop cs).head?, drop c = false := by
  -- the other end is trimmed last, which leaves a beginning of what was there
  intro c hc
  have hprefix : trimBoth drop cs <+: cs.dropWhile drop := List.rdropWhile_prefix drop _
  obtain ⟨back, hback⟩ := hprefix
  refine head?_dropWhile drop cs c ?_
  rw [← hback, List.head?_append, Option.mem_def.mp hc]
  rfl

/-- **A text is what is left of it with anything around it that is left out.** -/
theorem trimBoth_surrounded (hfront : ∀ c ∈ front, drop c = true) (hback : ∀ c ∈ back, drop c = true)
    (first : ∀ c ∈ body.head?, drop c = false) (last : ∀ c ∈ body.getLast?, drop c = false) :
    trimBoth drop (front ++ (body ++ back)) = body := by
  cases body with
  | nil =>
    have hall : ∀ c ∈ front ++ ([] ++ back), drop c = true := fun c hc =>
      (List.mem_append.mp hc).elim (hfront c) (hback c)
    rw [trimBoth, List.dropWhile_eq_nil_iff.mpr hall]
    rfl
  -- the body stops the trimming at both ends
  | cons c rest =>
    have hfirst : ∀ d ∈ (c :: rest ++ back).head?, drop d = false := fun d hd => first d hd
    have hreverse : ∀ d ∈ (c :: rest).reverse.head?, drop d = false := by rwa [List.head?_reverse]
    rw [trimBoth, List.dropWhile_append_of_pos hfront, dropWhile_eq_self hfirst, List.reverse_append,
      List.dropWhile_append_of_pos fun d hd => hback d (List.mem_reverse.mp hd),
      dropWhile_eq_self hreverse, List.reverse_reverse]

/-- A text that neither begins nor ends with what is left out stays as it is. -/
theorem trimBoth_eq_self (first : ∀ c ∈ cs.head?, drop c = false)
    (last : ∀ c ∈ cs.getLast?, drop c = false) : trimBoth drop cs = cs := by
  have h : trimBoth drop ([] ++ (cs ++ [])) = cs := trimBoth_surrounded nofun nofun first last
  rwa [List.append_nil, List.nil_append] at h

/-- **The beginning of a text, when its end is not known**: what stands before a character that is not
left out stays. -/
theorem exists_trimBoth_append (hfront : ∀ c ∈ front, drop c = true)
    (first : ∀ c ∈ body.head?, drop c = false) {keep : Char} (kept : drop keep = false)
    (back : List Char) :
    ∃ rest, trimBoth drop (front ++ (body ++ keep :: back)) = body ++ keep :: rest := by
  -- only what follows that character is trimmed at the end
  have hfirst : ∀ d ∈ (body ++ keep :: back).head?, drop d = false := by
    intro d hd
    cases body with
    | nil =>
      obtain rfl := Option.some.inj hd
      exact kept
    | cons c rest => exact first d hd
  -- from the end the trimming stops at the kept character at the latest
  have hstop (trailing : List Char) :
      ∃ rest, (trailing ++ keep :: body.reverse).dropWhile drop = rest ++ keep :: body.reverse := by
    induction trailing with
    | nil => exact ⟨[], List.dropWhile_cons_of_neg (by simp [kept])⟩
    | cons c trailing ih =>
      cases hc : drop c with
      -- another dropped character at the end
      | true => rwa [List.cons_append, List.dropWhile_cons_of_pos hc]
      -- a kept one, which stops it earlier
      | false => exact ⟨c :: trailing, List.dropWhile_cons_of_neg (by simp [hc])⟩
  obtain ⟨rest, hrest⟩ := hstop back.reverse
  have hreverse : (body ++ keep :: back).reverse = back.reverse ++ keep :: body.reverse := by simp
  refine ⟨rest.reverse, ?_⟩
  rw [trimBoth, List.dropWhile_append_of_pos hfront, dropWhile_eq_self hfirst, hreverse, hrest]
  simp

/-! ### Texts without blanks -/

/-- **Whether a text has no blanks.** -/
def Unblank (cs : List Char) : Prop := ∀ c ∈ cs, isBlank c = false

instance (cs : List Char) : Decidable (Unblank cs) :=
  decidable_of_iff (cs.all (!isBlank ·) = true) (by simp [Unblank])

namespace Unblank

theorem nil : Unblank [] := nofun

theorem cons {c : Char} (hc : isBlank c = false) (h : Unblank cs) : Unblank (c :: cs) :=
  List.forall_mem_cons.mpr ⟨hc, h⟩

theorem append (hfront : Unblank front) (hback : Unblank back) : Unblank (front ++ back) :=
  List.forall_mem_append.mpr ⟨hfront, hback⟩

/-- Nothing is trimmed but what stands around it. -/
theorem trimBlanks_surrounded (h : Unblank cs) (hfront : ∀ c ∈ front, isBlank c = true)
    (hback : ∀ c ∈ back, isBlank c = true) : trimBlanks (front ++ cs ++ back) = cs := by
  rw [List.append_assoc]
  exact trimBoth_surrounded hfront hback (fun c hc => h c (List.mem_of_head? hc))
    fun c hc => h c (List.mem_of_getLast? hc)

end Unblank

/-! ### Parts -/

section Infix

variable {part : List Char}

/-- A part of a text that has nothing in common with the end of it stands before that end. -/
theorem infix_of_infix_append {front back : List Char} (ne : part ≠ []) (apart : ∀ c ∈ part, c ∉ back)
    (h : part <:+: front ++ back) : part <:+: front := by
  rcases List.infix_append_iff.mp h with h | h | ⟨before, after, rfl, hbefore, hafter⟩
  · exact h
  · obtain ⟨c, part, rfl⟩ := List.exists_cons_of_ne_nil ne
    exact absurd (h.mem List.mem_cons_self) (apart c List.mem_cons_self)
  · cases after with
    | nil => exact (List.append_nil before).symm ▸ hbefore.isInfix
    | cons c after =>
      exact absurd (hafter.mem List.mem_cons_self)
        (apart c (List.mem_append_right _ List.mem_cons_self))

/-- A part of a text without some character stands on one side of it. -/
theorem infix_append_cons_iff {stop : Char} {front back : List Char} (h : stop ∉ part) :
    part <:+: front ++ stop :: back ↔ part <:+: front ∨ part <:+: back := by
  -- a part without the stop ends before it
  have notMem {after : List Char} (hafter : after <+: stop :: back) (hmem : ∀ c ∈ after, c ∈ part) :
      after = [] := by
    cases after with
    | nil => rfl
    | cons c after =>
      obtain ⟨rfl, -⟩ := List.cons_prefix_cons.mp hafter
      exact absurd (hmem c List.mem_cons_self) h
  constructor
  · intro hinfix
    -- the part lies on one side, or over the border
    rcases List.infix_append_iff.mp hinfix with h | h | ⟨before, after, rfl, hbefore, hafter⟩
    · exact .inl h
    · rcases List.infix_cons_iff.mp h with h | h
      · exact .inl (notMem h (fun _ hc => hc) ▸ List.nil_infix)
      · exact .inr h
    -- over the border it would hold the stop
    · obtain rfl := notMem hafter fun c hc => List.mem_append_right _ hc
      exact .inl ((List.append_nil before).symm ▸ hbefore.isInfix)
  · rintro (h | h)
    · exact h.trans (List.prefix_append _ _).isInfix
    · exact h.trans ((List.suffix_cons _ _).trans (List.suffix_append _ _)).isInfix

theorem infix_trimBoth_iff {drop : Char → Bool} (kept : ∀ c ∈ part, drop c = false) (ne : part ≠ []) :
    part <:+: trimBoth drop cs ↔ part <:+: cs := by
  refine ⟨fun h => h.trans (trimBoth_isInfix drop cs), fun h => ?_⟩
  -- the trimmed text lies between two edges
  obtain ⟨front, back, hfront, hback, hcs⟩ := exists_trimBoth drop cs
  -- no character of the part is one of an edge
  have apart {edge : List Char} (hedge : ∀ c ∈ edge, drop c = true) : ∀ c ∈ part, c ∉ edge :=
    fun c hc hmem => by cases (kept c hc).symm.trans (hedge c hmem)
  rw [hcs, ← List.append_assoc] at h
  -- the part is not in the back edge
  have hreverse : part.reverse <:+: (trimBoth drop cs).reverse ++ front.reverse := by
    rw [← List.reverse_append]
    exact List.reverse_infix.mpr (infix_of_infix_append ne (apart hback) h)
  -- nor in the front one, which is the back one of the reversed text
  refine List.reverse_infix.mp (infix_of_infix_append (by simpa using ne) ?_ hreverse)
  intro c hc hmem
  exact apart hfront c (List.mem_reverse.mp hc) (List.mem_reverse.mp hmem)

end Infix

end Mockup.Text
