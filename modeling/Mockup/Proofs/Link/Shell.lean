import Mockup.Proofs.Text.Percent

/-!
# Links that were escaped for a shell

A link that is pasted into a command line may come with a backslash before the characters that a shell
would take for its own. The reader of a link leaves out the backslashes of the query, but only after it
has undone the percent escapes of the whole text. So this module says what the second step makes of the
backslashes: they stay before the same characters.

* `ShellEscaped` — **a text with backslashes before some of its marks**;
* `ShellEscaped.filter_backslash` — leaving out the backslashes gives the text;
* `ShellEscaped.decode` — **percent escapes can be undone under the backslashes**, for none of the marks
  is part of one.
-/

namespace Mockup.Link

open Text

/-- A character that a shell takes for its own and that may stand in the query of a link. -/
def isShellMark (c : Char) : Bool := c == '?' || c == '=' || c == '&'

/-- **A text with backslashes before some of its marks.** -/
inductive ShellEscaped : List Char → List Char → Prop
  | nil : ShellEscaped [] []
  | bare (c : Char) {cs written : List Char} (rest : ShellEscaped cs written) :
    ShellEscaped (c :: cs) (c :: written)
  | escaped {mark : Char} (h : isShellMark mark = true) {cs written : List Char}
    (rest : ShellEscaped cs written) : ShellEscaped (mark :: cs) ('\\' :: mark :: written)

namespace ShellEscaped

variable {cs written : List Char}

/-- A text without any backslashes before its marks. -/
theorem refl : (cs : List Char) → ShellEscaped cs cs
  | [] => .nil
  | c :: rest => .bare c (refl rest)

/-- A text with a backslash before each of its marks. -/
theorem all (cs : List Char) :
    ShellEscaped cs (cs.flatMap fun c => if isShellMark c then ['\\', c] else [c]) := by
  induction cs with
  | nil => exact .nil
  | cons c cs ih =>
    rw [List.flatMap_cons]
    cases hmark : isShellMark c with
    | true => exact .escaped hmark ih
    | false => exact .bare c ih

theorem append {front back writtenFront writtenBack : List Char}
    (hfront : ShellEscaped front writtenFront) (hback : ShellEscaped back writtenBack) :
    ShellEscaped (front ++ back) (writtenFront ++ writtenBack) := by
  induction hfront with
  | nil => exact hback
  | bare c rest ih => exact .bare c ih
  | escaped h rest ih => exact .escaped h ih

/-- Text put together is escaped part by part. -/
theorem append_inv {front back : List Char} (h : ShellEscaped (front ++ back) written) :
    ∃ writtenFront writtenBack, written = writtenFront ++ writtenBack
      ∧ ShellEscaped front writtenFront ∧ ShellEscaped back writtenBack := by
  induction front generalizing written with
  | nil => exact ⟨[], written, rfl, .nil, h⟩
  -- the first character goes to the front, with its backslash if it has one
  | cons c front ih =>
    cases h with
    | bare c rest =>
      obtain ⟨writtenFront, writtenBack, rfl, hfront, hback⟩ := ih rest
      exact ⟨c :: writtenFront, writtenBack, rfl, .bare c hfront, hback⟩
    | escaped hmark rest =>
      obtain ⟨writtenFront, writtenBack, rfl, hfront, hback⟩ := ih rest
      exact ⟨'\\' :: c :: writtenFront, writtenBack, rfl, .escaped hmark hfront, hback⟩

/-- Any other character has no backslash before it. -/
theorem cons_inv {c : Char} (other : isShellMark c = false) (h : ShellEscaped (c :: cs) written) :
    ∃ rest, written = c :: rest ∧ ShellEscaped cs rest := by
  cases h with
  | bare c rest => exact ⟨_, rfl, rest⟩
  | escaped hmark rest => cases other.symm.trans hmark

/-- Nothing is put in but backslashes. -/
theorem mem {c : Char} (h : ShellEscaped cs written) (hc : c ∈ written) : c ∈ cs ∨ c = '\\' := by
  induction h with
  | nil => cases hc
  -- a character that stands for itself
  | bare d rest ih =>
    rcases List.mem_cons.mp hc with rfl | hc
    · exact .inl List.mem_cons_self
    · exact (ih hc).imp_left (List.mem_cons_of_mem _)
  -- a character with a backslash before it
  | escaped hmark rest ih =>
    rcases List.mem_cons.mp hc with rfl | hc
    · exact .inr rfl
    rcases List.mem_cons.mp hc with rfl | hc
    · exact .inl List.mem_cons_self
    · exact (ih hc).imp_left (List.mem_cons_of_mem _)

/-- **Leaving out the backslashes gives the text**, if it has none of its own. -/
theorem filter_backslash (h : ShellEscaped cs written) (own : '\\' ∉ cs) :
    written.filter (· ≠ '\\') = cs := by
  induction h with
  | nil => rfl
  | bare c rest ih =>
    obtain ⟨hc, hrest⟩ := List.ne_and_not_mem_of_not_mem_cons own
    rw [List.filter_cons_of_pos (by simpa using hc.symm), ih hrest]
  | escaped hmark rest ih =>
    obtain ⟨hc, hrest⟩ := List.ne_and_not_mem_of_not_mem_cons own
    rw [List.filter_cons_of_neg (by simp), List.filter_cons_of_pos (by simpa using hc.symm), ih hrest]

end ShellEscaped

/-! ### Percent escapes -/

/-- The byte that the digits after a percent sign write, if there are two. -/
def byteAfter? : List Char → Option Nat
  | high :: low :: _ => Percent.byte? high low
  | _ => none

/-- A character that begins no escape is read as it is. -/
theorem decodeAfter_cons {c : Char} {rest : List Char} (h : c = '%' → byteAfter? rest = none)
    (bytes : List Nat) :
    Percent.decodeAfter bytes (c :: rest)
      = Utf8.decode bytes ++ c :: Percent.decodeAfter [] rest := by
  -- a percent sign without two digits after it is kept
  by_cases percent : c = '%'
  · subst percent
    have hbyte := h rfl
    cases rest with
    | nil => rfl
    | cons high rest =>
      cases rest with
      | nil => rfl
      | cons low rest =>
        rw [byteAfter?] at hbyte
        rw [Percent.decodeAfter, hbyte]
  -- any other character is kept as well
  · exact Percent.decodeAfter.eq_2 _ _ _ fun _ _ _ hcons => absurd hcons percent

theorem hexValue?_of_isShellMark {c : Char} (h : isShellMark c = true) : hexValue? c = none := by
  rw [isShellMark, Bool.or_eq_true, Bool.or_eq_true, beq_iff_eq, beq_iff_eq, beq_iff_eq] at h
  rcases h with (rfl | rfl) | rfl
  all_goals decide

theorem isShellMark_of_hexValue? {c : Char} {value : Nat} (h : hexValue? c = some value) :
    isShellMark c = false :=
  eq_false_of_ne_true fun hmark => by cases (hexValue?_of_isShellMark hmark).symm.trans h

namespace ShellEscaped

variable {cs written : List Char}

/-- Backslashes neither make nor break an escape: no mark is a digit, nor is a backslash. -/
theorem byteAfter?_eq (h : ShellEscaped cs written) : byteAfter? written = byteAfter? cs := by
  have backslash : hexValue? '\\' = none := by decide
  cases h with
  | nil => rfl
  -- neither a backslash nor the character after it is a digit
  | escaped hmark rest =>
    have hnone (second : List Char) (c : Char) (hc : hexValue? c = none) :
        byteAfter? (c :: second) = none := by
      cases second with
      | nil => rfl
      | cons d second => rw [byteAfter?, Percent.byte?, hc]; rfl
    rw [hnone _ _ backslash, hnone _ _ (hexValue?_of_isShellMark hmark)]
  -- the first character is the same, and the second decides
  | bare c rest =>
    cases rest with
    | nil => rfl
    | bare d rest => rfl
    | escaped hmark rest =>
      -- an escaped second character is no digit on either side
      have hnone (d : Char) (hd : hexValue? d = none) : Percent.byte? c d = none := by
        rw [Percent.byte?, hd]
        cases hexValue? c with
        | none => rfl
        | some value => rfl
      rw [byteAfter?, byteAfter?, hnone _ backslash, hnone _ (hexValue?_of_isShellMark hmark)]

/-- A character that begins no escape is read by itself, and so is a backslash before it. -/
theorem cons_decodeAfter {c : Char} {rest : List Char} (plain : c = '%' → byteAfter? rest = none)
    (hrest : ∀ written, ShellEscaped rest written →
      ShellEscaped (Percent.decodeAfter [] rest) (Percent.decodeAfter [] written))
    (bytes : List Nat) (h : ShellEscaped (c :: rest) written) :
    ShellEscaped (Percent.decodeAfter bytes (c :: rest)) (Percent.decodeAfter bytes written) := by
  rw [decodeAfter_cons plain]
  cases h with
  -- the character stands for itself on both sides
  | bare c further =>
    rw [decodeAfter_cons fun percent => further.byteAfter?_eq.trans (plain percent)]
    exact (refl _).append (.bare c (hrest _ further))
  -- a character with a backslash is no percent sign, and neither is the backslash
  | escaped hmark further =>
    have noPercent : c ≠ '%' := by
      rintro rfl
      exact absurd hmark (by decide)
    rw [decodeAfter_cons fun percent => absurd percent (by decide),
      decodeAfter_cons fun percent => absurd percent noPercent]
    exact (refl _).append (.escaped hmark (hrest _ further))

/-- **Percent escapes can be undone under the backslashes**, whatever bytes are still to be
decoded. -/
theorem decodeAfter (h : ShellEscaped cs written) (bytes : List Nat) :
    ShellEscaped (Percent.decodeAfter bytes cs) (Percent.decodeAfter bytes written) := by
  induction bytes, cs using Percent.decodeAfter.induct generalizing written with
  | case1 bytes high low rest byte hbyte ih =>
    -- the two digits make a byte
    obtain ⟨highValue, hhigh, hvalue⟩ := Option.bind_eq_some_iff.mp hbyte
    obtain ⟨lowValue, hlow, -⟩ := Option.bind_eq_some_iff.mp hvalue
    -- the three characters of an escape have no backslashes before them
    obtain ⟨_, rfl, hdigits⟩ := cons_inv (by decide) h
    obtain ⟨_, rfl, hdigit⟩ := cons_inv (isShellMark_of_hexValue? hhigh) hdigits
    obtain ⟨_, rfl, hrest⟩ := cons_inv (isShellMark_of_hexValue? hlow) hdigit
    rw [Percent.decodeAfter, hbyte, Percent.decodeAfter, hbyte]
    exact ih hrest
  -- the two characters make no byte
  | case2 bytes high low rest hbyte ih =>
    have plain : byteAfter? (high :: low :: rest) = none := hbyte
    exact cons_decodeAfter (fun _ => plain) (fun _ => ih) bytes h
  -- there are less than two characters, or no percent sign
  | case3 bytes c rest hescape ih =>
    refine cons_decodeAfter (fun percent => ?_) (fun _ => ih) bytes h
    cases rest with
    | nil => rfl
    | cons high rest =>
      cases rest with
      | nil => rfl
      | cons low rest => exact absurd rfl (hescape high low rest percent)
  | case4 bytes =>
    cases h
    exact refl _

/-- **Percent escapes can be undone under the backslashes.** -/
theorem decode (h : ShellEscaped cs written) :
    ShellEscaped (Percent.decode cs) (Percent.decode written) :=
  h.decodeAfter []

end ShellEscaped

end Mockup.Link
