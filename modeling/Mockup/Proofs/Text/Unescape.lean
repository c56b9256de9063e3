import Mockup.Proofs.Text.Attribute
import Mockup.Text.Character

/-!
# References in markup

A reader of markup puts a text in place of each reference: of names, as in `&amp;`, and of numbers,
as in `&#39;` and `&#x27;`. The semicolon at the end may be missing, a name is known as far as its
longest beginning in the table of names, and what no reference begins stays as it is.

* `References` — the tables of names and numbers, of which a few entries are relied upon;
* `References.reference?` — the reference that begins behind an ampersand;
* `References.unescape` — **a text without its references**;
* `References.reader` — whatever else the tables have, **what is written is read back**.
-/

namespace Mockup.Text

/-- The characters that are written with a name, which is all of them but the apostrophe. -/
def namedEntities : List (Char × String) :=
  [('&', "amp;"), ('<', "lt;"), ('>', "gt;"), ('"', "quot;")]

/-- **What references stand for**: names, with their semicolon or without, and numbers. There are
thousands of names, and a number need not stand for the character of that code; four names and
one number are what is relied upon. -/
structure References where
  named : List Char → Option (List Char)
  numbered : Nat → List Char
  named_entity : ∀ entry ∈ namedEntities, named entry.2.toList = some [entry.1]
  numbered_apostrophe : numbered '\''.toNat = ['\'']

namespace References

/-- The tables that know of no other names, and of the characters by their codes. -/
def plain : References where
  named name := (namedEntities.find? (·.2.toList = name)).map ([·.1])
  numbered code := [Char.ofNat code]
  named_entity := by decide
  numbered_apostrophe := by decide

instance : Inhabited References := ⟨plain⟩

/-- Whether a character may be part of a name. -/
def isNamePart (c : Char) : Bool := ['\t', '\n', '\x0c', ' ', '<', '&', '#', ';'].all (c ≠ ·)

/-- The length of a reference: a semicolon after it belongs to it. -/
def ended (cs : List Char) (length : Nat) : Nat :=
  if cs[length]? = some ';' then length + 1 else length

/-- The number that hexadecimal digits write. -/
def ofHex (digits : List Char) : Nat :=
  digits.foldl (fun value digit => 16 * value + (hexValue? digit).getD 0) 0

variable (references : References)

/-- What a name stands for: its own entry, or that of its longest beginning that has one, with the
rest of the name after it. -/
def meaning (name : List Char) : List Char :=
  ((references.named name).or
    (((List.range name.length).reverse.filter (2 ≤ ·)).findSome? fun length =>
      (references.named (name.take length)).map (· ++ name.drop length))).getD ('&' :: name)

/-- **The reference that begins behind an ampersand**: what it stands for, and its length. -/
def reference? (cs : List Char) : Option (List Char × Nat) :=
  let decimal := (cs.drop 1).takeWhile isAsciiDigit
  let hexadecimal := (cs.drop 2).takeWhile fun c => (hexValue? c).isSome
  let name := (cs.takeWhile isNamePart).take 32
  if cs[0]? = some '#' ∧ decimal ≠ [] then
    some (references.numbered (naturalOfDigits decimal), ended cs (1 + decimal.length))
  else if cs[0]? = some '#' ∧ (cs[1]? = some 'x' ∨ cs[1]? = some 'X') ∧ hexadecimal ≠ [] then
    some (references.numbered (ofHex hexadecimal), ended cs (2 + hexadecimal.length))
  else if name ≠ [] then
    let length := ended cs name.length
    some (references.meaning (cs.take length), length)
  else none

/-- **A text without its references.** -/
def unescape : List Char → List Char
  | [] => []
  | c :: rest =>
    if c = '&' then
      match references.reference? rest with
      | some (text, length) => text ++ unescape (rest.drop length)
      | none => c :: unescape rest
    else c :: unescape rest
  termination_by cs => cs.length
  decreasing_by all_goals simp only [List.length_drop, List.length_cons]; omega

theorem unescape_of_reference {cs text : List Char} {length : Nat}
    (h : references.reference? cs = some (text, length)) :
    references.unescape ('&' :: cs) = text ++ references.unescape (cs.drop length) := by
  rw [unescape, if_pos rfl, h]

/-! ### The references that are written -/

/-- A name with a semicolon after it is a reference, whatever comes after the semicolon. -/
theorem reference?_name {word : List Char} (parts : word.all isNamePart = true)
    (nonempty : word ≠ []) (short : word.length ≤ 32) (rest : List Char) :
    references.reference? (word ++ ';' :: rest)
      = some (references.meaning (word ++ [';']), word.length + 1) := by
  rw [List.all_eq_true] at parts
  have hname : ((word ++ ';' :: rest).takeWhile isNamePart).take 32 = word := by
    rw [List.takeWhile_append_of_pos parts, List.takeWhile_cons_of_neg (by decide), List.append_nil,
      List.take_of_length_le short]
  have hnumber : (word ++ ';' :: rest)[0]? ≠ some '#' := by
    obtain ⟨c, more, rfl⟩ := List.exists_cons_of_ne_nil nonempty
    intro h
    obtain rfl : c = '#' := Option.some.inj h
    exact absurd (parts '#' List.mem_cons_self) (by decide)
  have hended : ended (word ++ ';' :: rest) word.length = word.length + 1 := by
    rw [ended, if_pos (by simp)]
  have htake : (word ++ ';' :: rest).take (word.length + 1) = word ++ [';'] := by
    rw [List.take_length_add_append, List.take_succ_cons, List.take_zero]
  rw [reference?]
  simp only [hname, hended, htake]
  rw [if_neg fun h => hnumber h.1, if_neg fun h => hnumber h.1, if_pos nonempty]

/-- A name that is written stands for the character that has it. -/
theorem reference?_named {entry : Char × String} (h : entry ∈ namedEntities) (rest : List Char) :
    references.reference? (entry.2.toList ++ rest) = some ([entry.1], entry.2.toList.length) := by
  have hwords : ∀ entry ∈ namedEntities, ∃ word, entry.2.toList = word ++ [';']
      ∧ word.all isNamePart = true ∧ word ≠ [] ∧ word.length ≤ 32 := by
    simp only [namedEntities, List.forall_mem_cons]
    refine ⟨⟨['a', 'm', 'p'], ?_⟩, ⟨['l', 't'], ?_⟩, ⟨['g', 't'], ?_⟩, ⟨['q', 'u', 'o', 't'], ?_⟩,
      List.forall_mem_nil _⟩
    all_goals decide
  obtain ⟨word, hword, parts, nonempty, short⟩ := hwords entry h
  have hmeaning : references.meaning (word ++ [';']) = [entry.1] := by
    rw [← hword, meaning, references.named_entity entry h]
    rfl
  rw [hword, List.append_assoc, List.singleton_append, references.reference?_name parts nonempty short,
    hmeaning, List.length_append]
  rfl

/-- The apostrophe is written with its number, in hexadecimal digits. -/
theorem reference?_apostrophe (rest : List Char) :
    references.reference? ("#x27;".toList ++ rest) = some (['\''], 5) := by
  have hdecimal : (("#x27;".toList ++ rest).drop 1).takeWhile isAsciiDigit = [] := rfl
  have hhexadecimal : (("#x27;".toList ++ rest).drop 2).takeWhile (fun c => (hexValue? c).isSome)
      = ['2', '7'] := rfl
  have hended : ended ("#x27;".toList ++ rest) (2 + ['2', '7'].length) = 5 := rfl
  rw [reference?]
  simp only [hdecimal, hhexadecimal, hended]
  rw [if_neg fun h => h.2 rfl, if_pos ⟨rfl, .inl rfl, List.cons_ne_nil _ _⟩]
  exact congrArg (fun text => some (text, 5)) references.numbered_apostrophe

/-- **A reader of markup**: what is written is read back by it. -/
def reader : EntityReader where
  read := references.unescape
  read_nil := by rw [unescape]
  read_entity := by
    have hnamed : ∀ entry ∈ namedEntities, ∀ rest,
        references.unescape ('&' :: (entry.2.toList ++ rest)) = entry.1 :: references.unescape rest := by
      intro entry hentry rest
      rw [references.unescape_of_reference (references.reference?_named hentry rest), List.drop_left]
      rfl
    have happostrophe : ∀ rest,
        references.unescape ('&' :: ("#x27;".toList ++ rest)) = '\'' :: references.unescape rest := by
      intro rest
      rw [references.unescape_of_reference (references.reference?_apostrophe rest)]
      rfl
    simp only [attributeEntities, List.forall_mem_cons]
    exact ⟨hnamed ('&', "amp;") (by decide), hnamed ('<', "lt;") (by decide),
      hnamed ('>', "gt;") (by decide), hnamed ('"', "quot;") (by decide), happostrophe, nofun⟩
  read_plain c amp rest := by rw [unescape, if_neg amp]

/-- **Round trip.** What is written for a text has the text when its references are read. -/
theorem unescape_escapeAttribute (text : String) :
    references.unescape (escapeAttribute text).toList = text.toList :=
  references.reader.read_escapeAttribute text

end References

end Mockup.Text
