import Mockup.Proofs.Style.Family

/-!
# A declaration block, read back

Whoever reads a stylesheet cuts a block at its semicolons and each piece at its colon. Whether the
declarations come back that were written depends on the values: one with a semicolon in it ends
early, and what is behind the semicolon is read as a declaration of its own.

* `Declarations.read?` — reading, strict about what stands behind the last semicolon;
* `Declarations.read?_text` — **a block is read back when its values have no semicolon**;
* `Declarations.semicolon_notMem_of_read?` — and nothing that is read has one;
* `Harmless` — a text that can end neither a declaration nor a block nor a line;
* `Style.Sealed`, `Style.sealed_iff` — **the block of a node is read back, and has neither braces
  nor newlines, exactly when its family is harmless.**
-/

namespace Mockup

/-! ### Reading a block -/

namespace Declarations

/-- Cuts a declaration at the first colon with a blank behind it. -/
def cut? : List Char → Option (List Char × List Char)
  | [] => none
  | c :: rest =>
    if c = ':' ∧ rest.head? = some ' ' then some ([], rest.tail)
    else (cut? rest).map fun cut => (c :: cut.1, cut.2)

/-- Reading one declaration. The blanks in front of the property are skipped. -/
def readOne? (piece : List Char) : Option (String × String) :=
  (cut? (piece.dropWhile (· == ' '))).map fun cut => (String.ofList cut.1, String.ofList cut.2)

/-- Reading the pieces between semicolons. What is behind the last semicolon has to be empty. -/
def readPieces? : List (List Char) → Option (List (String × String))
  | [] => none
  | [last] => if last = [] then some [] else none
  | piece :: next :: rest => do return (← readOne? piece) :: (← readPieces? (next :: rest))

/-- **Reading a block.** -/
def read? (text : String) : Option (List (String × String)) :=
  readPieces? (text.toList.splitOn ';')

/-! ### What is written is read -/

theorem cut?_append {property : List Char} (h : ':' ∉ property) (value : List Char) :
    cut? (property ++ ':' :: ' ' :: value) = some (property, value) := by
  induction property with
  | nil => rfl
  | cons c rest ih =>
    rw [List.mem_cons, not_or] at h
    rw [List.cons_append, cut?, if_neg fun hc => h.1 hc.1.symm, ih h.2]
    rfl

/-- The characters of a declaration before its semicolon. -/
def piece (entry : String × String) : List Char := entry.1.toList ++ ':' :: ' ' :: entry.2.toList

/-- The pieces of a block: those of its declarations, with a blank before every one but the first. -/
def pieces : List (String × String) → List (List Char)
  | [] => []
  | entry :: rest => piece entry :: rest.map fun entry => ' ' :: piece entry

theorem toList_entryText (entry : String × String) :
    (entryText entry).toList = piece entry ++ [';'] := by
  have hcolon : ": ".toList = [':', ' '] := by rfl
  have hsemicolon : ";".toList = [';'] := by rfl
  rw [entryText, piece, String.toList_append, String.toList_append, String.toList_append, hcolon,
    hsemicolon]
  simp only [List.append_assoc, List.cons_append, List.nil_append]

/-- **The text of a block**: its pieces, each with a semicolon behind it. -/
theorem toList_text (block : Declarations) :
    block.text.toList = (pieces block.toList).flatMap (· ++ [';']) := by
  obtain ⟨entries⟩ := block
  change (" ".intercalate (entries.map entryText)).toList = _
  -- a block without entries has no text
  cases entries with
  | nil => rfl
  | cons entry rest =>
    have hblank : " ".toList = [' '] := by rfl
    rw [pieces, List.flatMap_cons]
    -- the first piece has no blank before it, so the induction is on what comes after it
    induction rest generalizing entry with
    | nil =>
      rw [List.map_cons, List.map_nil, String.intercalate_singleton, toList_entryText]
      simp
    | cons next rest ih =>
      have ih := ih next
      rw [List.map_cons] at ih
      rw [List.map_cons, List.map_cons, String.intercalate_cons_cons, String.toList_append,
        String.toList_append, ih, toList_entryText, hblank]
      simp

/-- Pieces without semicolons are what is between the semicolons behind them. -/
theorem splitOn_flatMap {pieces : List (List Char)} (h : ∀ piece ∈ pieces, ';' ∉ piece) :
    (pieces.flatMap (· ++ [';'])).splitOn ';' = pieces ++ [[]] := by
  induction pieces with
  | nil => rfl
  | cons piece rest ih =>
    obtain ⟨hpiece, hrest⟩ := List.forall_mem_cons.mp h
    rw [List.flatMap_cons, List.append_assoc, List.singleton_append,
      List.splitOn_append_cons_self_of_not_mem hpiece, ih hrest, List.cons_append]

/-- The characters of properties. -/
def isPropertyChar (c : Char) : Bool := c.isLower || c = '-'

theorem readOne?_piece {entry : String × String}
    (h : ∀ c ∈ entry.1.toList, isPropertyChar c = true) :
    readOne? (piece entry) = some entry ∧ readOne? (' ' :: piece entry) = some entry := by
  obtain ⟨property, value⟩ := entry
  dsimp only at h
  -- no colon is in the name, so the piece is cut behind it
  have uncut : ':' ∉ property.toList := fun hmem => absurd (h _ hmem) (by decide)
  -- no blank is skipped within the piece
  have kept : (piece (property, value)).dropWhile (· == ' ') = piece (property, value) := by
    rw [piece]
    cases hproperty : property.toList with
    | nil => rfl
    | cons c rest =>
      have hc : c ≠ ' ' := by
        rintro rfl
        exact absurd (h ' ' (hproperty ▸ List.mem_cons_self)) (by decide)
      rw [List.cons_append, List.dropWhile_cons_of_neg (by simp [hc])]
  -- what is cut off is the name, and what is left the value
  have hcut : readOne? (piece (property, value)) = some (property, value) := by
    rw [readOne?, kept, piece, cut?_append uncut]
    simp
  -- one blank in front is skipped
  refine ⟨hcut, ?_⟩
  rw [readOne?, List.dropWhile_cons_of_pos (by rfl)]
  exact hcut

theorem readPieces?_cons {rest : List (List Char)} (h : rest ≠ []) (piece : List Char) :
    readPieces? (piece :: rest) = do return (← readOne? piece) :: (← readPieces? rest) := by
  cases rest with
  | nil => exact absurd rfl h
  | cons next others => rfl

theorem readPieces?_map {entries : List (String × String)} {write : String × String → List Char}
    (h : ∀ entry ∈ entries, readOne? (write entry) = some entry) :
    readPieces? (entries.map write ++ [[]]) = some entries := by
  induction entries with
  | nil => rfl
  | cons entry rest ih =>
    obtain ⟨hentry, hrest⟩ := List.forall_mem_cons.mp h
    rw [List.map_cons, List.cons_append, readPieces?_cons (by simp), hentry, ih hrest]
    rfl

/-- **A block is read back** when its values have no semicolon. -/
theorem read?_text {block : Declarations}
    (hname : ∀ entry ∈ block.toList, ∀ c ∈ entry.1.toList, isPropertyChar c = true)
    (hvalue : ∀ entry ∈ block.toList, ';' ∉ entry.2.toList) :
    read? block.text = some block.toList := by
  -- no semicolon is in a name or in a value
  have hpiece : ∀ entry ∈ block.toList, ';' ∉ piece entry := by
    intro entry hentry hmem
    rcases List.mem_append.mp hmem with hmem | hmem
    · exact absurd (hname entry hentry _ hmem) (by decide)
    · refine hvalue entry hentry ?_
      simpa using hmem
  rw [read?, toList_text]
  obtain ⟨entries⟩ := block
  dsimp only at hname hpiece ⊢
  cases entries with
  | nil => rfl
  | cons entry rest =>
    obtain ⟨hfirst, hrest⟩ := List.forall_mem_cons.mp hpiece
    obtain ⟨hfirstName, hrestName⟩ := List.forall_mem_cons.mp hname
    -- so the text is cut where one entry ends and the next one begins
    have uncut : ∀ piece ∈ pieces (entry :: rest), ';' ∉ piece := by
      refine List.forall_mem_cons.mpr ⟨hfirst, fun piece hpiece => ?_⟩
      obtain ⟨later, hlater, rfl⟩ := List.mem_map.mp hpiece
      simpa using hrest later hlater
    rw [splitOn_flatMap uncut, pieces, List.cons_append, readPieces?_cons (by simp),
      (readOne?_piece hfirstName).1,
      readPieces?_map fun later hlater => (readOne?_piece (hrestName later hlater)).2]
    rfl

/-! ### What is read has no semicolon -/

theorem notMem_of_mem_splitOn {α : Type} [BEq α] [LawfulBEq α] {a : α} {xs piece : List α}
    (h : piece ∈ xs.splitOn a) : a ∉ piece := by
  induction xs generalizing piece with
  | nil =>
    obtain rfl := List.mem_singleton.mp h
    exact List.not_mem_nil
  | cons x rest ih =>
    rw [List.splitOn_cons_eq_if_modifyHead] at h
    -- the element ends a piece, or belongs to the first one
    split at h
    · rcases List.mem_cons.mp h with rfl | h
      · exact List.not_mem_nil
      · exact ih h
    · -- the element goes to the front of the first piece
      rename_i other
      obtain ⟨first, others, hsplit⟩ := List.exists_cons_of_ne_nil (List.splitOn_ne_nil a rest)
      rw [hsplit] at h ih
      rw [List.modifyHead_cons] at h
      rcases List.mem_cons.mp h with rfl | h
      · rw [List.mem_cons, not_or]
        exact ⟨fun same => other (by simp [same]), ih List.mem_cons_self⟩
      · exact ih (List.mem_cons_of_mem _ h)

theorem subset_of_cut? {cs : List Char} {cut : List Char × List Char} (h : cut? cs = some cut) :
    ∀ c ∈ cut.2, c ∈ cs := by
  induction cs generalizing cut with
  | nil => cases h
  | cons first rest ih =>
    rw [cut?] at h
    split at h
    · obtain rfl := Option.some.inj h
      exact fun c hc => List.mem_cons_of_mem _ (List.mem_of_mem_tail hc)
    · obtain ⟨later, hlater, rfl⟩ := Option.map_eq_some_iff.mp h
      exact fun c hc => List.mem_cons_of_mem _ (ih hlater c hc)

theorem subset_of_readOne? {piece : List Char} {entry : String × String}
    (h : readOne? piece = some entry) : ∀ c ∈ entry.2.toList, c ∈ piece := by
  obtain ⟨cut, hcut, rfl⟩ := Option.map_eq_some_iff.mp h
  intro c hc
  rw [String.toList_ofList] at hc
  exact (List.dropWhile_sublist _).subset (subset_of_cut? hcut c hc)

theorem mem_of_readPieces? {pieces : List (List Char)} {entries : List (String × String)}
    (h : readPieces? pieces = some entries) :
    ∀ entry ∈ entries, ∃ piece ∈ pieces, readOne? piece = some entry := by
  induction pieces generalizing entries with
  | nil => cases h
  | cons piece rest ih =>
    -- the last piece is followed by no semicolon
    by_cases last : rest = []
    · -- behind the last semicolon nothing is read
      subst last
      rw [readPieces?] at h
      split at h
      · obtain rfl := Option.some.inj h
        exact List.forall_mem_nil _
      · cases h
    -- any other piece is an entry
    · rw [readPieces?_cons last] at h
      obtain ⟨entry, hentry, h⟩ := Option.bind_eq_some_iff.mp h
      obtain ⟨later, hlater, h⟩ := Option.bind_eq_some_iff.mp h
      obtain rfl := Option.some.inj h
      refine List.forall_mem_cons.mpr ⟨⟨piece, List.mem_cons_self, hentry⟩, fun other hother => ?_⟩
      obtain ⟨found, hfound, hread⟩ := ih hlater other hother
      exact ⟨found, List.mem_cons_of_mem _ hfound, hread⟩

/-- **No value that is read has a semicolon.** -/
theorem semicolon_notMem_of_read? {text : String} {entries : List (String × String)}
    (h : read? text = some entries) : ∀ entry ∈ entries, ';' ∉ entry.2.toList := by
  intro entry hentry hmem
  obtain ⟨piece, hpiece, hread⟩ := mem_of_readPieces? h entry hentry
  exact notMem_of_mem_splitOn hpiece (subset_of_readOne? hread _ hmem)

/-- The text of a block has the characters of its values. -/
theorem subset_text {block : Declarations} {entry : String × String} (h : entry ∈ block.toList) :
    ∀ c ∈ entry.2.toList, c ∈ block.text.toList := by
  intro c hc
  -- the character is in the piece of the entry
  have hpiece : c ∈ piece entry :=
    List.mem_append_right _ (List.mem_cons_of_mem _ (List.mem_cons_of_mem _ hc))
  rw [toList_text]
  obtain ⟨entries⟩ := block
  cases entries with
  | nil => exact absurd h List.not_mem_nil
  -- the first piece stands without a blank, and the others with one
  | cons first rest =>
    rcases List.mem_cons.mp h with rfl | h
    · exact List.mem_flatMap.mpr ⟨_, List.mem_cons_self, List.mem_append_left _ hpiece⟩
    · exact List.mem_flatMap.mpr ⟨_, List.mem_cons_of_mem _ (List.mem_map_of_mem h),
        List.mem_append_left _ (List.mem_cons_of_mem _ hpiece)⟩

/-- And it has no others, but for the punctuation of declarations. -/
theorem mem_text {block : Declarations} {c : Char} (h : c ∈ block.text.toList) :
    c ∈ [';', ' ', ':'] ∨ ∃ entry ∈ block.toList, c ∈ entry.1.toList ∨ c ∈ entry.2.toList := by
  -- within a piece, a character is punctuation or of the entry
  have hpiece : ∀ entry : String × String, c ∈ ' ' :: piece entry →
      c ∈ [';', ' ', ':'] ∨ c ∈ entry.1.toList ∨ c ∈ entry.2.toList := by
    intro entry hc
    simp only [piece, List.mem_cons, List.mem_append] at hc
    rcases hc with rfl | hc | rfl | rfl | hc
    · exact .inl (by simp)
    · exact .inr (.inl hc)
    · exact .inl (by simp)
    · exact .inl (by simp)
    · exact .inr (.inr hc)
  rw [toList_text] at h
  obtain ⟨entries⟩ := block
  dsimp only at h ⊢
  obtain ⟨text, htext, h⟩ := List.mem_flatMap.mp h
  -- it is in a piece, or it ends one
  rcases List.mem_append.mp h with h | h
  · cases entries with
    | nil => exact absurd htext List.not_mem_nil
    | cons first rest =>
      rcases List.mem_cons.mp htext with rfl | htext
      · exact (hpiece first (List.mem_cons_of_mem _ h)).imp_right fun hc =>
          ⟨first, List.mem_cons_self, hc⟩
      · obtain ⟨later, hlater, rfl⟩ := List.mem_map.mp htext
        exact (hpiece later h).imp_right fun hc => ⟨later, List.mem_cons_of_mem _ hlater, hc⟩
  · obtain rfl := List.mem_singleton.mp h
    exact .inl List.mem_cons_self

end Declarations

/-! ### The block of a node -/

/-- The characters that end neither a declaration nor a block nor a line. -/
def isHarmless (c : Char) : Bool := c ∉ [';', '\x7b', '\x7d', '\n']

/-- **A harmless text** has no other characters. -/
def Harmless (text : String) : Prop := Over (fun c => isHarmless c = true) text

theorem isHarmless_iff {c : Char} :
    isHarmless c = true ↔ c ≠ ';' ∧ c ≠ '\x7b' ∧ c ≠ '\x7d' ∧ c ≠ '\n' := by
  simp [isHarmless]

/-- Fixed words and figures are harmless. -/
theorem harmless_alphabet : Style.Alphabet fun c => isHarmless c = true := by
  have hnumeral : ∀ c, isNumeralChar c = true → isHarmless c = true := by
    intro c hc
    refine isHarmless_iff.mpr ⟨?_, ?_, ?_, ?_⟩ <;> rintro rfl <;> cases hc
  refine ⟨fun c hc => ?_, fun x c hc => hnumeral c ?_⟩
  · refine isHarmless_iff.mpr ⟨?_, ?_, ?_, ?_⟩ <;> rintro rfl <;> cases hc
  · -- a figure is one of two numerals
    unfold Style.figure at hc
    dsimp only at hc
    split at hc
    · exact Binary64.isNumeralChar_wholeNumeral _ c hc
    · exact Binary64.isNumeralChar_numeral _ c hc

/-- **A block that is sealed**: its text has neither braces nor newlines, and cut at its semicolons it
comes to the declarations of the block. -/
structure Declarations.Sealed (block : Declarations) : Prop where
  plain : ∀ c ∈ block.text.toList, c ≠ '\x7b' ∧ c ≠ '\x7d' ∧ c ≠ '\n'
  readBack : Declarations.read? block.text = some block.toList

namespace Style

variable {node : Node} {parent : Option Node} {isRoot : Bool} {block : Declarations}

theorem isPropertyChar_of_mem_name (h : declarations node parent isRoot = .ok block) :
    ∀ entry ∈ block.toList, ∀ c ∈ entry.1.toList, Declarations.isPropertyChar c = true := by
  have hall : ∀ isRoot, ∀ name ∈ properties isRoot,
      name.toList.all Declarations.isPropertyChar = true := by decide +kernel
  intro entry hentry
  exact List.all_eq_true.mp (hall isRoot _ (name_mem_properties h entry hentry))

/-- The family is written into the block of the node. -/
theorem family_mem (h : declarations node parent isRoot = .ok block) {family : String}
    (hfamily : fontFamily? node = some family) :
    ("font-family", familyValue family) ∈ block.toList := by
  rw [← Declarations.value?_eq_some (nodup_properties h), value?_fontFamily h, hfamily]
  rfl

theorem harmless_value (h : declarations node parent isRoot = .ok block)
    (harmless : ∀ family, fontFamily? node = some family → Harmless family) :
    ∀ entry ∈ block.toList, Harmless entry.2 := by
  rintro ⟨property, value⟩ hentry
  by_cases named : property = "font-family"
  · subst named
    rw [← Declarations.value?_eq_some (nodup_properties h), value?_fontFamily h] at hentry
    obtain ⟨family, hfamily, rfl⟩ := Option.map_eq_some_iff.mp hentry
    have hopen : Harmless "'" := List.all_eq_true.mp (by decide +kernel)
    have hclose : Harmless "', sans-serif" := List.all_eq_true.mp (by decide +kernel)
    exact (hopen.append (harmless family hfamily)).append hclose
  · exact value_over harmless_alphabet h _ hentry named

/-- **The block of a node is sealed exactly when its family is harmless.** A node without a family has
a sealed block, whatever else the document says of it. -/
theorem sealed_iff (h : declarations node parent isRoot = .ok block) :
    block.Sealed ↔ ∀ family, fontFamily? node = some family → Harmless family := by
  constructor
  · intro sealed family hfamily c hc
    -- the family is in the block, and its characters are in the text
    have hmem := family_mem h hfamily
    have hvalue : c ∈ (familyValue family).toList := by
      rw [familyValue, String.toList_append, String.toList_append]
      exact List.mem_append_left _ (List.mem_append_right _ hc)
    obtain ⟨unopened, unclosed, unbroken⟩ :=
      sealed.plain c (Declarations.subset_text hmem c hvalue)
    -- a semicolon in it would cut the block elsewhere
    have unended : c ≠ ';' := by
      rintro rfl
      exact Declarations.semicolon_notMem_of_read? sealed.readBack _ hmem hvalue
    exact isHarmless_iff.mpr ⟨unended, unopened, unclosed, unbroken⟩
  · intro harmless
    have hname := isPropertyChar_of_mem_name h
    have hvalue := harmless_value h harmless
    -- what is harmful is neither punctuation nor in a property nor in a value
    have apart : ∀ c ∈ ['\x7b', '\x7d', '\n'], c ∉ [';', ' ', ':']
        ∧ Declarations.isPropertyChar c = false ∧ isHarmless c = false := by
      simp only [List.forall_mem_cons]
      exact ⟨⟨by simp, rfl, rfl⟩, ⟨by simp, rfl, rfl⟩, ⟨by simp, rfl, rfl⟩, List.forall_mem_nil _⟩
    refine ⟨fun c hc => ?_, Declarations.read?_text hname fun entry hentry hmem => ?_⟩
    -- none of the three is in the text
    · have absent : c ∉ ['\x7b', '\x7d', '\n'] := by
        intro harmful
        obtain ⟨unpunctuated, unnamed, unvalued⟩ := apart c harmful
        rcases Declarations.mem_text hc with hc | ⟨entry, hentry, hc | hc⟩
        · exact unpunctuated hc
        · exact absurd (hname entry hentry c hc) (by simp [unnamed])
        · exact absurd (hvalue entry hentry c hc) (by simp [unvalued])
      simpa using absent
    -- and no value has a semicolon
    · exact absurd (hvalue entry hentry _ hmem) (by decide)

end Style

end Mockup
