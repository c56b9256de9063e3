import Mockup.Text.Markup

/-!
# The text of a label, written and read back

`Text.escape` makes four replacements, one after the other. What comes out is what a single pass
over the text gives, in which every character has a code of its own (`toList_escape`): the
ampersands that the later replacements put in are never looked at by the first one, and no code
holds a character that a later replacement looks for.

* `labelCode` — the code of a character;
* `decode` — reading codes back, from left to right;
* `decode_flatMap_labelCode` — what is read back is the text that was written;
* `MarksInCodes` — the texts in which marks stand in codes only;
* `escape_prefixCode` — **what is written is a prefix code**, and the texts with marks in codes only
  are those that are written.
-/

namespace Mockup.Text

/-- **The code of a character** in the text of a label. -/
def labelCode (c : Char) : List Char :=
  if c = '&' then ['&', 'a', 'm', 'p', ';']
  else if c = '<' then ['&', 'l', 't', ';']
  else if c = '>' then ['&', 'g', 't', ';']
  else if c = '\n' then ['<', 'b', 'r', '/', '>']
  else [c]

theorem labelCode_of_plain {c : Char} (amp : c ≠ '&') (lt : c ≠ '<') (gt : c ≠ '>')
    (newline : c ≠ '\n') : labelCode c = [c] := by
  rw [labelCode, if_neg amp, if_neg lt, if_neg gt, if_neg newline]

/-- The replacements, made one after the other, act on each character by itself. -/
theorem replaceEach_append (table : List (Char × String)) (a b : List Char) :
    replaceEach table (a ++ b) = replaceEach table a ++ replaceEach table b := by
  induction table generalizing a b with
  | nil => rfl
  | cons entry rest ih =>
    -- one replacement acts on each part; the others act on what it has made of them
    change replaceEach rest (replaceChar entry.1 entry.2 (a ++ b)) = _
    rw [replaceChar, List.flatMap_append]
    exact ih _ _

theorem replaceEach_nil (table : List (Char × String)) : replaceEach table [] = [] := by
  induction table with
  | nil => rfl
  | cons entry rest ih => exact ih

/-- A replacement leaves any other character as it is. -/
theorem replaceChar_singleton_of_ne {c d : Char} (h : d ≠ c) (replacement : String) :
    replaceChar c replacement [d] = [d] := by
  rw [replaceChar, List.flatMap_cons, if_neg h]
  rfl

/-- What no replacement is about stays as it is. -/
theorem replaceEach_singleton_of_ne {table : List (Char × String)} {c : Char}
    (h : ∀ entry ∈ table, c ≠ entry.1) : replaceEach table [c] = [c] := by
  induction table with
  | nil => rfl
  | cons entry rest ih =>
    obtain ⟨hentry, hrest⟩ := List.forall_mem_cons.mp h
    change replaceEach rest (replaceChar entry.1 entry.2 [c]) = [c]
    rw [replaceChar_singleton_of_ne hentry, ih hrest]

/-- **One pass.** Replacements made one after the other write in turn what each makes of a
character by itself. -/
theorem replaceEach_eq_flatMap (table : List (Char × String)) (cs : List Char) :
    replaceEach table cs = cs.flatMap fun c => replaceEach table [c] := by
  induction cs with
  | nil => exact replaceEach_nil table
  | cons c rest ih =>
    rw [← List.singleton_append, replaceEach_append, ih, List.singleton_append, List.flatMap_cons]

/-- On one character the four replacements give its code. -/
theorem replaceEach_labelEntities_singleton (c : Char) :
    replaceEach labelEntities [c] = labelCode c := by
  -- `&` is replaced first, so the entities that the other replacements write stay as they are
  by_cases amp : c = '&'
  · subst amp; decide
  by_cases lt : c = '<'
  · subst lt; decide
  by_cases gt : c = '>'
  · subst gt; decide
  by_cases newline : c = '\n'
  · subst newline; decide
  -- a character that no replacement is about
  rw [labelCode_of_plain amp lt gt newline]
  refine replaceEach_singleton_of_ne ?_
  simp only [labelEntities, List.forall_mem_cons]
  exact ⟨amp, lt, gt, newline, nofun⟩

/-- The four replacements write the code of each character in turn. -/
theorem replaceEach_labelEntities (cs : List Char) :
    replaceEach labelEntities cs = cs.flatMap labelCode := by
  rw [replaceEach_eq_flatMap, funext replaceEach_labelEntities_singleton]

theorem toList_escape (text : String) : (escape text).toList = text.toList.flatMap labelCode := by
  rw [escape, String.toList_ofList, replaceEach_labelEntities]

/-! ### Reading back -/

/-- **Reading codes back**, from left to right; what begins no code stands for itself. -/
def decode : List Char → List Char
  | '&' :: 'a' :: 'm' :: 'p' :: ';' :: rest => '&' :: decode rest
  | '&' :: 'l' :: 't' :: ';' :: rest => '<' :: decode rest
  | '&' :: 'g' :: 't' :: ';' :: rest => '>' :: decode rest
  | '<' :: 'b' :: 'r' :: '/' :: '>' :: rest => '\n' :: decode rest
  | c :: rest => c :: decode rest
  | [] => []

theorem decode_cons_of_plain {c : Char} (amp : c ≠ '&') (lt : c ≠ '<') (rest : List Char) :
    decode (c :: rest) = c :: decode rest := by
  rw [decode]
  -- the other patterns begin with `&` or `<`
  all_goals
    intros
    simp_all

/-- The code of a character is read back as the character, whatever follows. -/
theorem decode_labelCode_append (c : Char) (rest : List Char) :
    decode (labelCode c ++ rest) = c :: decode rest := by
  -- the four codes
  by_cases amp : c = '&'
  · subst amp; rfl
  by_cases lt : c = '<'
  · subst lt; rfl
  by_cases gt : c = '>'
  · subst gt; rfl
  by_cases newline : c = '\n'
  · subst newline; rfl
  -- any other character, which begins no code
  rw [labelCode_of_plain amp lt gt newline]
  exact decode_cons_of_plain amp lt rest

/-- **Round trip.** Reading back what is written for a text gives the text. -/
theorem decode_flatMap_labelCode (cs : List Char) : decode (cs.flatMap labelCode) = cs := by
  induction cs with
  | nil => rfl
  | cons c rest ih => rw [List.flatMap_cons, decode_labelCode_append, ih]

/-! ### A prefix code -/

/-- **No code begins another**: what is read of it would be another character. -/
theorem eq_of_labelCode_prefix {c d : Char} (h : labelCode c <+: labelCode d) : c = d := by
  obtain ⟨rest, hrest⟩ := h
  have hread : decode (labelCode d) = [d] := by
    rw [← List.append_nil (labelCode d), decode_labelCode_append]
    rfl
  rw [← hrest, decode_labelCode_append] at hread
  exact (List.cons.inj hread).1

/-- **Marks belong to codes.** No line ends in a text that is written, every ampersand begins one of
the three entities, and every bracket is one of a break. -/
structure MarksInCodes (written : List Char) : Prop where
  newline : '\n' ∉ written
  ampersand : ∀ before after, written = before ++ '&' :: after →
    ∃ entity ∈ ["amp;", "lt;", "gt;"], entity.toList <+: after
  less : ∀ before after, written = before ++ '<' :: after → "br/>".toList <+: after
  greater : ∀ before after, written = before ++ '>' :: after → "<br/".toList <:+ before

/-- A character of a text made of two stands in one of them. -/
theorem append_eq_append_cons {a b before after : List Char} {c : Char}
    (h : a ++ b = before ++ c :: after) :
    (∃ between, a = before ++ c :: between ∧ after = between ++ b)
      ∨ ∃ between, before = a ++ between ∧ b = between ++ c :: after := by
  rcases List.append_eq_append_iff.mp h with ⟨between, hbefore, hb⟩ | ⟨tail, ha, htail⟩
  · exact .inr ⟨between, hbefore, hb⟩
  · cases tail with
    | nil => exact .inr ⟨[], by rw [ha, List.append_nil, List.append_nil], htail.symm⟩
    | cons d tail =>
      obtain ⟨rfl, hafter⟩ := List.cons.inj htail
      exact .inl ⟨tail, ha, hafter⟩

/-- What holds around every place of a character is decided place by place. -/
theorem forall_around_iff {P : List Char → List Char → Prop} {c : Char} {written : List Char} :
    (∀ before after, written = before ++ c :: after → P before after)
      ↔ ∀ place < written.length, written[place]? = some c →
        P (written.take place) (written.drop (place + 1)) := by
  constructor
  · intro h place hplace hc
    refine h _ _ ?_
    obtain ⟨_, hc⟩ := List.getElem?_eq_some_iff.mp hc
    rw [← hc, List.getElem_cons_drop, List.take_append_drop]
  · rintro h before after rfl
    simpa using h before.length

namespace MarksInCodes

/-- A text without marks. -/
theorem of_notMem {written : List Char} (h : ∀ mark ∈ ['\n', '&', '<', '>'], mark ∉ written) :
    MarksInCodes written where
  newline := h '\n' (by decide)
  ampersand before after hwritten := absurd (by simp [hwritten]) (h '&' (by decide))
  less before after hwritten := absurd (by simp [hwritten]) (h '<' (by decide))
  greater before after hwritten := absurd (by simp [hwritten]) (h '>' (by decide))

theorem append {a b : List Char} (ha : MarksInCodes a) (hb : MarksInCodes b) :
    MarksInCodes (a ++ b) where
  -- a mark of the sum is one of either part
  newline h := (List.mem_append.mp h).elim ha.newline hb.newline
  -- the code that begins in the first part ends there
  ampersand before after h := by
    rcases append_eq_append_cons h with ⟨between, h, hafter⟩ | ⟨between, -, h⟩
    · obtain ⟨entity, hentity, hprefix⟩ := ha.ampersand before between h
      exact ⟨entity, hentity, hafter ▸ hprefix.trans (List.prefix_append _ _)⟩
    · exact hb.ampersand between after h
  less before after h := by
    rcases append_eq_append_cons h with ⟨between, h, hafter⟩ | ⟨between, -, h⟩
    · exact hafter ▸ (ha.less before between h).trans (List.prefix_append _ _)
    · exact hb.less between after h
  -- a bracket that ends in the second part begins there
  greater before after h := by
    rcases append_eq_append_cons h with ⟨between, h, -⟩ | ⟨between, hbefore, h⟩
    · exact ha.greater before between h
    · exact hbefore ▸ (hb.greater between after h).trans (List.suffix_append _ _)

/-- A character that is no mark is its own code. -/
theorem labelCode_of_unmarked {c : Char} (h : c ∉ ['\n', '&', '<', '>']) : labelCode c = [c] := by
  simp only [List.mem_cons, List.not_mem_nil, or_false, not_or] at h
  obtain ⟨newline, amp, lt, gt⟩ := h
  exact labelCode_of_plain amp lt gt newline

/-- A code has no other marks than its own. -/
theorem of_labelCode (c : Char) : MarksInCodes (labelCode c) := by
  have hfixed : ∀ mark ∈ ['\n', '&', '<', '>'], MarksInCodes (labelCode mark) := by
    simp only [List.forall_mem_cons]
    refine ⟨?_, ?_, ?_, ?_, List.forall_mem_nil _⟩
    all_goals
      exact ⟨by decide, forall_around_iff.mpr (by decide), forall_around_iff.mpr (by decide),
        forall_around_iff.mpr (by decide)⟩
  by_cases marked : c ∈ ['\n', '&', '<', '>']
  · exact hfixed c marked
  · rw [labelCode_of_unmarked marked]
    exact of_notMem fun mark hmark hc => marked (List.mem_singleton.mp hc ▸ hmark)

/-- **Marks belong to codes** in whatever is written. -/
theorem of_flatMap_labelCode (cs : List Char) : MarksInCodes (cs.flatMap labelCode) := by
  induction cs with
  | nil => exact of_notMem fun _ _ => List.not_mem_nil
  | cons c rest ih => exact (of_labelCode c).append ih

/-- No code has a part in the beginning of a break that comes after it. -/
theorem break_suffix_of_labelCode_append {c : Char} {before : List Char}
    (h : "<br/".toList <:+ labelCode c ++ before) : "<br/".toList <:+ before := by
  have hfixed : ∀ mark ∈ ['\n', '&', '<', '>'], "<br/".toList <:+ labelCode mark ++ before →
      "<br/".toList <:+ before := by
    -- the four codes, one by one
    simp only [List.forall_mem_cons]
    refine ⟨?_, ?_, ?_, ?_, List.forall_mem_nil _⟩
    all_goals simp [labelCode, List.suffix_cons_iff]
  by_cases marked : c ∈ ['\n', '&', '<', '>']
  · exact hfixed c marked h
  -- a character for itself is no first letter of a break
  · have lt : '<' ≠ c := fun same => marked (same ▸ by decide)
    rw [labelCode_of_unmarked marked] at h
    simpa [List.suffix_cons_iff, lt] using h

/-- What comes after a code has its marks in codes of its own. -/
theorem of_labelCode_append {c : Char} {rest : List Char}
    (h : MarksInCodes (labelCode c ++ rest)) : MarksInCodes rest where
  newline hmem := h.newline (List.mem_append_right _ hmem)
  ampersand before after hrest :=
    h.ampersand (labelCode c ++ before) after (by rw [hrest, List.append_assoc])
  less before after hrest :=
    h.less (labelCode c ++ before) after (by rw [hrest, List.append_assoc])
  greater before after hrest := break_suffix_of_labelCode_append <|
    h.greater (labelCode c ++ before) after (by rw [hrest, List.append_assoc])

/-- **A text in which marks belong to codes is written for what is read of it.** -/
theorem flatMap_decode {written : List Char} (h : MarksInCodes written) :
    (decode written).flatMap labelCode = written := by
  fun_induction decode written with
  -- the four codes come back as they were
  | case1 rest ih => exact congrArg _ (ih (of_labelCode_append (c := '&') h))
  | case2 rest ih => exact congrArg _ (ih (of_labelCode_append (c := '<') h))
  | case3 rest ih => exact congrArg _ (ih (of_labelCode_append (c := '>') h))
  | case4 rest ih => exact congrArg _ (ih (of_labelCode_append (c := '\n') h))
  -- a character for itself is none of the four
  | case5 c rest noAmp noLt noGt noBreak ih =>
    have amp : c ≠ '&' := by
      rintro rfl
      obtain ⟨entity, hentity, after, rfl⟩ := h.ampersand [] rest rfl
      simp only [List.mem_cons, List.not_mem_nil, or_false] at hentity
      rcases hentity with rfl | rfl | rfl
      · exact noAmp _ rfl rfl
      · exact noLt _ rfl rfl
      · exact noGt _ rfl rfl
    -- every left bracket begins a break
    have lt : c ≠ '<' := by
      rintro rfl
      obtain ⟨after, rfl⟩ := h.less [] rest rfl
      exact noBreak _ rfl rfl
    -- every right bracket ends one
    have gt : c ≠ '>' := by
      rintro rfl
      exact absurd (h.greater [] rest rfl) (by decide)
    -- a line end is never written
    have newline : c ≠ '\n' := by
      rintro rfl
      exact h.newline List.mem_cons_self
    have hcode := labelCode_of_plain amp lt gt newline
    rw [List.flatMap_cons, hcode]
    exact congrArg _ (ih (of_labelCode_append (c := c) (by rwa [hcode])))
  | case6 => rfl

end MarksInCodes

/-- **The text of a label is written in a prefix code.** The four replacements, made one after the
other, write the code of each character in turn, and no code begins another. A single pass from left
to right reads the text back, so different texts are written differently, and a text made of two is
written in two parts. In what is written no line ends, an ampersand begins an entity and a bracket
belongs to a break; and every text of which this is true is written for some text. -/
theorem escape_prefixCode (text : String) :
    (∀ c d, labelCode c <+: labelCode d → c = d)
      ∧ (escape text).toList = text.toList.flatMap labelCode
      ∧ decode (escape text).toList = text.toList
      ∧ (∀ other, escape other = escape text → other = text)
      ∧ (∀ other, escape (text ++ other) = escape text ++ escape other)
      ∧ MarksInCodes (escape text).toList
      ∧ ∀ written, MarksInCodes written → ∃ other, (escape other).toList = written := by
  -- the escape can be read back, so no two texts have one
  have hread (text : String) : decode (escape text).toList = text.toList := by
    rw [toList_escape, decode_flatMap_labelCode]
  refine ⟨fun c d => eq_of_labelCode_prefix, toList_escape text, hread text, fun other same => ?_,
    fun other => ?_, ?_, fun written hmarks => ⟨.ofList (decode written), ?_⟩⟩
  · rw [← String.toList_inj, ← hread other, same, hread text]
  · rw [← String.toList_inj, String.toList_append, toList_escape, toList_escape, toList_escape,
      String.toList_append, List.flatMap_append]
  -- the marks stand in codes
  · rw [toList_escape]
    exact .of_flatMap_labelCode _
  -- and a text with its marks in codes is the escape of what it decodes to
  · rw [toList_escape, String.toList_ofList, hmarks.flatMap_decode]

/-- An entity that a text has already is no entity of what is written. -/
example : escape "a < b\n&lt;" = "a &lt; b<br/>&amp;lt;" := by decide

end Mockup.Text
