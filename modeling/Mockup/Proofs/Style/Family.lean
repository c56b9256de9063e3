import Mockup.Proofs.Style.Alphabet

/-!
# The family of a label in its block

A label may give the family of its type face, and the family is written out as it is. It is the only
text of a document that reaches a declaration.

* `Style.fontFamily?` — the family of a label;
* `Style.entries_around` — the entries of a node are those of its family and others around it, whose
  values are fixed words and figures;
* `Style.value?_fontFamily` — **the family is the value of `font-family`**, and without a family
  there is none;
* `Style.value_over`, `Style.name_mem_properties` — **every other value is over the alphabet**, and
  the properties are fixed.
-/

namespace Mockup

namespace Style

/-- **The family of a label**, where its style gives one. -/
def fontFamily? (node : Node) : Option String :=
  match node.isText, node.style with
  | true, some style => if style.fontFamily.truthy then some style.fontFamily.plain else none
  | _, _ => none

/-- A family in quotes, with the fallback. -/
def familyValue (family : String) : String := "'" ++ family ++ "', sans-serif"

/-- The entry for the family of a label. -/
def familyEntries (node : Node) : Entries :=
  (fontFamily? node).toList.map fun family => ("font-family", some (familyValue family))

theorem familyEntries_of_style {node : Node} (isText : node.isText = true) {style : TextStyle}
    (hstyle : node.style = some style) : familyEntries node = Entries.given (family style) := by
  rw [familyEntries, fontFamily?, isText, hstyle, family]
  dsimp only
  split <;> rfl

theorem familyEntries_of_noStyle {node : Node} (h : node.isText = false ∨ node.style = none) :
    familyEntries node = [] := by
  rw [familyEntries, fontFamily?]
  rcases h with h | h <;> simp [h]

/-! ### The entries around the family -/

/-- **Entries beside the family**: their values are over an alphabet, and they name no family. -/
structure Beside (allowed : Char → Prop) (entries : Entries) : Prop where
  values : entries.ValuesOver allowed
  unnamed : "font-family" ∉ entries.names

section

variable {allowed : Char → Prop}

theorem Beside.nil : Beside allowed [] := ⟨.nil, List.not_mem_nil⟩

theorem Beside.append {a b : Entries} (ha : Beside allowed a) (hb : Beside allowed b) :
    Beside allowed (a ++ b) := by
  refine ⟨ha.values.append hb.values, ?_⟩
  rw [Entries.names, List.map_append, List.mem_append, not_or]
  exact ⟨ha.unnamed, hb.unnamed⟩

/-- What mentions no family gives entries beside it. -/
theorem Beside.of_mentions {result : Result Entries} {properties : List String}
    (values : Ensures result (Entries.ValuesOver allowed)) (names : Mentions result properties)
    (absent : "font-family" ∉ properties) : Ensures result (Beside allowed) :=
  fun entries h => ⟨values entries h, names.notMem h absent⟩

/-- Entries beside the family, and then the family with entries beside it. -/
theorem concat_around {results : List (Result Entries)} {last : Result Entries} {family : Entries}
    (h : ∀ result ∈ results, Ensures result (Beside allowed))
    (hlast : Ensures last fun entries => ∃ after, entries = family ++ after
      ∧ Beside allowed after) :
    Ensures (concat (results ++ [last])) fun all => ∃ before after,
      all = before ++ (family ++ after) ∧ Beside allowed before ∧ Beside allowed after := by
  induction results with
  -- only the last result is left
  | nil =>
    rw [List.nil_append, concat_singleton]
    intro entries hentries
    obtain ⟨after, rfl, hafter⟩ := hlast entries hentries
    exact ⟨[], after, rfl, .nil, hafter⟩
  -- the results before it add their entries before the family
  | cons result rest ih =>
    obtain ⟨hresult, hrest⟩ := List.forall_mem_cons.mp h
    rw [List.cons_append, concat]
    refine hresult.bind fun first hfirst => (ih hrest).bind ?_
    rintro _ ⟨before, after, rfl, hbefore, hafter⟩
    refine .ok ⟨first ++ before, after, ?_, hfirst.append hbefore, hafter⟩
    rw [List.append_assoc]

variable (alphabet : Alphabet allowed)

include alphabet

/-- What is said of a label is said after its family. -/
theorem textEntries_after (node : Node) :
    Ensures (textEntries node) fun entries => ∃ after, entries = familyEntries node ++ after
      ∧ Beside allowed after := by
  have hcolor : ∀ color, ValueOver allowed color → Beside allowed [("color", color)] :=
    fun color h => ⟨.cons h .nil, by simp [Entries.names]⟩
  unfold textEntries
  cases isText : node.isText with
  | false =>
    rw [familyEntries_of_noStyle (.inl isText)]
    exact .ok ⟨[], rfl, .nil⟩
  | true =>
    rw [if_pos rfl]
    -- the colour comes after the family
    cases hstyle : node.style with
    -- a label without a style has a colour only
    | none =>
      rw [familyEntries_of_noStyle (.inr hstyle)]
      exact (alphabet.textColor _).bind fun color h => .ok ⟨_, rfl, hcolor color h⟩
    -- one with a style has the family, the setting and the colour
    | some style =>
      rw [familyEntries_of_style isText hstyle, typography_some]
      simp only [bind_assoc, pure_bind]
      intro entries hentries
      obtain ⟨rest, hrest, hentries⟩ := bind_eq_ok hentries
      obtain ⟨color, hcolors, hentries⟩ := bind_eq_ok hentries
      obtain rfl : Entries.given (family style ++ rest) ++ [("color", color)] = entries :=
        Except.ok.inj hentries
      -- the setting names other properties
      have hsetting : Beside allowed (Entries.given rest) := by
        refine ⟨(alphabet.setting style rest hrest).given, ?_⟩
        rw [Entries.names_given]
        exact fun hmem => absurd ((setting_mentions style rest hrest).subset hmem) (by decide)
      refine ⟨Entries.given rest ++ [("color", color)], ?_, ?_⟩
      · rw [Entries.given, List.map_append, List.append_assoc]
        rfl
      · exact hsetting.append (hcolor color (alphabet.textColor _ _ hcolors))

/-- **The entries of a node are those of its family and others around it.** -/
theorem entries_around (node : Node) (parent : Option Node) (isRoot : Bool) :
    Ensures (entries node parent isRoot) fun all => ∃ before after,
      all = before ++ (familyEntries node ++ after)
        ∧ Beside allowed before ∧ Beside allowed after := by
  have hposition : "font-family" ∉ "position" :: placeProperties isRoot := by
    cases isRoot <;> decide
  -- none of the seven aspects before names the family
  have hsize := Beside.of_mentions (alphabet.sizeEntries node) (size_mentions node) (by decide)
  have hplace := Beside.of_mentions (alphabet.positionEntries node parent isRoot)
    (position_mentions node parent isRoot) hposition
  have hlayout := Beside.of_mentions (alphabet.layoutEntries node) (layout_mentions node)
    (by decide)
  have hsurface := Beside.of_mentions (alphabet.surfaceEntries node) (surface_mentions node)
    (by decide)
  have houtline := Beside.of_mentions (alphabet.outlineEntries node) (outline_mentions node)
    (by decide)
  have hshadow := Beside.of_mentions (alphabet.shadowEntries node) (shadow_mentions node)
    (by decide)
  have hopacity := Beside.of_mentions (alphabet.opacityEntries node) (opacity_mentions node)
    (by decide)
  have hbefore : ∀ result ∈ [sizeEntries node, positionEntries node parent isRoot,
      layoutEntries node, surfaceEntries node, outlineEntries node, shadowEntries node,
      opacityEntries node], Ensures result (Beside allowed) := by
    simp only [List.forall_mem_cons]
    exact ⟨hsize, hplace, hlayout, hsurface, houtline, hshadow, hopacity, List.forall_mem_nil _⟩
  -- the entries of a label come last, and all others are before the family
  exact concat_around hbefore (textEntries_after alphabet node)

end

/-! ### The block of a node -/

variable {node : Node} {parent : Option Node} {isRoot : Bool} {block : Declarations}

/-- **The family is the value of `font-family`.** A block without a family has no such value. -/
theorem value?_fontFamily (h : declarations node parent isRoot = .ok block) :
    block.value? "font-family" = (fontFamily? node).map familyValue := by
  obtain ⟨all, hall, rfl⟩ := entries_of_declarations h
  -- the alphabet of all characters is enough to find the place of the family
  have everything : Alphabet fun _ => True := ⟨fun _ _ => trivial, fun _ _ _ => trivial⟩
  obtain ⟨before, after, rfl, hbefore, hafter⟩ := entries_around everything node parent isRoot all hall
  -- what comes after the family does not replace it
  rw [Declarations.addAll_append, Declarations.addAll_append,
    Declarations.value?_addAll_of_notMem hafter.unnamed, familyEntries]
  cases fontFamily? node with
  | none => exact Declarations.value?_addAll_of_notMem hbefore.unnamed {}
  | some family =>
    -- a family is never empty, as it is quoted
    have named : familyValue family ≠ "" := by
      intro hempty
      have hlength := congrArg String.length hempty
      rw [familyValue, String.length_append] at hlength
      exact absurd (Nat.eq_zero_of_add_eq_zero_left hlength) (by decide +kernel)
    exact Declarations.value?_add_self _ _ named

/-- **Every other value is over the alphabet.** -/
theorem value_over {allowed : Char → Prop} (alphabet : Alphabet allowed)
    (h : declarations node parent isRoot = .ok block) :
    ∀ entry ∈ block.toList, entry.1 ≠ "font-family" → Over allowed entry.2 := by
  obtain ⟨all, hall, rfl⟩ := entries_of_declarations h
  obtain ⟨before, after, rfl, hbefore, hafter⟩ := entries_around alphabet node parent isRoot all hall
  intro entry hentry other
  have hgiven := Declarations.mem_of_mem_addAll_empty hentry
  rcases List.mem_append.mp hgiven with hgiven | hgiven
  · exact hbefore.values _ hgiven _ rfl
  rcases List.mem_append.mp hgiven with hgiven | hgiven
  · obtain ⟨family, -, heq⟩ := List.mem_map.mp hgiven
    exact absurd (congrArg Prod.fst heq).symm other
  · exact hafter.values _ hgiven _ rfl

/-- The properties of a block are among those that blocks have. -/
theorem name_mem_properties (h : declarations node parent isRoot = .ok block) :
    ∀ entry ∈ block.toList, entry.1 ∈ properties isRoot := by
  obtain ⟨all, hall, rfl⟩ := entries_of_declarations h
  intro entry hentry
  have hgiven := Declarations.mem_of_mem_addAll_empty hentry
  exact (entries_mention node parent isRoot all hall).subset (List.mem_map_of_mem hgiven)

end Style

end Mockup
