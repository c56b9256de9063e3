import Mockup.Proofs.Design.Silent
import Mockup.Proofs.Number.Fraction
import Mockup.Proofs.Style.Family

/-!
# What a document can put into a stylesheet

A document is not trusted, and a stylesheet is read by a browser. The family of a label apart, what a
document can put into a declaration is confined: the property is one of a fixed list, and the value is
a few figures and fixed words. Nor does a stylesheet tell what its document calls things or what its
labels say.

* `Style.marks` — **figures have the characters of fixed words only**, so these are an alphabet for
  declarations: the small letters, the digits and eight marks;
* `Declarations.ne_empty_of_mem_addAll` — no declaration is empty;
* `Style.declarations_silenced` — what is silent in a node makes no difference to its declarations;
* `Style.family_alone_carries_text` — **only a family carries text of a document into a
  declaration.**
-/

namespace Mockup

/-! ### The characters of figures -/

namespace Style

/-- The characters of numerals are marks, but for the plus sign. -/
theorem isMark_of_isNumeralChar {c : Char} (h : isNumeralChar c = true) (noPlus : c ≠ '+') :
    isMark c = true := by
  rw [isNumeralChar, Bool.or_eq_true, decide_eq_true_eq] at h
  rcases h with hdigit | hother
  · rw [isMark, hdigit, Bool.or_true, Bool.true_or]
  · simp only [List.mem_cons, List.not_mem_nil, or_false] at hother
    rcases hother with rfl | rfl | rfl | rfl | rfl | rfl | rfl | rfl
    · decide
    · decide
    · exact absurd rfl noPlus
    all_goals decide

/-- The numeral of a double that is not whole has no plus sign. -/
theorem plus_notMem_numeral {x : Binary64} (fraction : x.isWhole = false) :
    '+' ∉ x.numeral.toList := by
  cases x with
  -- a finite double, with or without a minus sign
  | finite negative n representable =>
    have hfraction : n % Binary64.unit ≠ 0 := of_decide_eq_false fraction
    have hmagnitude := Binary64.plus_notMem_magnitudeNumeral representable hfraction
    rw [Binary64.numeral, String.toList_ofList]
    split
    · simp [hmagnitude]
    · exact hmagnitude
  -- the other two are words without a sign inside
  | infinite negative => cases negative <;> simp [Binary64.numeral]
  | nan => simp [Binary64.numeral]

/-- The numeral of a whole double has no plus sign: it has no exponent. -/
theorem plus_notMem_wholeNumeral {x : Binary64} (whole : x.isWhole = true) :
    '+' ∉ x.wholeNumeral.toList := by
  cases x with
  | finite negative n representable =>
    intro hmem
    rcases isDigit_or_minus_of_mem_integerNumeral _ hmem with hdigit | hminus
    · exact absurd hdigit (by decide)
    · exact absurd hminus (by decide)
  | infinite negative => cases whole
  | nan => cases whole

/-- **Figures have no other characters than fixed words.** -/
theorem figure_over_marks (x : Binary64) : Over (isMark · = true) (figure x) := by
  intro c hc
  unfold figure at hc
  dsimp only at hc
  -- an integer has no exponent
  split at hc
  · rename_i whole
    refine isMark_of_isNumeralChar (Binary64.isNumeralChar_wholeNumeral _ c hc) ?_
    rintro rfl
    exact plus_notMem_wholeNumeral whole hc
  -- a rounded fraction needs none
  · rename_i fraction
    refine isMark_of_isNumeralChar (Binary64.isNumeralChar_numeral _ c hc) ?_
    rintro rfl
    exact plus_notMem_numeral (Bool.eq_false_iff.mpr fraction) hc

/-- **The marks are an alphabet for declarations.** -/
theorem marks : Alphabet (isMark · = true) := ⟨fun _ h => h, figure_over_marks⟩

end Style

/-! ### No empty declarations -/

namespace Declarations

theorem ne_empty_of_mem_addAll {entries : Entries} {block : Declarations}
    (h : ∀ entry ∈ block.toList, entry.2 ≠ "") :
    ∀ entry ∈ (block.addAll entries).toList, entry.2 ≠ "" := by
  induction entries generalizing block with
  | nil => exact h
  | cons first rest ih =>
    rw [addAll_cons]
    refine ih ?_
    obtain ⟨property, _ | value⟩ := first
    -- a missing value changes nothing
    · exact h
    -- an empty one neither, and any other is what was added
    · dsimp only
      rw [add]
      split
      · exact h
      · rename_i given
        intro entry hentry
        rcases mem_assign hentry with rfl | hold
        · exact given
        · exact h entry hold

end Declarations

/-! ### What is silent in a node -/

namespace Style

/-- The paint that is drawn does not depend on what is silent in the paints. -/
theorem topmostVisible_silenced (paints : Option (List Paint)) :
    topmostVisible (paints.map (List.map Paint.silenced))
      = (topmostVisible paints).map Paint.silenced := by
  have hgiven : (paints.map (List.map Paint.silenced)).getD []
      = (paints.getD []).map Paint.silenced := by
    cases paints <;> rfl
  rw [topmostVisible, topmostVisible, hgiven, List.filter_map, List.getLast?_map]
  rfl

theorem background_silenced (fills : Option (List Paint)) :
    background (fills.map (List.map Paint.silenced)) = background fills := by
  have hpaint : ∀ paint : Paint, paintValue paint.silenced = paintValue paint := by
    rintro ⟨fill, visible, opacity⟩
    cases fill <;> rfl
  rw [background, background, topmostVisible_silenced]
  cases topmostVisible fills with
  | none => rfl
  | some paint => exact hpaint paint

theorem border_silenced (strokes : Option (List Paint)) (weight : Json) :
    border (strokes.map (List.map Paint.silenced)) weight = border strokes weight := by
  rw [border, border, topmostVisible_silenced]
  rcases topmostVisible strokes with _ | ⟨fill, visible, opacity⟩
  · rfl
  · cases fill <;> rfl

theorem textColor_silenced (fills : Option (List Paint)) :
    textColor (fills.map (List.map Paint.silenced)) = textColor fills := by
  have hgiven : (fills.map (List.map Paint.silenced)).getD []
      = (fills.getD []).map Paint.silenced := by
    cases fills <;> rfl
  have hpaint : ∀ paint : Paint, visibleSolid? paint.silenced = visibleSolid? paint := by
    rintro ⟨fill, visible, opacity⟩
    cases fill <;> cases visible <;> rfl
  rw [textColor, textColor, hgiven, List.findSome?_map]
  simp only [Function.comp_def, hpaint]

/-- A style that says nothing gives no declarations, and neither does no style. -/
theorem typography_silenced (style : Option TextStyle) :
    typography (some (TextStyle.silenced style)) = typography style := by
  cases style <;> rfl

/-! ### Nodes around a node -/

theorem visible_silenced (node : Node) : node.silenced.visible = node.visible := by
  obtain ⟨t, children⟩ := node
  rw [Node.silenced_mk]
  rfl

theorem forcedAbsolute_silenced (node : Node) :
    node.silenced.forcedAbsolute = node.forcedAbsolute := by
  obtain ⟨t, children⟩ := node
  rw [Node.silenced_mk]
  rfl

theorem isText_silenced (node : Node) : node.silenced.isText = node.isText := by
  obtain ⟨t, children⟩ := node
  rw [Node.silenced_mk]
  rfl

theorem hasAutoLayout_silenced (node : Node) :
    node.silenced.hasAutoLayout = node.hasAutoLayout := by
  obtain ⟨t, children⟩ := node
  rw [Node.silenced_mk]
  rfl

theorem visibleChildren_silenced (node : Node) :
    node.silenced.visibleChildren = node.visibleChildren.map Node.silenced := by
  obtain ⟨t, children⟩ := node
  have hlist : (children.map (List.map Node.silenced)).getD []
      = (children.getD []).map Node.silenced := by
    cases children <;> rfl
  rw [Node.silenced_mk, Node.visibleChildren, Node.visibleChildren, Node.childList_mk,
    Node.childList_mk, hlist, List.filter_map]
  simp only [Function.comp_def, visible_silenced]

theorem any_forcedAbsolute_silenced (nodes : List Node) :
    (nodes.map Node.silenced).any (·.forcedAbsolute) = nodes.any (·.forcedAbsolute) := by
  rw [List.any_map]
  simp only [Function.comp_def, forcedAbsolute_silenced]

theorem positionMode_silenced (node : Node) (parent : Option Node) (isRoot : Bool) :
    positionMode node.silenced parent isRoot = positionMode node parent isRoot := by
  rw [positionMode, positionMode, forcedAbsolute_silenced, needsContainingBlock,
    needsContainingBlock, visibleChildren_silenced, hasAutoLayout_silenced,
    any_forcedAbsolute_silenced, List.isEmpty_map]

/-- The alignment around a single label does not depend on what is silent in the label. -/
theorem inferredAlignment_silenced (node : Node) :
    inferredAlignment node.silenced = inferredAlignment node := by
  -- the labels are the same ones, silenced
  have hlabels : (node.visibleChildren.map Node.silenced).filter (·.isText)
      = (node.visibleChildren.filter (·.isText)).map Node.silenced := by
    rw [List.filter_map]
    simp only [Function.comp_def, isText_silenced]
  rw [inferredAlignment, inferredAlignment, soleLabelStyle?, soleLabelStyle?,
    visibleChildren_silenced, isText_silenced, hasAutoLayout_silenced, any_forcedAbsolute_silenced,
    hlabels]
  -- what excludes an alignment is not silent
  by_cases excluded : (node.isText || node.hasAutoLayout
      || node.visibleChildren.any (·.forcedAbsolute)) = true
  · rw [if_pos excluded, if_pos excluded]
  · rw [if_neg excluded, if_neg excluded]
    generalize node.visibleChildren.filter (·.isText) = labels
    rcases labels with _ | ⟨⟨t, children⟩, _ | ⟨second, rest⟩⟩
    · rfl
    · -- a label without a style aligns as little as one with a style that says nothing
      rw [List.map_singleton, Node.silenced_mk]
      cases hstyle : t.style with
      | none => simp only [Traits.silenced, hstyle]; rfl
      | some style => simp only [Traits.silenced, hstyle]; rfl
    · rfl

/-! ### Aspects of a node -/

theorem positionEntries_silenced (node : Node) (parent : Option Node) (isRoot : Bool) :
    positionEntries node.silenced parent isRoot = positionEntries node parent isRoot := by
  obtain ⟨t, children⟩ := node
  have hmode := positionMode_silenced ⟨t, children⟩ parent isRoot
  rw [positionEntries, positionEntries, positioning, positioning, placement, placement, hmode,
    Node.silenced_mk]
  rfl

theorem layoutEntries_silenced (node : Node) :
    layoutEntries node.silenced = layoutEntries node := by
  rw [layoutEntries, layoutEntries, inferredAlignment_silenced, hasAutoLayout_silenced]
  obtain ⟨t, children⟩ := node
  rw [Node.silenced_mk]
  rfl

theorem surfaceEntries_silenced (node : Node) :
    surfaceEntries node.silenced = surfaceEntries node := by
  obtain ⟨t, children⟩ := node
  have hbackground := background_silenced t.fills
  rw [Node.silenced_mk, surfaceEntries, surfaceEntries]
  simp only [Traits.silenced, hbackground, Option.isSome_map]
  rfl

theorem outlineEntries_silenced (node : Node) :
    outlineEntries node.silenced = outlineEntries node := by
  obtain ⟨t, children⟩ := node
  have hborder := border_silenced t.strokes t.strokeWeight
  rw [Node.silenced_mk, outlineEntries, outlineEntries]
  simp only [Traits.silenced, hborder]
  rfl

theorem textEntries_silenced (node : Node) : textEntries node.silenced = textEntries node := by
  obtain ⟨t, children⟩ := node
  have htypography := typography_silenced t.style
  have hcolor := textColor_silenced t.fills
  rw [Node.silenced_mk, textEntries, textEntries]
  simp only [Traits.silenced, htypography, hcolor]
  rfl

/-- **What is silent in a node makes no difference to its declarations.** -/
theorem declarations_silenced (node : Node) (parent : Option Node) (isRoot : Bool) :
    -- the other aspects look alike for a silenced node
    declarations node.silenced parent isRoot = declarations node parent isRoot := by
  -- sizes, shadows and opacity are fields that are not touched at all
  have huntouched : sizeEntries node.silenced = sizeEntries node
      ∧ shadowEntries node.silenced = shadowEntries node
      ∧ opacityEntries node.silenced = opacityEntries node := by
    obtain ⟨t, children⟩ := node
    rw [Node.silenced_mk]
    exact ⟨rfl, rfl, rfl⟩
  obtain ⟨hsize, hshadow, hopacity⟩ := huntouched
  rw [declarations_eq, declarations_eq, entries, entries, hsize, hshadow, hopacity,
    positionEntries_silenced, layoutEntries_silenced, surfaceEntries_silenced,
    outlineEntries_silenced, textEntries_silenced]

/-! ### The declarations of a document -/

/-- The declarations of a node as a document gives it. -/
def declarationsOf (j : Json) (parent : Option Node) (isRoot : Bool) : Result Declarations := do
  declarations (← Node.ofJson j) parent isRoot

/-- **Only a family carries text of a document into a declaration.** Whatever a document holds, the
properties of a node that has a block are fixed names, and except for that of `font-family` every
value is a text of small letters, digits and the marks `#`, `%`, `(`, `)`, `,`, `.`, `-` and blank,
and not empty. Two documents that differ in silent fields only have the same declarations, or the same
fault. -/
theorem family_alone_carries_text (j : Json) (parent : Option Node) (isRoot : Bool) :
    (∀ block, declarationsOf j parent isRoot = .ok block → ∀ entry ∈ block.toList,
      entry.1 ∈ properties isRoot
        ∧ (entry.1 ≠ "font-family" → entry.2 ≠ "" ∧ Over (isMark · = true) entry.2))
      ∧ ∀ other : Json, other.silenced = j.silenced →
        declarationsOf other parent isRoot = declarationsOf j parent isRoot := by
  constructor
  · intro block h entry hentry
    obtain ⟨node, -, hblock⟩ := bind_eq_ok h
    -- the names are those of the block
    refine ⟨name_mem_properties hblock entry hentry, fun beside => ⟨?_, ?_⟩⟩
    -- no value is empty
    · obtain ⟨all, -, rfl⟩ := entries_of_declarations hblock
      exact Declarations.ne_empty_of_mem_addAll (List.forall_mem_nil _) entry hentry
    -- and each is made of the marks of numbers and fixed words
    · exact value_over marks hblock entry hentry beside
  · intro other alike
    -- both are read like the document without its silent fields
    have hread : Node.silenced <$> Node.ofJson other = Node.silenced <$> Node.ofJson j := by
      have hother := Node.ofJson_silenced other
      rw [alike] at hother
      exact hother.symm.trans (Node.ofJson_silenced j)
    have hsame : SameUnder (fun block : Declarations => block)
        (declarationsOf other parent isRoot) (declarationsOf j parent isRoot) := by
      -- and silenced nodes have the same block
      refine SameUnder.bind hread fun node node' hnode => ?_
      rw [← declarations_silenced node, hnode, declarations_silenced]
      exact .rfl
    simpa [SameUnder] using hsame

/-- A label whose name, identifier and characters try to leave their declarations, with a paint that
is an image and a style. -/
def loudLabel (name characters reference : String) : Json :=
  .obj [("id", .str name), ("name", .str name), ("type", .str "TEXT"),
    ("characters", .str characters), ("cornerRadius", .ofInt 4),
    ("fills", .arr [.obj [("type", .str "IMAGE"), ("imageRef", .str reference)]]),
    ("style", .obj [("fontSize", .ofInt 12), ("fontFamily", .str "Inter"),
      ("fontPostScriptName", .str name)])]

/-- None of these texts is in its declarations. -/
theorem loudLabel_quiet : ∃ block, declarationsOf (loudLabel "a;b" "\x7d" "\x7b") none true = .ok block
    ∧ declarationsOf (loudLabel "" "" "") none true = .ok block
    ∧ block.toList = [("position", "relative"), ("overflow", "hidden"),
      ("background-color", "white"), ("border-radius", "4px"), ("font-family", "'Inter', sans-serif"),
      ("font-size", "12px")]
    ∧ ∀ entry ∈ block.toList, entry.1 ≠ "font-family" → Over (isMark · = true) entry.2 := by
  -- the block of the loud label, which is that of the quiet one
  have hblock : (declarationsOf (loudLabel "a;b" "\x7d" "\x7b") none true).toOption.map (·.toList)
      = some [("position", "relative"), ("overflow", "hidden"), ("background-color", "white"),
        ("border-radius", "4px"), ("font-family", "'Inter', sans-serif"), ("font-size", "12px")] := by
    decide +kernel
  obtain ⟨block, hblock, hlist⟩ := Option.map_eq_some_iff.mp hblock
  have hloud := eq_ok_of_toOption hblock
  obtain ⟨hconfined, hsilent⟩ := family_alone_carries_text (loudLabel "a;b" "\x7d" "\x7b") none true
  have hquiet := hsilent (loudLabel "" "" "") rfl
  refine ⟨block, hloud, hquiet.trans hloud, hlist, fun entry hentry beside => ?_⟩
  exact ((hconfined block hloud entry hentry).2 beside).2

end Style

end Mockup
