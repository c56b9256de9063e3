import Mathlib.Data.List.Perm.Basic
import Mockup.Proofs.Page.ContainingBlock
import Mockup.Proofs.Style.Locality
import Mockup.Proofs.Style.Order
import Mockup.Proofs.Style.Progress

/-!
# Containers around a single label

A plain container around a single label aligns its children as the label aligns its text. It becomes a
flexible box for that, which is the container's own affair: the children are counted, but only labels
and children at a forced offset, and only as far as they are shown; and where the children are placed
is decided by the layout that the document gives.

* `Node.IsBystander` — the children that have no say;
* `Node.AlignedBy` — a container around a single label, with the style that aligns it;
* `Style.inferredAlignment_perm` — **only those who have a say are seen**, in any order;
* `Style.inferredAlignment_eq_nil_iff` — **when there is an alignment**;
* `Style.among_layout` — the layout of a node in its block;
* `Node.withoutAlignment` — the container as it would be if no label in it were aligned;
* `Style.alignment_sees_label` — **the alignment sees only the label**, and is seen by nothing else.
-/

namespace Mockup

open Json

namespace Node

/-- The node with other children. -/
def withChildren (node : Node) (children : List Node) : Node :=
  { node with children := some children }

/-- Whether a child has a say in the alignment of its parent. -/
def hasSay (child : Node) : Bool := child.visible && (child.isText || child.forcedAbsolute)

/-- **Children without a say**: a hidden one, and one that is neither a label nor forced to
an offset. -/
def IsBystander (child : Node) : Prop :=
  child.visible = false ∨ child.isText = false ∧ child.forcedAbsolute = false

/-- **A plain container around a single label**, of whose style some alignment is given. -/
structure AlignedBy (node : Node) (style : TextStyle) : Prop where
  notText : node.isText = false
  plain : node.hasAutoLayout = false
  unforced : ∀ child ∈ node.visibleChildren, child.forcedAbsolute = false
  sole : ∃ label, node.visibleChildren.filter (·.isText) = [label] ∧ label.style = some style
  aligned : style.alignHorizontal.truthy = true ∨ style.alignVertical.truthy = true

theorem hasSay_of_isBystander {child : Node} (h : child.IsBystander) : child.hasSay = false := by
  rcases h with hidden | ⟨notText, unforced⟩
  · rw [hasSay, hidden, Bool.false_and]
  · rw [hasSay, notText, unforced, Bool.or_false, Bool.and_false]

/-- The labels that are shown are among the children that have a say. -/
theorem labels_eq (node : Node) :
    node.visibleChildren.filter (·.isText) = (node.childList.filter hasSay).filter (·.isText) := by
  rw [visibleChildren, List.filter_filter, List.filter_filter]
  refine List.filter_congr fun child _ => ?_
  cases isText : child.isText <;> simp [hasSay, isText]

/-- And so are the children that are forced to an offset. -/
theorem any_forcedAbsolute_eq (node : Node) :
    node.visibleChildren.any (·.forcedAbsolute)
      = (node.childList.filter hasSay).any (·.forcedAbsolute) := by
  rw [visibleChildren, List.any_filter, List.any_filter]
  congr 1
  funext child
  cases forced : child.forcedAbsolute <;> simp [hasSay, forced]

end Node

namespace Style

variable {node first second : Node} {style : TextStyle}

/-! ### Who has a say -/

/-- **Only the children that have a say are seen**, in any order. -/
theorem soleLabelStyle?_perm (htraits : first.toTraits = second.toTraits)
    (h : (first.childList.filter Node.hasSay).Perm (second.childList.filter Node.hasSay)) :
    soleLabelStyle? first = soleLabelStyle? second := by
  have hexcluded : (first.isText || first.hasAutoLayout
        || first.visibleChildren.any (·.forcedAbsolute))
      = (second.isText || second.hasAutoLayout
        || second.visibleChildren.any (·.forcedAbsolute)) := by
    -- the labels of the two nodes are the same up to order
    rw [Node.any_forcedAbsolute_eq, Node.any_forcedAbsolute_eq, h.any_eq, htraits]
  have hlabels := h.filter (·.isText)
  rw [← Node.labels_eq, ← Node.labels_eq] at hlabels
  rw [soleLabelStyle?, soleLabelStyle?, hexcluded]
  -- a single label is the single one on both sides
  generalize first.visibleChildren.filter (·.isText) = labels at hlabels ⊢
  generalize second.visibleChildren.filter (·.isText) = others at hlabels ⊢
  rcases labels with _ | ⟨label, _ | ⟨next, rest⟩⟩
  · rw [List.nil_perm.mp hlabels]
  · rw [List.singleton_perm.mp hlabels]
  -- several labels on one side are several on the other
  · rcases others with _ | ⟨label, _ | ⟨next, rest⟩⟩
    · exact absurd hlabels.length_eq (by simp)
    · exact absurd hlabels.length_eq (by simp)
    · rfl

theorem inferredAlignment_perm (htraits : first.toTraits = second.toTraits)
    (h : (first.childList.filter Node.hasSay).Perm (second.childList.filter Node.hasSay)) :
    inferredAlignment first = inferredAlignment second := by
  rw [inferredAlignment, inferredAlignment, soleLabelStyle?_perm htraits h]

/-! ### When there is an alignment -/

/-- **The style of the single label** of a plain container. -/
theorem soleLabelStyle?_eq_some_iff :
    soleLabelStyle? node = some style ↔ node.isText = false ∧ node.hasAutoLayout = false
      ∧ (∀ child ∈ node.visibleChildren, child.forcedAbsolute = false)
      ∧ ∃ label, node.visibleChildren.filter (·.isText) = [label] ∧ label.style = some style := by
  rw [soleLabelStyle?]
  by_cases excluded : (node.isText || node.hasAutoLayout
      || node.visibleChildren.any (·.forcedAbsolute)) = true
  -- one of the three conditions is broken on both sides
  · rw [if_pos excluded]
    refine iff_of_false (Option.some_ne_none style).symm ?_
    rintro ⟨notText, plain, unforced, -⟩
    have hforced : node.visibleChildren.any (·.forcedAbsolute) = false :=
      List.any_eq_false.mpr fun child hchild => Bool.eq_false_iff.mp (unforced child hchild)
    rw [notText, plain, hforced] at excluded
    exact absurd excluded (by decide)
  -- none of them is, and the labels decide
  · rw [if_neg excluded]
    have hincluded := eq_false_of_ne_true excluded
    rw [Bool.or_eq_false_iff, Bool.or_eq_false_iff, List.any_eq_false] at hincluded
    obtain ⟨⟨notText, plain⟩, unforced⟩ := hincluded
    have hopen : node.isText = false ∧ node.hasAutoLayout = false
        ∧ ∀ child ∈ node.visibleChildren, child.forcedAbsolute = false :=
      -- the three conditions hold, so they can be left out on the right
      ⟨notText, plain, fun child hchild => eq_false_of_ne_true (unforced child hchild)⟩
    rw [← and_assoc, ← and_assoc, and_assoc (a := node.isText = false), and_iff_right hopen]
    generalize node.visibleChildren.filter (·.isText) = labels
    rcases labels with _ | ⟨label, _ | ⟨next, rest⟩⟩
    -- no label, one label and several
    · simp
    · simp
    · simp

/-- A node is aligned by the style of its single label, if some alignment of it is given. -/
theorem alignedBy_iff :
    node.AlignedBy style ↔ soleLabelStyle? node = some style
      ∧ (style.alignHorizontal.truthy || style.alignVertical.truthy) = true := by
  rw [soleLabelStyle?_eq_some_iff, Bool.or_eq_true]
  constructor
  · rintro ⟨notText, plain, unforced, sole, aligned⟩
    exact ⟨⟨notText, plain, unforced, sole⟩, aligned⟩
  · rintro ⟨⟨notText, plain, unforced, sole⟩, aligned⟩
    exact ⟨notText, plain, unforced, sole, aligned⟩

/-- The declarations of an alignment. -/
def alignmentEntries (across along : String) : List (String × String) :=
  [("display", "flex"), ("align-items", across), ("justify-content", along)]

/-- **The alignment of a node**, or the fault of a word that is none. -/
theorem inferredAlignment_of_alignedBy (h : node.AlignedBy style) :
    inferredAlignment node = (do
      let across ← wordFor verticalAlignment? "center" style.alignVertical
      let along ← wordFor horizontalAlignment? "center" style.alignHorizontal
      return alignmentEntries across along) := by
  obtain ⟨hstyle, haligned⟩ := alignedBy_iff.mp h
  rw [inferredAlignment, hstyle]
  exact if_pos haligned

/-- **A node has no alignment** exactly when it is not aligned by any style. -/
theorem inferredAlignment_eq_nil_iff :
    inferredAlignment node = .ok [] ↔ ¬ ∃ style, node.AlignedBy style := by
  constructor
  · rintro hnone ⟨style, h⟩
    rw [inferredAlignment_of_alignedBy h] at hnone
    obtain ⟨across, -, hnone⟩ := bind_eq_ok hnone
    -- the entries are never empty once the words are there
    obtain ⟨along, -, hnone⟩ := bind_eq_ok hnone
    cases hnone
  · intro unaligned
    rw [inferredAlignment]
    cases hstyle : soleLabelStyle? node with
    | none => rfl
    -- without a style nothing is inferred
    | some style =>
      refine if_neg fun haligned => unaligned ⟨style, alignedBy_iff.mpr ⟨hstyle, haligned⟩⟩

/-! ### The words of an alignment -/
-- with one that asks for nothing neither

/-- The words that an alignment is made of. -/
def alignmentWords : List String := ["start", "center", "end"]

/-- A text is looked up in a table of words, and so is the absence of one. -/
theorem wordFor_yields {table : String → Option String} {words : List String} {default : String}
    (htable : ∀ key word, table key = some word → word ∈ words) (hdefault : default ∈ words)
    {j : Json} (h : isNullOr isString j = true) : Yields (wordFor table default j) (· ∈ words) := by
  refine (Json.keyword_succeeds (orElse_of_isNullOr h rfl)).bind fun key _ => .ok ?_
  cases hword : key.bind table with
  | none => exact hdefault
  | some word =>
    obtain ⟨found, -, hfound⟩ := Option.bind_eq_some_iff.mp hword
    exact htable found word hfound

theorem verticalAlignment_yields {j : Json} (h : isNullOr isString j = true) :
    Yields (wordFor verticalAlignment? "center" j) (· ∈ alignmentWords) := by
  refine wordFor_yields (fun key word hword => ?_) (by decide) h
  unfold verticalAlignment? at hword
  split at hword <;> cases hword <;> decide

theorem horizontalAlignment_yields {j : Json} (h : isNullOr isString j = true) :
    Yields (wordFor horizontalAlignment? "center" j) (· ∈ alignmentWords) := by
  refine wordFor_yields (fun key word hword => ?_) (by decide) h
  unfold horizontalAlignment? at hword
  split at hword <;> cases hword <;> decide

/-- **A style whose alignments are texts aligns its container** with two of the words. -/
theorem exists_inferredAlignment (h : node.AlignedBy style)
    (vertical : isNullOr isString style.alignVertical = true)
    (horizontal : isNullOr isString style.alignHorizontal = true) :
    ∃ across ∈ alignmentWords, ∃ along ∈ alignmentWords,
      inferredAlignment node = .ok (alignmentEntries across along) := by
  obtain ⟨across, hacross, inAcross⟩ := verticalAlignment_yields vertical
  obtain ⟨along, halong, inAlong⟩ := horizontalAlignment_yields horizontal
  refine ⟨across, inAcross, along, inAlong, ?_⟩
  rw [inferredAlignment_of_alignedBy h, hacross, halong]
  rfl

/-! ### The alignment in a block -/

section Block

variable {parent : Option Node} {isRoot : Bool} {block : Declarations}

/-- **The layout of a node in its block**: of the properties of layouts, the block declares what the
layout gives and nothing else. -/
theorem among_layout (h : declarations node parent isRoot = .ok block)
    {given : List (String × String)} (hlayout : layoutEntries node = .ok (Entries.given given))
    (nodup : (given.map Prod.fst).Nodup) (hgiven : ∀ entry ∈ given, entry.2 ≠ "") :
    block.among layoutProperties = given := by
  -- the block is the size, the position, the layout and the rest
  obtain ⟨size, place, later, hsize, hplace, hlater, rfl⟩ := declarations_eq_ok h
  obtain ⟨layout, hlaid, hafter⟩ := bind_eq_ok hlater
  obtain rfl : Entries.given given = layout := Except.ok.inj (hlayout.symm.trans hlaid)
  obtain ⟨rest, hrest, hall⟩ := bind_eq_ok hafter
  obtain rfl : Entries.given given ++ rest = later := Except.ok.inj hall
  have hposition : positionEntries node parent isRoot = .ok (Entries.given place) := by
    rw [positionEntries, hplace]
    rfl
  -- the layout writes only properties of its own
  have hnames : ∀ entry ∈ given, entry.1 ∈ layoutProperties := by
    intro entry hentry
    refine (layout_mentions node _ hlayout).subset ?_
    rw [← Entries.names, Entries.names_given]
    exact List.mem_map_of_mem hentry
  -- the aspects before the layout and those behind it have properties of their own
  have hsized := (size_mentions node).disjoint layoutProperties (by decide) hsize
  have hplaced := (position_mentions node parent isRoot).disjoint layoutProperties
    (by cases isRoot <;> decide) hposition
  have hfollowing := ((surface_mentions node).append (trailing_mentions node)).disjoint
    layoutProperties (by decide) hrest
  have hbefore : (((Declarations.addAll {} size).addAll (Entries.given place)).among
      layoutProperties) = [] := by
    rw [Declarations.among_addAll_of_disjoint hplaced, Declarations.among_addAll_of_disjoint hsized]
    rfl
  -- what comes behind leaves the layout's entries alone
  rw [Declarations.addAll_append, Declarations.among_addAll_of_disjoint hfollowing]
  exact Declarations.among_addAll_given hbefore hnames nodup hgiven

end Block

end Style

/-! ### The container without its alignment -/

namespace Node

/-- The node with a style that gives no alignment. -/
def unaligned (node : Node) : Node :=
  { node with
    style := node.style.map fun style =>
      { style with alignHorizontal := .null, alignVertical := .null } }

/-- **The container as it would be if no label in it were aligned.** -/
def withoutAlignment (node : Node) : Node := node.withChildren (node.childList.map unaligned)

end Node

namespace Style

theorem inferredAlignment_withoutAlignment (node : Node) :
    inferredAlignment node.withoutAlignment = .ok [] := by
  rw [inferredAlignment_eq_nil_iff]
  rintro ⟨style, h⟩
  obtain ⟨label, hlabel, hstyle⟩ := h.sole
  have hmem : label ∈ node.childList.map Node.unaligned := by
    have hsole : label ∈ node.withoutAlignment.visibleChildren.filter (·.isText) := by
      rw [hlabel]
      exact List.mem_singleton_self label
    exact (List.mem_filter.mp (List.mem_filter.mp hsole).1).1
  obtain ⟨child, -, rfl⟩ := List.mem_map.mp hmem
  obtain ⟨own, -, rfl⟩ := Option.map_eq_some_iff.mp hstyle
  exact h.aligned.elim Bool.false_ne_true Bool.false_ne_true

/-- **The alignment is not seen by the children**: where a child is placed is decided by the layout
that the document gives, and by rectangles. -/
theorem positioning_unaligned (node child : Node) (isRoot : Bool) :
    positioning child.unaligned (some node.withoutAlignment) isRoot
      = positioning child (some node) isRoot := rfl

/-! ### The alignment -/

/-- **The alignment sees only the label**, and is seen by nothing else. The order of the children does
not matter to it, and neither do children that are hidden or that are neither labels nor forced to an
offset. There is one exactly when the node is a plain container around a single label of whose style
some alignment is given. If the alignments are texts, the layout of the node then consists of three
declarations, with no direction, gap or padding, and so does that part of its block. Every child is
placed at an offset, and wherever it is placed, it would be there without the alignment as well. -/
theorem alignment_sees_label (node : Node) :
    (∀ children, children.Perm node.childList →
        inferredAlignment (node.withChildren children) = inferredAlignment node)
      ∧ (∀ before child after, child.IsBystander →
        inferredAlignment (node.withChildren (before ++ child :: after))
          = inferredAlignment (node.withChildren (before ++ after)))
      ∧ (inferredAlignment node = .ok [] ↔ ¬ ∃ style, node.AlignedBy style)
      ∧ (∀ style, node.AlignedBy style → isNullOr isString style.alignVertical = true →
        isNullOr isString style.alignHorizontal = true →
        ∃ across ∈ alignmentWords, ∃ along ∈ alignmentWords,
          inferredAlignment node = .ok (alignmentEntries across along)
            ∧ (Styling.layout node).runFrom {} = (.ok (), ⟨alignmentEntries across along⟩)
            ∧ ∀ parent isRoot block, declarations node parent isRoot = .ok block →
              block.among layoutProperties = alignmentEntries across along)
      ∧ (∀ style child, node.AlignedBy style → positionMode child (some node) false = .absolute)
      ∧ inferredAlignment node.withoutAlignment = .ok []
      ∧ ∀ child isRoot, positioning child.unaligned (some node.withoutAlignment) isRoot
          = positioning child (some node) isRoot := by
  refine ⟨fun children h => inferredAlignment_perm rfl (h.filter _),
    fun before child after h => inferredAlignment_perm rfl (.of_eq ?_), inferredAlignment_eq_nil_iff,
    fun style h vertical horizontal => ?_, fun style child h => ?_,
    inferredAlignment_withoutAlignment node, positioning_unaligned node⟩
  -- a bystander has no say, so the filtered children are the same
  · change (before ++ child :: after).filter Node.hasSay = (before ++ after).filter Node.hasSay
    rw [List.filter_append, List.filter_append, List.filter_cons_of_neg]
    exact Bool.eq_false_iff.mp (Node.hasSay_of_isBystander h)
  -- the two words, one for each axis
  · obtain ⟨across, inAcross, along, inAlong, hinferred⟩ :=
      exists_inferredAlignment h vertical horizontal
    have hlayout : layoutEntries node = .ok (Entries.given (alignmentEntries across along)) := by
      rw [layoutEntries, h.plain, if_neg Bool.false_ne_true, hinferred]
      rfl
    -- the three properties differ
    have nodup : ((alignmentEntries across along).map Prod.fst).Nodup := by
      change ["display", "align-items", "justify-content"].Nodup
      decide
    -- and each of them has a value
    have words : ∀ word ∈ alignmentWords, word ≠ "" := by decide
    have hgiven : ∀ entry ∈ alignmentEntries across along, entry.2 ≠ "" := by
      simp only [alignmentEntries, List.forall_mem_cons]
      exact ⟨by decide, words across inAcross, words along inAlong, List.forall_mem_nil _⟩
    refine ⟨across, inAcross, along, inAlong, hinferred, ?_, fun parent isRoot block hblock =>
      among_layout hblock hlayout nodup hgiven⟩
    -- the step alone writes the three entries into an empty block
    have hrun := Styling.layout_gives node {}
    rw [hlayout] at hrun
    have hlist : (Declarations.addAll {} (Entries.given (alignmentEntries across along))).toList
        = alignmentEntries across along :=
      Declarations.toList_addAll_given nodup hgiven fun _ _ => List.not_mem_nil
    rw [show (Styling.layout node).runFrom {} = _ from hrun]
    exact congrArg (fun entries => (Except.ok (), Declarations.mk entries)) hlist
  -- the children of an aligned box are placed by hand
  · exact positionMode_child_eq_absolute_iff.mpr (.inr h.plain)

/-- A label at the bottom of its container. -/
def footLabel : Node :=
  { id := "2", kind := .text, style := some { alignVertical := .str "BOTTOM" } }

/-- A frame around that label, a shape beside it and a hidden label. -/
def footedFrame : Node :=
  { id := "1"
    children := some
      [{ id := "3", kind := .ellipse }, footLabel, { id := "4", kind := .text, visible := false }] }

/-- The label aligns the frame, at the bottom and in the centre. Neither does its place among the
children matter nor a further shape; and the shape is at an offset. -/
theorem footedFrame_aligned :
    inferredAlignment footedFrame = .ok (alignmentEntries "end" "center")
      ∧ inferredAlignment (footedFrame.withChildren (footLabel :: [{ id := "3", kind := .ellipse },
          { id := "4", kind := .text, visible := false }])) = .ok (alignmentEntries "end" "center")
      ∧ inferredAlignment (footedFrame.withChildren ([footLabel] ++ { id := "5" } :: []))
        = inferredAlignment (footedFrame.withChildren [footLabel])
      ∧ (Styling.layout footedFrame).runFrom {}
        = (.ok (), ⟨alignmentEntries "end" "center"⟩)
      ∧ positionMode { id := "3", kind := .ellipse } (some footedFrame) false = .absolute := by
  obtain ⟨hperm, hbystander, -, hwords, hplace, -⟩ := alignment_sees_label footedFrame
  -- the frame has one label, at its foot
  have aligned : footedFrame.AlignedBy { alignVertical := .str "BOTTOM" } :=
    ⟨rfl, rfl, by decide, ⟨footLabel, rfl, rfl⟩, .inr rfl⟩
  have hinferred : inferredAlignment footedFrame = .ok (alignmentEntries "end" "center") :=
    eq_ok_of_toOption (by decide +kernel)
  obtain ⟨across, -, along, -, halignment, hlayout, -⟩ := hwords _ aligned rfl rfl
  rw [hinferred] at halignment
  rw [← Except.ok.inj halignment] at hlayout
  -- the label may stand before or after the others, and the empty frame counts for nothing
  refine ⟨hinferred, (hperm _ (.swap _ _ _)).trans hinferred, ?_, hlayout, hplace _ _ aligned⟩
  exact hbystander [footLabel] { id := "5" } [] (.inr ⟨rfl, rfl⟩)

end Style

end Mockup
