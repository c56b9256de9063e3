import Mockup.Proofs.Style.Entries

/-!
# What a block looks at

The block of a node is decided by what the node says of itself, by what its visible children say of
themselves, and by what its parent says of itself. Three decisions look at the children (whether the
node contains a child at an offset, how it is placed, and whether a label in it aligns it), and all
of them look at the visible ones only; no decision looks further down or further up.

* `Node.LooksLike` — two nodes say the same of themselves, and so do their visible children;
* `Style.positionMode_congr`, `Style.inferredAlignment_congr` — the decisions that look around;
* `Style.declarations_congr` — **nodes that look alike have the same declarations**, or the same
  fault, below parents that say the same of themselves.
-/

namespace Mockup

/-- **Two nodes look alike**: they say the same of themselves, and their visible children do so one
by one. What is below these children, and what is hidden, may differ. -/
structure Node.LooksLike (first second : Node) : Prop where
  traits : first.toTraits = second.toTraits
  children : first.visibleChildren.map Node.toTraits = second.visibleChildren.map Node.toTraits

/-- What a question that concerns traits makes of nodes, it makes of their traits. -/
theorem any_toTraits (question : Traits → Bool) (nodes : List Node) :
    nodes.any (fun node => question node.toTraits) = (nodes.map Node.toTraits).any question := by
  rw [List.any_map]
  rfl

namespace Style

variable {first second : Node}

/-! ### Looking at the children -/

theorem any_forcedAbsolute_congr (h : first.LooksLike second) :
    first.visibleChildren.any (·.forcedAbsolute)
      = second.visibleChildren.any (·.forcedAbsolute) := by
  calc first.visibleChildren.any (·.forcedAbsolute)
      = (first.visibleChildren.map Node.toTraits).any (·.forcedAbsolute) := any_toTraits _ _
    _ = (second.visibleChildren.map Node.toTraits).any (·.forcedAbsolute) := by rw [h.children]
    _ = second.visibleChildren.any (·.forcedAbsolute) := (any_toTraits _ _).symm

theorem isEmpty_visibleChildren_congr (h : first.LooksLike second) :
    first.visibleChildren.isEmpty = second.visibleChildren.isEmpty := by
  rw [← List.isEmpty_map (f := Node.toTraits), h.children, List.isEmpty_map]

theorem hasAutoLayout_congr (h : first.LooksLike second) :
    first.hasAutoLayout = second.hasAutoLayout :=
  congrArg Traits.hasAutoLayout h.traits

theorem needsContainingBlock_congr (h : first.LooksLike second) :
    needsContainingBlock first = needsContainingBlock second := by
  rw [needsContainingBlock, needsContainingBlock, isEmpty_visibleChildren_congr h,
    any_forcedAbsolute_congr h, hasAutoLayout_congr h]

/-- The labels among the visible children say the same of themselves. -/
theorem map_toTraits_labels (h : first.LooksLike second) :
    (first.visibleChildren.filter (·.isText)).map Node.toTraits
      = (second.visibleChildren.filter (·.isText)).map Node.toTraits := by
  have hlabels (nodes : List Node) : (nodes.filter (·.isText)).map Node.toTraits
      = (nodes.map Node.toTraits).filter (·.isText) := by
    rw [List.filter_map]
    rfl
  rw [hlabels, hlabels, h.children]

theorem soleLabelStyle?_congr (h : first.LooksLike second) :
    soleLabelStyle? first = soleLabelStyle? second := by
  have hlabels := map_toTraits_labels h
  have hexcluded : (first.isText || first.hasAutoLayout
        || first.visibleChildren.any (·.forcedAbsolute))
      = (second.isText || second.hasAutoLayout
        || second.visibleChildren.any (·.forcedAbsolute)) := by
    rw [any_forcedAbsolute_congr h, hasAutoLayout_congr h, h.traits]
  rw [soleLabelStyle?, soleLabelStyle?, hexcluded]
  -- there are as many labels on both sides, and a single one says the same of its style
  generalize first.visibleChildren.filter (·.isText) = labels at hlabels ⊢
  generalize second.visibleChildren.filter (·.isText) = others at hlabels ⊢
  match labels, others, hlabels with
  | [], [], _ => rfl
  | [label], [other], hlabels =>
    have hlabel : label.toTraits = other.toTraits := (List.cons.inj hlabels).1
    show (if _ then none else label.style) = if _ then none else other.style
    rw [hlabel]
  | _ :: _ :: _, _ :: _ :: _, _ => rfl
  | [_], _ :: _ :: _, hlabels => simp at hlabels
  | _ :: _ :: _, [_], hlabels => simp at hlabels

/-- **The alignment around a single label** is decided by what the visible children say. -/
theorem inferredAlignment_congr (h : first.LooksLike second) :
    inferredAlignment first = inferredAlignment second := by
  rw [inferredAlignment, inferredAlignment, soleLabelStyle?_congr h]

/-! ### Looking at the parent -/

section Parent

variable {parent other : Option Node}

/-- **How a node is placed** is decided by what the node, its parent and its visible children say.
-/
theorem positionMode_congr (h : first.LooksLike second)
    (hparent : parent.map Node.toTraits = other.map Node.toTraits) (isRoot : Bool) :
    positionMode first parent isRoot = positionMode second other isRoot := by
  have hlayout (node : Option Node) :
      node.any (·.hasAutoLayout) = (node.map Node.toTraits).any (·.hasAutoLayout) := by
    cases node with
    | none => rfl
    | some node => rfl
  rw [positionMode, positionMode, needsContainingBlock_congr h, hlayout parent, hlayout other,
    hparent, h.traits]

theorem offset_congr (h : first.LooksLike second)
    (hparent : parent.map Node.toTraits = other.map Node.toTraits) :
    offset first parent = offset second other := by
  have hbox (node : Option Node) :
      node.bind (·.box) = (node.map Node.toTraits).bind (·.box) := by
    cases node with
    | none => rfl
    | some node => rfl
  rw [offset, offset, hbox parent, hbox other, hparent, h.traits]

theorem positioning_congr (h : first.LooksLike second)
    (hparent : parent.map Node.toTraits = other.map Node.toTraits) (isRoot : Bool) :
    positioning first parent isRoot = positioning second other isRoot := by
  rw [positioning, positioning, placement, placement, positionMode_congr h hparent,
    offset_congr h hparent]

/-! ### The block -/

theorem layoutEntries_congr (h : first.LooksLike second) :
    layoutEntries first = layoutEntries second := by
  have hflex : flexLayout first = flexLayout second := by
    obtain ⟨t, children⟩ := first
    obtain ⟨t', children'⟩ := second
    obtain rfl : t = t' := h.traits
    rfl
  rw [layoutEntries, layoutEntries, hflex, inferredAlignment_congr h, hasAutoLayout_congr h]

/-- **Nodes that look alike have the same declarations**, or the same fault, below parents that say
the same of themselves. -/
theorem declarations_congr (h : first.LooksLike second)
    (hparent : parent.map Node.toTraits = other.map Node.toTraits) (isRoot : Bool) :
    declarations first parent isRoot = declarations second other isRoot := by
  have hposition : positionEntries first parent isRoot = positionEntries second other isRoot := by
    rw [positionEntries, positionEntries, positioning_congr h hparent]
  -- the other aspects look at nothing but what the node says of itself
  have hown : sizeEntries first = sizeEntries second ∧ surfaceEntries first = surfaceEntries second
      ∧ outlineEntries first = outlineEntries second ∧ shadowEntries first = shadowEntries second
      ∧ opacityEntries first = opacityEntries second ∧ textEntries first = textEntries second := by
    obtain ⟨t, children⟩ := first
    obtain ⟨t', children'⟩ := second
    obtain rfl : t = t' := h.traits
    exact ⟨rfl, rfl, rfl, rfl, rfl, rfl⟩
  obtain ⟨hsize, hsurface, houtline, hshadow, hopacity, htext⟩ := hown
  rw [declarations_eq, declarations_eq, entries, entries, hsize, hposition, layoutEntries_congr h,
    hsurface, houtline, hshadow, hopacity, htext]

end Parent

end Style

end Mockup
