import Mockup.Proofs.Page.ContainingBlock

/-!
# Nodes that are promoted out of the flow

A node in the flow of its parent is promoted from `static` to `relative` so that offsets can be
measured from it. It decides so by looking at its visible children alone, before the walk gets to
them. The law of promotion is that it is exact: a node is promoted just when the walk goes on from it
to a child at an offset. The walk does not go on from a label, nor from a hidden node, and there the
decision and the walk part.

* `Node.ReachesOffsetChild` — the walk goes on from a node to a child at an offset;
* `Node.PromotedExactly` — the law of promotion;
* `Node.promotedExactly_iff` — **when it holds**: the walk goes on from the node, or has nothing to
  go on to;
* `promoted_of_mem_rootVisits` — on the page of a tree, everything but a label keeps the law.
-/

namespace Mockup

namespace Node

variable {node : Node} {parent : Option Node}

/-- A visible child of the node would be placed at an offset. -/
def HasOffsetChild (node : Node) : Prop :=
  ∃ child ∈ node.visibleChildren, Style.positionMode child (some node) false = .absolute

/-- The walk over a node in its parent goes on to a visible child that is placed at an offset. -/
def ReachesOffsetChild (node : Node) (parent : Option Node) : Prop :=
  ∃ u ∈ node.visits parent false, u.IsChildOf ⟨node, parent, false⟩ ∧ u.mode = .absolute

/-- **The law of promotion**: a node is placed where it stands just when the walk goes on from it to
a child at an offset, and left in the flow otherwise. -/
structure PromotedExactly (node : Node) (parent : Option Node) : Prop where
  relative : Style.positionMode node parent false = .relative ↔ node.ReachesOffsetChild parent
  static : Style.positionMode node parent false = .static ↔ ¬ node.ReachesOffsetChild parent

/-- **A node that nothing forces out of the flow** is promoted for any child that would be at an
offset. -/
theorem positionMode_of_laidOut (unforced : node.forcedAbsolute = false)
    (laidOut : parent.any (·.hasAutoLayout) = true) :
    (Style.positionMode node parent false = .relative ↔ node.HasOffsetChild)
      ∧ (Style.positionMode node parent false = .static ↔ ¬ node.HasOffsetChild) := by
  have needed : Style.needsContainingBlock node = true ↔ node.HasOffsetChild :=
    Style.needsContainingBlock_iff
  rw [Style.positionMode_laidOut unforced laidOut, ← needed]
  split
  · exact ⟨iff_of_true rfl ‹_›, iff_of_false (by decide) (not_not_intro ‹_›)⟩
  · exact ⟨iff_of_false (by decide) ‹_›, iff_of_true rfl ‹_›⟩

/-- The visible children of a node that is no label are visited as its children. -/
theorem hasOffsetChild_iff_of_notText {v : Visit} (notText : v.node.isText = false) :
    v.node.HasOffsetChild ↔ ∃ u : Visit, u.IsChildOf v ∧ u.mode = .absolute := by
  constructor
  · rintro ⟨child, hchild, absolute⟩
    obtain ⟨hmem, visible⟩ := List.mem_filter.mp hchild
    exact ⟨⟨child, some v.node, false⟩, ⟨notText, hmem, visible, rfl, rfl⟩, absolute⟩
  · rintro ⟨u, child, absolute⟩
    exact ⟨u.node, child.mem_visibleChildren, child.mode_eq.symm.trans absolute⟩

/-- **The walk goes on** to the visible children of a node that is neither hidden nor a label. -/
theorem reachesOffsetChild_iff :
    node.ReachesOffsetChild parent
      ↔ (node.visible = true ∧ node.isText = false) ∧ node.HasOffsetChild := by
  constructor
  -- the walk reaches a child, so it went through the node
  · rintro ⟨u, hu, child, absolute⟩
    have hasChild := (hasOffsetChild_iff_of_notText child.notText).mpr ⟨u, child, absolute⟩
    refine ⟨⟨?_, child.notText⟩, hasChild⟩
    obtain ⟨t, children⟩ := node
    exact (mem_visits.mp hu).1
  -- the walk goes through the node, so it reaches the child
  · rintro ⟨⟨visible, notText⟩, hasChild⟩
    have first := mem_visits_self visible parent false
    have noLabel : (⟨node, parent, false⟩ : Visit).node.isText = false := notText
    obtain ⟨u, child, absolute⟩ := (hasOffsetChild_iff_of_notText noLabel).mp hasChild
    exact ⟨u, mem_visits_of_isChildOf child node _ _ first, child, absolute⟩

/-- **When promotion is exact.** A node in the flow of its parent is promoted when a visible child
would be at an offset, and left alone otherwise. This is exact for the nodes that the walk goes on
from, which are neither hidden nor labels, and for those that have no such child. -/
theorem promotedExactly_iff (unforced : node.forcedAbsolute = false)
    (laidOut : parent.any (·.hasAutoLayout) = true) :
    (Style.positionMode node parent false = .relative ↔ node.HasOffsetChild)
      ∧ (Style.positionMode node parent false = .static ↔ ¬ node.HasOffsetChild)
      ∧ (node.PromotedExactly parent
          ↔ (node.visible = true ∧ node.isText = false) ∨ ¬ node.HasOffsetChild) := by
  obtain ⟨relative, static⟩ := positionMode_of_laidOut unforced laidOut
  -- the mode is decided by the children there are
  refine ⟨relative, static, ?_, fun goesOn => ?_⟩
  · intro exactly
    by_cases offset : node.HasOffsetChild
    · -- the walk goes on from a node that is promoted for a child
      have reached := exactly.relative.mp (relative.mpr offset)
      exact .inl (reachesOffsetChild_iff.mp reached).1
    -- without such a child nothing is promoted
    · exact .inr offset
  -- where the walk goes on, it meets the children there are
  · have reached : node.ReachesOffsetChild parent ↔ node.HasOffsetChild := by
      rw [reachesOffsetChild_iff]
      exact and_iff_right_of_imp fun offset => goesOn.resolve_right (not_not_intro offset)
    exact ⟨relative.trans reached.symm, static.trans (not_congr reached.symm)⟩

/-- A row in the flow of an artboard, with a child that is forced to an offset. -/
theorem innerRow_promotedExactly :
    Style.positionMode innerRow (some outerRow) false = .relative
      ∧ innerRow.ReachesOffsetChild (some outerRow)
      ∧ innerRow.PromotedExactly (some outerRow) := by
  have unforced : innerRow.forcedAbsolute = false := rfl
  have laidOut : (some outerRow).any (·.hasAutoLayout) = true := rfl
  obtain ⟨-, -, exactly⟩ := promotedExactly_iff unforced laidOut
  have promoted := exactly.mpr (.inl ⟨rfl, rfl⟩)
  exact ⟨rfl, promoted.relative.mp rfl, promoted⟩

/-- A label with a box below it. -/
def boxedLabel : Node := { id := "2", kind := .text, children := some [{ id := "3" }] }

/-- A row with that label in it. -/
def labelRow : Node := { id := "1", layout := .horizontal, children := some [boxedLabel] }

/-- **A label is promoted for a child that nothing shows.** -/
theorem boxedLabel_not_promotedExactly :
    Style.positionMode boxedLabel (some labelRow) false = .relative
      ∧ boxedLabel.visits (some labelRow) false = [⟨boxedLabel, some labelRow, false⟩]
      ∧ ¬ boxedLabel.PromotedExactly (some labelRow) := by
  refine ⟨rfl, rfl, fun exactly => ?_⟩
  have reached := exactly.relative.mp rfl
  exact absurd (reachesOffsetChild_iff.mp reached).1.2 (by decide)

end Node

/-- **On the page of a tree**, a node that is no label and that nothing forces out of the flow of its
parent is promoted just when one of its children on the page is at an offset. -/
theorem promoted_of_mem_rootVisits {roots : List Node} {v : Visit} (hv : v ∈ rootVisits roots)
    (inner : v.isRoot = false) (notText : v.node.isText = false)
    (unforced : v.node.forcedAbsolute = false)
    (laidOut : v.parent.any (·.hasAutoLayout) = true) :
    (v.mode = .relative ↔ ∃ u ∈ rootVisits roots, u.IsChildOf v ∧ u.mode = .absolute)
      ∧ (v.mode = .static ↔ ¬ ∃ u ∈ rootVisits roots, u.IsChildOf v ∧ u.mode = .absolute) := by
  -- the child that is looked for is on the page
  have onPage : v.node.HasOffsetChild
      ↔ ∃ u ∈ rootVisits roots, u.IsChildOf v ∧ u.mode = .absolute := by
    rw [Node.hasOffsetChild_iff_of_notText notText]
    constructor
    · rintro ⟨u, child, absolute⟩
      exact ⟨u, mem_rootVisits_of_isChildOf child hv, child, absolute⟩
    · rintro ⟨u, -, child, absolute⟩
      exact ⟨u, child, absolute⟩
  rw [← onPage, Visit.mode, inner]
  -- so the mode is decided by what is on the page
  exact Node.positionMode_of_laidOut unforced laidOut

end Mockup
