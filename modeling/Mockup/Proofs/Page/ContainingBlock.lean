import Mockup.Proofs.Page.Reach
import Mockup.Proofs.Style.Properties

/-!
# Where offsets are measured from

A node that is placed at an offset is placed by a browser relative to the nearest node around it
whose `position` is not `static`, while its offset is computed from the rectangle of its parent. The
two agree only if that nearest node is the parent. The node looks up, at the layout of its parent;
the parent looks down, at its visible children. This module shows that the two decisions fit.

* `Visit.mode`, `Visit.declarations` — how the node of a visit is placed, and its block;
* `Style.needsContainingBlock_iff` — **a node has to contain** its visible children at an offset;
* `positionMode_ne_static` — **the decisions fit**: a child at an offset has a parent that is placed;
* `offsets_from_parent` — on the page of a tree, every offset is measured from the parent.
-/

namespace Mockup

/-! ### The two decisions -/

/-- How the node of a visit is placed. -/
def Visit.mode (v : Visit) : Style.PositionMode := Style.positionMode v.node v.parent v.isRoot

namespace Style

/-- A node that nothing forces out of the flow of its parent is placed where it stands if it has to
contain a child, and left in the flow otherwise. -/
theorem positionMode_laidOut {node : Node} {parent : Option Node}
    (unforced : node.forcedAbsolute = false) (laidOut : parent.any (·.hasAutoLayout) = true) :
    positionMode node parent false
      = if needsContainingBlock node then .relative else .static := by
  rw [positionMode, if_neg (by decide), if_neg (by simp [unforced]), if_pos laidOut]

/-- A child is at an offset when it is forced to, or when its parent does not lay it out. -/
theorem positionMode_child_eq_absolute_iff {child parent : Node} :
    positionMode child (some parent) false = .absolute
      ↔ child.forcedAbsolute = true ∨ parent.hasAutoLayout = false := by
  cases forced : child.forcedAbsolute with
  -- the child asks for it itself
  | true => simp [positionMode, forced]
  | false =>
    cases laidOut : parent.hasAutoLayout with
    -- the parent has no layout of its own
    | false => simp [positionMode, forced, laidOut]
    -- the child is in the flow, and relative or static
    | true =>
      have inFlow : (some parent).any (·.hasAutoLayout) = true := laidOut
      rw [positionMode_laidOut forced inFlow]
      split <;> simp

/-- **A node has to contain** the visible children that are at an offset. -/
theorem needsContainingBlock_iff {node : Node} :
    needsContainingBlock node = true
      ↔ ∃ child ∈ node.visibleChildren, positionMode child (some node) false = .absolute := by
  simp only [positionMode_child_eq_absolute_iff]
  rw [needsContainingBlock, Bool.and_eq_true, Bool.or_eq_true, Bool.not_eq_true',
    Bool.not_eq_true', List.isEmpty_eq_false_iff_exists_mem, List.any_eq_true]
  constructor
  -- some child is there, and the parent is free or a child forced
  · rintro ⟨⟨child, hchild⟩, free | forced⟩
    · exact ⟨child, hchild, .inr free⟩
    · obtain ⟨forcedChild, hmem, forced⟩ := forced
      exact ⟨forcedChild, hmem, .inl forced⟩
  -- the child that is absolute is the one needed
  · rintro ⟨child, hchild, forced | free⟩
    · exact ⟨⟨child, hchild⟩, .inr ⟨child, hchild, forced⟩⟩
    · exact ⟨⟨child, hchild⟩, .inl free⟩

/-- A node that is left in the flow has no child to contain. -/
theorem needsContainingBlock_of_static {node : Node} {parent : Option Node} {isRoot : Bool}
    (static : positionMode node parent isRoot = .static) : needsContainingBlock node = false := by
  rw [positionMode] at static
  split at static
  · cases static
  split at static
  -- what leaves the flow is absolute
  · cases static
  split at static
  -- in the flow the node is static only without an absolute child
  · split at static
    · cases static
    -- and then it needs no containing block
    · exact eq_false_of_ne_true ‹_›
  -- outside of it the node is absolute
  · cases static

end Style

/-- The node of a visit of a child is a visible child. -/
theorem Visit.IsChildOf.mem_visibleChildren {u v : Visit} (child : u.IsChildOf v) :
    u.node ∈ v.node.visibleChildren :=
  List.mem_filter.mpr ⟨child.mem, child.visible⟩

/-- The mode of a child is decided with its parent. -/
theorem Visit.IsChildOf.mode_eq {u v : Visit} (child : u.IsChildOf v) :
    u.mode = Style.positionMode u.node (some v.node) false := by
  unfold Visit.mode
  rw [child.parent, child.notRoot]

/-- **The decisions fit.** When a child is placed at an offset, its parent is not left in
the flow. -/
theorem positionMode_ne_static {u v : Visit} (child : u.IsChildOf v)
    (absolute : u.mode = .absolute) : v.mode ≠ .static := by
  intro static
  have contained : Style.needsContainingBlock v.node = true :=
    Style.needsContainingBlock_iff.mpr
      ⟨u.node, child.mem_visibleChildren, child.mode_eq.symm.trans absolute⟩
  rw [Style.needsContainingBlock_of_static static] at contained
  cases contained

/-! ### On the page of a tree -/

/-- The declarations of a visit. -/
def Visit.declarations (v : Visit) : Result Declarations :=
  Style.declarations v.node v.parent v.isRoot

/-- The rule of a visit holds its declarations. -/
theorem Visit.rule_eq_ok {v : Visit} {rule : Rule} (h : v.rule = .ok rule) :
    ∃ block, v.declarations = .ok block ∧ rule = ⟨v.className, block.text⟩ := by
  obtain ⟨text, htext, hrule⟩ := bind_eq_ok h
  obtain ⟨block, hblock, htext⟩ := bind_eq_ok htext
  obtain rfl : block.text = text := Except.ok.inj htext
  exact ⟨block, hblock, (Except.ok.inj hrule).symm⟩

/-- Every visit of a page that is converted has its rule in the stylesheet. -/
theorem exists_rule_of_follow {visits : List Visit} {rules : Stylesheet}
    (h : follow visits = (none, rules)) {v : Visit} (hv : v ∈ visits) :
    ∃ block, v.declarations = .ok block ∧ ⟨v.className, block.text⟩ ∈ rules := by
  have hmem : v.rule ∈ rules.map .ok := by
    rw [(follow_none h).2]
    exact List.mem_map_of_mem hv
  obtain ⟨rule, hrule, heq⟩ := List.mem_map.mp hmem
  obtain ⟨block, hblock, rfl⟩ := Visit.rule_eq_ok heq.symm
  exact ⟨block, hblock, hrule⟩

/-- **Offsets are measured from the parent.** On the page of a tree, every node but the roots has a
parent on the page, and the children of a node on the page that are not hidden are on the page. Both
have their blocks in the stylesheet. If the block of the child has `position: absolute`, that of the
parent has `position: relative` or `position: absolute`; and where both have a rectangle, `left` and
`top` are the differences between the corners of the two. -/
theorem offsets_from_parent {gap : Int} {root : Node} {page : Conversion}
    (h : convert gap root = .ok page) :
    ∃ rules, page = assemble gap (root.roots.map Node.elements) rules
      ∧ (∀ u ∈ rootVisits root.roots, u.isRoot = false →
          ∃ v ∈ rootVisits root.roots, u.IsChildOf v)
      ∧ ∀ v ∈ rootVisits root.roots, ∀ u, u.IsChildOf v →
          u ∈ rootVisits root.roots ∧
          ∃ inner outer, u.declarations = .ok inner ∧ ⟨u.className, inner.text⟩ ∈ rules
            ∧ v.declarations = .ok outer ∧ ⟨v.className, outer.text⟩ ∈ rules
            ∧ (("position", "absolute") ∈ inner.toList →
                (("position", "relative") ∈ outer.toList ∨ ("position", "absolute") ∈ outer.toList)
                ∧ ("position", "static") ∉ outer.toList
                ∧ ∀ box around, u.node.box = some box → v.node.box = some around →
                  ∃ left top,
                    (do Style.pixels (.num (← Style.difference box.x around.x))) = .ok left
                      ∧ (do Style.pixels (.num (← Style.difference box.y around.y))) = .ok top
                      ∧ ("left", left) ∈ inner.toList ∧ ("top", top) ∈ inner.toList) := by
  obtain ⟨rules, hfollow, hpage⟩ := convert_eq_ok h
  refine ⟨rules, hpage, fun u hu notRoot => rootVisits_parent hu notRoot, ?_⟩
  intro v hv u child
  -- the child is on the page with its parent
  have hu := mem_rootVisits_of_isChildOf child hv
  obtain ⟨inner, hinner, hinnerRule⟩ := exists_rule_of_follow hfollow hu
  obtain ⟨outer, houter, houterRule⟩ := exists_rule_of_follow hfollow hv
  refine ⟨hu, inner, outer, hinner, hinnerRule, houter, houterRule, fun positioned => ?_⟩
  -- what the two blocks declare are the modes of the two nodes
  change ("position", Style.PositionMode.absolute.name) ∈ inner.toList at positioned
  have absolute : u.mode = .absolute := ((Style.position_mem_iff hinner).mp positioned).symm
  have fits : v.mode ≠ .static := positionMode_ne_static child absolute
  have declared : ∀ mode, ("position", mode.name) ∈ outer.toList ↔ mode = v.mode :=
    fun _ => Style.position_mem_iff houter
  refine ⟨?_, fun static => fits ((declared .static).mp static).symm, ?_⟩
  -- the parent is relative or absolute
  · cases hmode : v.mode with
    | relative => exact .inl ((declared .relative).mpr hmode.symm)
    | absolute => exact .inr ((declared .absolute).mpr hmode.symm)
    | static => exact absurd hmode fits
  -- the offsets are measured from the parent's corner
  · intro box around hbox haround
    exact Style.offset_mem hinner absolute hbox (by rw [child.parent]; exact haround)

/-- A node that is forced to an offset. -/
def forcedNode : Node :=
  { id := "4", forcedAbsolute := true, box := some ⟨.ofInt 17, .ofInt 2, .ofInt 4, .ofInt 4⟩ }

/-- A row with that node in it. -/
def innerRow : Node :=
  { id := "3", layout := .horizontal, box := some ⟨.ofInt 5, .ofInt 5, .ofInt 9, .ofInt 9⟩
    children := some [forcedNode] }

/-- An artboard that is a row with that row in it. -/
def outerRow : Node := { id := "2", layout := .horizontal, children := some [innerRow] }

/-- A canvas with that artboard. -/
def nestedRows : Node := { id := "1", kind := .canvas, children := some [outerRow] }

/-- The inner row is in the flow of the artboard and still placed, so that the offset of the node in
it is measured from it. -/
theorem nestedRows_offsets : ∃ page, ∃ inner outer : Declarations,
    convert 32 nestedRows = .ok page
      ∧ Style.declarations forcedNode (some innerRow) false = .ok inner
      ∧ Style.declarations innerRow (some outerRow) false = .ok outer
      ∧ ("position", "absolute") ∈ inner.toList ∧ ("position", "relative") ∈ outer.toList
      ∧ ("left", "12px") ∈ inner.toList ∧ ("top", "-3px") ∈ inner.toList := by
  have converted : (convert 32 nestedRows).toOption.isSome = true := by decide +kernel
  obtain ⟨page, hpage⟩ := Option.isSome_iff_exists.mp converted
  have hpage := eq_ok_of_toOption hpage
  obtain ⟨rules, -, -, hchildren⟩ := offsets_from_parent hpage
  -- the inner row is a child of the outer one, and the forced node of the inner
  obtain ⟨-, inner, outer, hinner, -, houter, -, hplace⟩ :=
    hchildren ⟨innerRow, some outerRow, false⟩ (.tail _ (.head _))
      ⟨forcedNode, some innerRow, false⟩ ⟨rfl, .head _, rfl, rfl, rfl⟩
  -- the forced node is absolute, and the row around it relative
  have positioned : ("position", "absolute") ∈ inner.toList :=
    (@Style.position_mem_iff _ _ _ _ hinner .absolute).mpr rfl
  obtain ⟨placed, static, hoffset⟩ := hplace positioned
  obtain ⟨left, top, hleft, htop, hoffsets⟩ := hoffset _ _ rfl rfl
  have relative : ("position", "relative") ∈ outer.toList :=
    (@Style.position_mem_iff _ _ _ _ houter .relative).mpr rfl
  -- 17 - 5 across and 2 - 5 down
  have left_eq : (do Style.pixels (.num (← Style.difference (.ofInt 17) (.ofInt 5)))) = .ok "12px" :=
    eq_ok_of_toOption (by decide +kernel)
  have top_eq : (do Style.pixels (.num (← Style.difference (.ofInt 2) (.ofInt 5)))) = .ok "-3px" :=
    eq_ok_of_toOption (by decide +kernel)
  obtain rfl : "12px" = left := Except.ok.inj (left_eq.symm.trans hleft)
  obtain rfl : "-3px" = top := Except.ok.inj (top_eq.symm.trans htop)
  exact ⟨page, inner, outer, hpage, hinner, houter, positioned, relative, hoffsets⟩

end Mockup
