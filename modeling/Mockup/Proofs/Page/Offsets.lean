import Mathlib.Algebra.Ring.Int.Defs
import Mathlib.Data.List.Forall2
import Mockup.Proofs.Number.Exact
import Mockup.Proofs.Page.ContainingBlock

/-!
# Offsets along a path of the page

A document gives every node a rectangle in the coordinates of the whole document, and a page gives
it an offset from its parent. Nothing is lost by that: along a path of nodes that are placed at
offsets, each offset takes away the corner of the node before, and what is left of all of them is
the way from the first corner to the last.

* `Style.value?_of_not_absolute` — a node that is not placed at an offset declares none;
* `Visit.HasCorner` — the node of a visit has a rectangle with an integer corner;
* `Visit.OffsetBy` — the rule of a visit declares two integers as its offset;
* `Visit.offsetBy_of_corners` — **the offset of a child is the difference of the corners**;
* `Telescopes` — the offsets along some steps add up to the difference between the two ends;
* `telescopes_of_isPath`, `offsets_telescope` — **so they do along every path of the page**.
-/

namespace Mockup

/-! ### Nodes without an offset -/

namespace Style

variable {node : Node} {parent : Option Node} {isRoot : Bool} {block : Declarations}

/-- What belongs to the place of a node is no offset unless its mode says so. -/
theorem placement_of_not_absolute (mode : positionMode node parent isRoot ≠ .absolute) :
    placement node parent isRoot
      = .ok (if isRoot then [("overflow", "hidden"), ("background-color", "white")] else []) := by
  cases isRoot with
  | true => rfl
  | false => rw [placement, if_neg (by decide), if_neg mode]; rfl

/-- **A node that is not placed at an offset declares none.** -/
theorem value?_of_not_absolute (h : declarations node parent isRoot = .ok block)
    (mode : positionMode node parent isRoot ≠ .absolute) {property : String}
    (offset : property ∈ ["left", "top"]) : block.value? property = none := by
  -- the block is its size, its place and what is declared later
  obtain ⟨size, place, later, hsize, hplace, hlater, rfl⟩ := declarations_eq_ok h
  obtain ⟨rest, rfl, hrest⟩ := positioning_eq_ok hplace
  -- what is not absolute gets no offsets
  obtain rfl := Except.ok.inj ((placement_of_not_absolute mode).symm.trans hrest)
  -- none of the three parts of the block mentions the property
  have outside : ∀ property ∈ ["left", "top"], property ∉ sizeProperties
      ∧ property ∉ ["position", "overflow", "background-color"]
      ∧ property ∉ laterProperties := by decide
  obtain ⟨hsized, hplaced, hmentioned⟩ := outside property offset
  have unsized := (size_mentions node).notMem hsize hsized
  -- the place has the position, and for a root what it shows
  have unmentioned := (later_mentions node).notMem hlater hmentioned
  have unplaced : property ∉ Entries.names (Entries.given
      (("position", (positionMode node parent isRoot).name)
        :: if isRoot then [("overflow", "hidden"), ("background-color", "white")] else [])) := by
    rw [Entries.names_given]
    -- a root clips its content on a white ground
    cases isRoot with
    | true => exact hplaced
    | false => exact fun hmem => hplaced (List.mem_singleton.mp hmem ▸ List.mem_cons_self)
  rw [Declarations.value?_addAll_of_notMem unmentioned,
    Declarations.value?_addAll_of_notMem unplaced, Declarations.value?_addAll_of_notMem unsized]
  rfl

end Style

/-! ### Corners and offsets -/

namespace Visit

/-- **The node of a visit has a rectangle with an integer corner** in the range in which differences
are exact. -/
def HasCorner (v : Visit) (x y : Int) : Prop :=
  ∃ box, v.node.box = some box ∧ box.x.IsInteger x ∧ box.y.IsInteger y
    ∧ x.natAbs ≤ 2 ^ 52 ∧ y.natAbs ≤ 2 ^ 52

/-- **The rule of a visit declares an offset** of two integers, written in pixels. -/
def OffsetBy (rules : Stylesheet) (v : Visit) (dx dy : Int) : Prop :=
  ∃ block, v.declarations = .ok block ∧ ⟨v.className, block.text⟩ ∈ rules
    ∧ block.value? "left" = some (integerNumeral dx ++ "px")
    ∧ block.value? "top" = some (integerNumeral dy ++ "px")

/-- The rule of a visit declares no offset. -/
def WithoutOffset (rules : Stylesheet) (v : Visit) : Prop :=
  ∃ block, v.declarations = .ok block ∧ ⟨v.className, block.text⟩ ∈ rules
    ∧ block.value? "left" = none ∧ block.value? "top" = none

variable {rules : Stylesheet} {u v : Visit} {x y x' y' : Int}

theorem HasCorner.unique (h : v.HasCorner x y) (h' : v.HasCorner x' y') : x = x' ∧ y = y' := by
  obtain ⟨box, hbox, hx, hy, -, -⟩ := h
  obtain ⟨box', hbox', hx', hy', -, -⟩ := h'
  obtain rfl := Option.some.inj (hbox.symm.trans hbox')
  exact ⟨hx.unique hx', hy.unique hy'⟩

theorem OffsetBy.unique (h : v.OffsetBy rules x y) (h' : v.OffsetBy rules x' y') :
    x = x' ∧ y = y' := by
  obtain ⟨block, hblock, -, hleft, htop⟩ := h
  obtain ⟨block', hblock', -, hleft', htop'⟩ := h'
  obtain rfl := Except.ok.inj (hblock.symm.trans hblock')
  have hnumerals (a b : Int) (h : integerNumeral a ++ "px" = integerNumeral b ++ "px") : a = b :=
    integerNumeral_inj ((String.append_left_inj _).mp h)
  exact ⟨hnumerals _ _ (Option.some.inj (hleft.symm.trans hleft')),
    hnumerals _ _ (Option.some.inj (htop.symm.trans htop'))⟩

/-- **The offset of a child is the difference of the corners.** -/
theorem offsetBy_of_corners {visits : List Visit} (hfollow : follow visits = (none, rules))
    (hu : u ∈ visits) (child : u.IsChildOf v) (absolute : u.mode = .absolute)
    (inner : u.HasCorner x y) (outer : v.HasCorner x' y') :
    u.OffsetBy rules (x - x') (y - y') := by
  obtain ⟨box, hbox, hx, hy, hxbound, hybound⟩ := inner
  obtain ⟨around, haround, hx', hy', hxbound', hybound'⟩ := outer
  -- the rule of the visit is its block
  obtain ⟨block, hblock, hrule⟩ := exists_rule_of_follow hfollow hu
  -- the parent's box is the one measured from
  have hparent : u.parent.bind (·.box) = some around := by rw [child.parent]; exact haround
  -- the offsets are the printed differences, and differences of integers are exact
  obtain ⟨left, top, hleft, htop, hleftMem, htopMem⟩ :=
    Style.offset_mem hblock absolute hbox hparent
  obtain rfl := Except.ok.inj ((Style.pixels_difference hx hx' hxbound hxbound').symm.trans hleft)
  obtain rfl := Except.ok.inj ((Style.pixels_difference hy hy' hybound hybound').symm.trans htop)
  -- a property declared once is the value found
  have nodup := Style.nodup_properties hblock
  exact ⟨block, hblock, hrule, (Declarations.value?_eq_some nodup).mpr hleftMem,
    (Declarations.value?_eq_some nodup).mpr htopMem⟩

end Visit

/-! ### Along a path -/

/-- **A path of the page**: visits, each of a child of the one before. -/
def IsPath (visits : List Visit) : Prop := visits.IsChain fun v u => u.IsChildOf v

/-- The integers of two directions, one for each visit. -/
def Offsets (rules : Stylesheet) (visits : List Visit) (offsets : List (Int × Int)) : Prop :=
  List.Forall₂ (fun v offset => v.OffsetBy rules offset.1 offset.2) visits offsets

/-- **Offsets telescope** along the steps from a start: every visit but the start has one, and
whatever these are, they add up to the difference between the corners at the two ends. -/
structure Telescopes (rules : Stylesheet) (start : Visit) (steps : List Visit) : Prop where
  declared : ∀ u ∈ steps, ∃ dx dy, u.OffsetBy rules dx dy
  sums : ∀ offsets, Offsets rules steps offsets → ∀ x₀ y₀ x y, start.HasCorner x₀ y₀ →
    ((start :: steps).getLast (List.cons_ne_nil _ _)).HasCorner x y →
    (offsets.map Prod.fst).sum = x - x₀ ∧ (offsets.map Prod.snd).sum = y - y₀

section Paths

variable {rules : Stylesheet} {start u : Visit} {rest : List Visit}

/-- There is nothing to add up where a path ends. -/
theorem Telescopes.nil : Telescopes rules start [] where
  declared := List.forall_mem_nil _
  sums offsets hoffsets x₀ y₀ x y first last := by
    obtain rfl := List.forall₂_nil_left_iff.mp hoffsets
    obtain ⟨rfl, rfl⟩ := first.unique last
    exact ⟨(Int.sub_self _).symm, (Int.sub_self _).symm⟩

/-- One more step before others: the corner that its offset leads to is the one that theirs lead
from. -/
theorem Telescopes.cons {x₀ y₀ x₁ y₁ : Int} (first : start.HasCorner x₀ y₀)
    (second : u.HasCorner x₁ y₁) (offset : u.OffsetBy rules (x₁ - x₀) (y₁ - y₀))
    (further : Telescopes rules u rest) : Telescopes rules start (u :: rest) where
  declared := List.forall_mem_cons.mpr ⟨⟨_, _, offset⟩, further.declared⟩
  sums offsets hoffsets x₀' y₀' x y first' last := by
    -- the corner of the start is one corner only
    obtain ⟨rfl, rfl⟩ := first.unique first'
    -- the first offset and the others
    obtain ⟨here, others, declared, hothers, rfl⟩ := List.forall₂_cons_left_iff.mp hoffsets
    obtain ⟨hx, hy⟩ := declared.unique offset
    obtain ⟨hsumx, hsumy⟩ := further.sums others hothers x₁ y₁ x y second last
    constructor
    · calc ((here :: others).map Prod.fst).sum
          = here.1 + (others.map Prod.fst).sum := List.sum_cons
        _ = (x₁ - x₀) + (x - x₁) := by rw [hx, hsumx]
        _ = x - x₀ := by omega
    · calc ((here :: others).map Prod.snd).sum
          = here.2 + (others.map Prod.snd).sum := List.sum_cons
        _ = (y₁ - y₀) + (y - y₁) := by rw [hy, hsumy]
        _ = y - y₀ := by omega

/-- **Offsets telescope along a path** whose visits after the first are placed at offsets, where all
rectangles have integer corners. The induction is on the path from its start. -/
theorem telescopes_of_isPath {roots : List Node}
    (hfollow : follow (rootVisits roots) = (none, rules)) (steps : List Visit) :
    ∀ start ∈ rootVisits roots, IsPath (start :: steps) → (∀ u ∈ steps, u.mode = .absolute) →
      (∀ v ∈ start :: steps, ∃ x y, v.HasCorner x y) → Telescopes rules start steps := by
  induction steps with
  | nil =>
    intro start _ _ _ _
    exact .nil
  -- the path grows at its start, from the first step to the rest of it
  | cons u rest ih =>
    intro start hstart path absolute corners
    -- the first step leads to a child
    obtain ⟨child, further⟩ := List.isChain_cons_cons.mp path
    obtain ⟨hu, hrest⟩ := List.forall_mem_cons.mp absolute
    obtain ⟨⟨x₀, y₀, first⟩, hcorners⟩ := List.forall_mem_cons.mp corners
    obtain ⟨x₁, y₁, second⟩ := hcorners u List.mem_cons_self
    -- a child of what is on the page is on the page
    have hmem := mem_rootVisits_of_isChildOf child hstart
    have hoffset := Visit.offsetBy_of_corners hfollow hmem child hu second first
    exact .cons first second hoffset (ih u hmem further hrest hcorners)

end Paths

/-- **Offsets telescope.** On the page of a tree, neither an artboard nor any other node that is not
placed at an offset declares `left` or `top`. Along a path of the page whose nodes after the first
are placed at offsets, where the rectangles of all of them have integer corners, every node after
the first declares an integer number of pixels for both, and whatever these are, they add up to the
difference between the corners at the two ends of the path. -/
theorem offsets_telescope {gap : Int} {root : Node} {page : Conversion}
    (h : convert gap root = .ok page) :
    ∃ rules, page = assemble gap (root.roots.map Node.elements) rules
      ∧ (∀ v ∈ rootVisits root.roots, v.isRoot = true ∨ v.mode ≠ .absolute →
          v.WithoutOffset rules)
      ∧ ∀ start ∈ rootVisits root.roots, ∀ steps, IsPath (start :: steps) →
          (∀ u ∈ steps, u.mode = .absolute) →
          (∀ v ∈ start :: steps, ∃ x y, v.HasCorner x y) → Telescopes rules start steps := by
  obtain ⟨rules, hfollow, hpage⟩ := convert_eq_ok h
  -- a node that is no absolute one has no offsets
  refine ⟨rules, hpage, fun v hv place => ?_, fun start hstart steps =>
    telescopes_of_isPath hfollow steps start hstart⟩
  obtain ⟨block, hblock, hrule⟩ := exists_rule_of_follow hfollow hv
  have mode : v.mode ≠ .absolute := by
    rcases place with isRoot | mode
    · -- a root is where offsets are measured from
      rw [Visit.mode, isRoot]
      exact nofun
    -- nor has one that is placed by the flow or relative
    · exact mode
  exact ⟨block, hblock, hrule, Style.value?_of_not_absolute hblock mode (by decide),
    Style.value?_of_not_absolute hblock mode (by decide)⟩

/-- A box whose left edge is written as a double. -/
def innerBox : Node :=
  { id := "1:3", kind := .rectangle
    box := some ⟨.num (.double (.ofRatio false 7 1)), .ofInt 4, .ofInt 2, .ofInt 2⟩ }

/-- A box around that box. -/
def outerBox : Node :=
  { id := "1:2", kind := .group, box := some ⟨.ofInt 3, .ofInt 20, .ofInt 9, .ofInt 9⟩
    children := some [innerBox] }

/-- An artboard around both, on the far side of the origin. -/
def boxedBoard : Node :=
  { id := "1:1", box := some ⟨.ofInt (-10), .ofInt 5, .ofInt 50, .ofInt 50⟩
    children := some [outerBox] }

/-- The visit of the artboard. -/
def boardVisit : Visit := ⟨boxedBoard, some boxedBoard, true⟩

/-- The visit of the outer box. -/
def outerVisit : Visit := ⟨outerBox, some boxedBoard, false⟩

/-- The visit of the inner box. -/
def innerVisit : Visit := ⟨innerBox, some outerBox, false⟩

/-- From the artboard to the inner box it is 17 pixels to the right and one up, in two steps. -/
theorem boxedBoard_offsets : ∃ page rules, convert 32 boxedBoard = .ok page
    ∧ page = assemble 32 (boxedBoard.roots.map Node.elements) rules
    ∧ boardVisit.WithoutOffset rules
    ∧ ∃ offsets, Offsets rules [outerVisit, innerVisit] offsets
      ∧ (offsets.map Prod.fst).sum = 17 ∧ (offsets.map Prod.snd).sum = -1 := by
  obtain ⟨page, hpage⟩ := exists_ok_of_isSome
    (show (convert 32 boxedBoard).toOption.isSome = true by decide +kernel)
  obtain ⟨rules, hmade, hwithout, hpaths⟩ := offsets_telescope hpage
  -- the path from the artboard over the outer box to the inner one
  have hboard : boardVisit ∈ rootVisits boxedBoard.roots := .head _
  have path : IsPath [boardVisit, outerVisit, innerVisit] :=
    .cons_cons ⟨rfl, .head _, rfl, rfl, rfl⟩
      (.cons_cons ⟨rfl, .head _, rfl, rfl, rfl⟩ (.singleton _))
  -- the three corners, the last one a double with an integer value
  have first : boardVisit.HasCorner (-10) 5 :=
    ⟨_, rfl, ⟨_, rfl, .whole _⟩, ⟨_, rfl, .whole _⟩, by decide, by decide⟩
  have middle : outerVisit.HasCorner 3 20 :=
    ⟨_, rfl, ⟨_, rfl, .whole _⟩, ⟨_, rfl, .whole _⟩, by decide, by decide⟩
  have seven : (Binary64.ofRatio false 7 1).IsInteger 7 :=
    Binary64.isInteger_ofRatio (m := 7) Nat.one_pos (by decide) false
  have last : innerVisit.HasCorner 7 4 :=
    ⟨_, rfl, ⟨_, rfl, .double seven⟩, ⟨_, rfl, .whole _⟩, by decide, by decide⟩
  -- both boxes are placed by hand
  have absolute : ∀ u ∈ [outerVisit, innerVisit], u.mode = .absolute := by
    simp only [List.forall_mem_cons, List.not_mem_nil, false_imp_iff, implies_true, and_true]
    exact ⟨rfl, rfl⟩
  have corners : ∀ v ∈ [boardVisit, outerVisit, innerVisit], ∃ x y, v.HasCorner x y := by
    simp only [List.forall_mem_cons, List.not_mem_nil, false_imp_iff, implies_true, and_true]
    exact ⟨⟨_, _, first⟩, ⟨_, _, middle⟩, ⟨_, _, last⟩⟩
  -- the offsets are declared, and they sum up to the difference of the corners
  obtain ⟨declared, sums⟩ := hpaths _ hboard _ path absolute corners
  obtain ⟨dx, dy, houter⟩ := declared _ (.head _)
  obtain ⟨dx', dy', hinner⟩ := declared _ (.tail _ (.head _))
  have hoffsets : Offsets rules [outerVisit, innerVisit] [(dx, dy), (dx', dy')] :=
    .cons houter (.cons hinner .nil)
  exact ⟨page, rules, hpage, hmade, hwithout _ hboard (.inl rfl), _, hoffsets,
    sums _ hoffsets _ _ _ _ first last⟩

end Mockup
