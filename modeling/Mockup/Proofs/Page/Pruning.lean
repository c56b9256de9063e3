import Mathlib.Data.List.Basic
import Mockup.Proofs.Page.ContainingBlock
import Mockup.Proofs.Style.Locality

/-!
# What is hidden does not interfere

A walk passes by what is hidden. That alone does not say that what is hidden has no influence: three
decisions about a node look down at its children, and the children of a label are not walked over
but still looked at. This module compares a tree with what is left of it when everything hidden
below its node is taken away.

* `Node.pruned` — the tree without what is hidden below its node;
* `looksLike_pruned` — it looks like the tree, so its own decisions are the same;
* `Visit.look` — what a visit comes to: the decisions about its node, its rule and its fault;
* `look_visits_pruned` — **pruning keeps what every visit comes to**, one by one;
* `emit_eq_of_pruned_eq` — so walks over trees that are equal once pruned come to the same.

The parents that are handed down are different nodes in the two walks. The invariant of the
induction is therefore that the parents say the same of themselves, which is all that a child looks
at.
-/

namespace Mockup

/-! ### Taking away what is hidden -/

mutual

/-- **A tree without what is hidden below its node.** The node itself stays, hidden or not, and so
does the lack of a list of children. -/
def Node.pruned : Node → Node
  | ⟨t, none⟩ => ⟨t, none⟩
  | ⟨t, some children⟩ => ⟨t, some (prunedNodes children)⟩

/-- Nodes without those that are hidden, and without what is hidden below the others. -/
def prunedNodes : List Node → List Node
  | [] => []
  | child :: rest => if child.visible then child.pruned :: prunedNodes rest else prunedNodes rest

end

theorem toTraits_pruned (node : Node) : node.pruned.toTraits = node.toTraits := by
  obtain ⟨t, _ | children⟩ := node
  · rfl
  · rfl

theorem prunedNodes_eq (nodes : List Node) :
    prunedNodes nodes = (nodes.filter (·.visible)).map Node.pruned := by
  induction nodes with
  | nil => rfl
  | cons child rest ih =>
    rw [prunedNodes]
    cases visible : child.visible with
    | false => rw [if_neg (by decide), ih, List.filter_cons_of_neg (by simp [visible])]
    | true => rw [if_pos rfl, ih, List.filter_cons_of_pos (by simpa using visible), List.map_cons]

/-- A pruned tree, taken apart: the same traits, and the visible children, pruned. -/
theorem exists_pruned_eq (t : Traits) (children : Option (List Node)) :
    ∃ kept, (⟨t, children⟩ : Node).pruned = ⟨t, kept⟩
      ∧ kept.getD [] = (⟨t, children⟩ : Node).visibleChildren.map Node.pruned := by
  cases children with
  | none => exact ⟨none, rfl, rfl⟩
  | some children => exact ⟨some (prunedNodes children), rfl, prunedNodes_eq children⟩

/-- No child of a pruned tree is hidden. -/
theorem visibleChildren_pruned (node : Node) :
    node.pruned.visibleChildren = node.visibleChildren.map Node.pruned := by
  obtain ⟨t, children⟩ := node
  obtain ⟨kept, hpruned, hkept⟩ := exists_pruned_eq t children
  rw [hpruned, Node.visibleChildren, Node.childList_mk, hkept]
  refine List.filter_eq_self.mpr fun child hchild => ?_
  obtain ⟨original, horiginal, rfl⟩ := List.mem_map.mp hchild
  rw [toTraits_pruned]
  exact (List.mem_filter.mp horiginal).2

/-- **A pruned tree looks like the tree.** -/
theorem looksLike_pruned (node : Node) : node.pruned.LooksLike node where
  traits := toTraits_pruned node
  children := by
    rw [visibleChildren_pruned, List.map_map]
    exact List.map_congr_left fun child _ => toTraits_pruned child

/-- What is made of nodes one after the other, and nothing of the hidden ones, is made of the
visible ones. -/
theorem flatMap_visible {β : Type} {make : Node → List β}
    (hidden : ∀ node : Node, node.visible = false → make node = []) (nodes : List Node) :
    nodes.flatMap make = (nodes.filter (·.visible)).flatMap make := by
  induction nodes with
  | nil => rfl
  | cons node rest ih =>
    rw [List.flatMap_cons, ih]
    cases visible : node.visible with
    | false =>
      rw [hidden node visible, List.filter_cons_of_neg (by simp [visible]), List.nil_append]
    | true => rw [List.filter_cons_of_pos (by simpa using visible), List.flatMap_cons]

/-! ### What a visit comes to -/

/-- **What a visit comes to**: what the node says of itself, the decisions that look around it, and
the rule and the fault of the visit. -/
structure Visit.Look where
  traits : Traits
  mode : Style.PositionMode
  alignment : Result (List (String × String))
  rule : Result Rule
  fault? : Option Fault

/-- What one visit comes to. -/
def Visit.look (v : Visit) : Visit.Look :=
  ⟨v.node.toTraits, v.mode, Style.inferredAlignment v.node, v.rule, v.fault?⟩

section Look

variable {first second : Node} {parent other : Option Node}

/-- A visit comes to the same for nodes that look alike. -/
theorem Visit.look_congr (h : first.LooksLike second)
    (hparent : parent.map Node.toTraits = other.map Node.toTraits) (isRoot : Bool) :
    Visit.look ⟨first, parent, isRoot⟩ = Visit.look ⟨second, other, isRoot⟩ := by
  have hrule : Visit.rule ⟨first, parent, isRoot⟩ = Visit.rule ⟨second, other, isRoot⟩ := by
    rw [Visit.rule, Visit.rule, Visit.className, Visit.className, Style.block, Style.block,
      Style.declarations_congr h hparent, h.traits]
  have hfault : Visit.fault? ⟨first, parent, isRoot⟩ = Visit.fault? ⟨second, other, isRoot⟩ := by
    rw [Visit.fault?, Visit.fault?, hrule, Visit.textFault?, Visit.textFault?, h.traits]
  rw [Visit.look, Visit.look, Visit.mode, Visit.mode, Style.positionMode_congr h hparent,
    Style.inferredAlignment_congr h, hrule, hfault, h.traits]

end Look

/-- **Visits that come to the same are followed alike.** -/
theorem follow_congr {visits others : List Visit}
    (h : visits.map Visit.look = others.map Visit.look) : follow visits = follow others := by
  induction visits generalizing others with
  | nil =>
    obtain rfl := List.map_eq_nil_iff.mp h.symm
    rfl
  | cons v rest ih =>
    obtain ⟨u, further, rfl, hu, hfurther⟩ := List.map_eq_cons_iff.mp h.symm
    have hrule : u.rule = v.rule := congrArg Visit.Look.rule hu
    have hfault : u.fault? = v.fault? := congrArg Visit.Look.fault? hu
    rw [follow, follow, ih hfurther.symm, hfault, Visit.ownRules, Visit.ownRules, hrule]

/-! ### The walk over a pruned tree -/

/-- **Pruning keeps what every visit comes to**, below parents that say the same of themselves. -/
theorem look_visits_pruned (node : Node) : ∀ (parent other : Option Node) (isRoot : Bool),
    parent.map Node.toTraits = other.map Node.toTraits →
    (node.pruned.visits parent isRoot).map Visit.look
      = (node.visits other isRoot).map Visit.look := by
  induction node using Node.induction with
  | step t children ih =>
    intro parent other isRoot hparent
    -- the node looks like itself when pruned
    have hself : Visit.look ⟨(⟨t, children⟩ : Node).pruned, parent, isRoot⟩
        = Visit.look ⟨⟨t, children⟩, other, isRoot⟩ :=
      Visit.look_congr (looksLike_pruned _) hparent isRoot
    obtain ⟨kept, hpruned, hkept⟩ := exists_pruned_eq t children
    rw [hpruned] at hself ⊢
    cases visible : t.visible with
    -- a hidden node is not visited
    | false => rw [visits_of_hidden visible, visits_of_hidden visible]
    | true =>
      cases isText : t.isText with
      | true =>
        rw [visits_of_label visible isText, visits_of_label visible isText, List.map_singleton,
          List.map_singleton, hself]
      | false =>
        rw [visits_of_box visible isText, visits_of_box visible isText, childVisits_eq_flatMap,
          childVisits_eq_flatMap, List.map_cons, List.map_cons, hself]
        congr 1
        -- hidden children are not visited in the tree, and are not there in the pruned one
        have hhidden (child : Node) (hidden : child.visible = false) :
            child.visits (some ⟨t, children⟩) false = [] := by
          obtain ⟨ct, cchildren⟩ := child
          exact visits_of_hidden hidden cchildren _ _
        rw [flatMap_visible hhidden (children.getD []), hkept, List.flatMap_map, List.map_flatMap,
          List.map_flatMap]
        -- the children that are left look alike by the induction
        refine List.flatMap_congr fun child hchild => ?_
        exact ih child (List.mem_of_mem_filter hchild) _ _ false rfl

theorem elementsOf_eq_flatMap (nodes : List Node) :
    elementsOf nodes = nodes.flatMap Node.elements :=
  eq_flatMap_of_cons rfl (fun _ _ => rfl) nodes

/-- Pruning keeps the elements of a tree. -/
theorem elements_pruned (node : Node) : node.pruned.elements = node.elements := by
  induction node using Node.induction with
  | step t children ih =>
    obtain ⟨kept, hpruned, hkept⟩ := exists_pruned_eq t children
    rw [hpruned]
    cases visible : t.visible with
    | false => rw [elements_of_hidden visible, elements_of_hidden visible]
    | true =>
      cases isText : t.isText with
      | true => rw [elements_of_label visible isText, elements_of_label visible isText]
      -- a box keeps the elements of its visible children
      | false =>
        have hhidden (child : Node) (hidden : child.visible = false) : child.elements = [] := by
          obtain ⟨ct, cchildren⟩ := child
          exact elements_of_hidden hidden cchildren
        rw [elements_of_box visible isText, elements_of_box visible isText, elementsOf_eq_flatMap,
          elementsOf_eq_flatMap, flatMap_visible hhidden (children.getD []), hkept,
          List.flatMap_map]
        congr 1
        refine congrArg _ (List.flatMap_congr fun child hchild => ?_)
        exact ih child (List.mem_of_mem_filter hchild)

/-- **What is hidden does not interfere.** When two trees are equal once everything hidden below
their nodes is taken away, the walks over them, below the same parent and from the same stylesheet,
yield the same elements or end with the same fault, and leave the same rules. Visit by visit the two
place the same nodes in the same way, infer the same alignment, and find the same rule or fault. -/
theorem emit_eq_of_pruned_eq {first second : Node} (h : first.pruned = second.pruned)
    (parent : Option Node) (isRoot : Bool) (start : Stylesheet) :
    (first.emit parent isRoot).runFrom start = (second.emit parent isRoot).runFrom start
      ∧ (first.visits parent isRoot).map Visit.look
          = (second.visits parent isRoot).map Visit.look := by
  -- equal pruned trees have the same looks on both sides
  have hlook : (first.visits parent isRoot).map Visit.look
      = (second.visits parent isRoot).map Visit.look := by
    calc (first.visits parent isRoot).map Visit.look
        = (first.pruned.visits parent isRoot).map Visit.look :=
          (look_visits_pruned first parent parent isRoot rfl).symm
      _ = (second.pruned.visits parent isRoot).map Visit.look := by rw [h]
      _ = (second.visits parent isRoot).map Visit.look :=
          look_visits_pruned second parent parent isRoot rfl
  have helements : first.elements = second.elements := by
    rw [← elements_pruned first, h, elements_pruned second]
  -- the emission depends on nothing else
  refine ⟨?_, hlook⟩
  rw [Node.emit_follows first parent isRoot start, Node.emit_follows second parent isRoot start,
    follow_congr hlook, helements]

/-- A centred label. -/
def centredLabel : Node :=
  { id := "2", kind := .text, characters := .str "Hi"
    style := some { alignHorizontal := .str "CENTER" } }

/-- A frame around that label. -/
def bareFrame : Node := { id := "1", children := some [centredLabel] }

/-- The frame with hidden children besides: a box that is forced to an offset and has a box below it
that is not hidden itself, and a label whose characters are not a text. -/
def clutteredFrame : Node :=
  { id := "1"
    children := some
      [{ id := "3", visible := false, forcedAbsolute := true, children := some [{ id := "4" }] },
       centredLabel,
       { id := "5", kind := .text, visible := false, characters := .bool true }] }

/-- The walk over the cluttered frame is the one over the bare frame: the frame is the container of
a single label, and aligns it. -/
theorem clutteredFrame_emit :
    clutteredFrame.childList.length = 3
      ∧ Style.inferredAlignment clutteredFrame
        = .ok [("display", "flex"), ("align-items", "center"), ("justify-content", "center")]
      ∧ (clutteredFrame.emit none false).runFrom [] = (bareFrame.emit none false).runFrom []
      ∧ ((bareFrame.emit none false).runFrom []).1.toOption.map Element.renderAll
        = some "<div class=\"node-1\"><div class=\"node-2\">Hi</div></div>" := by
  refine ⟨rfl, eq_ok_of_toOption (by decide +kernel), ?_, by decide +kernel⟩
  have alike : clutteredFrame.pruned = bareFrame.pruned := rfl
  exact (emit_eq_of_pruned_eq alike none false []).1

end Mockup
