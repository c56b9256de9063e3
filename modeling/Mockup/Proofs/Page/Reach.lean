import Mockup.Page.Conversion
import Mockup.Proofs.Page.Visits

/-!
# What a conversion reaches

A conversion visits the nodes below the roots of its page. This module relates its visits to the tree
that is converted: the roots are nodes of the tree, in the order of the document; a conversion comes
to what its visits come to; and the visits are closed under parents and children.

* `Node.preorder` — the nodes of a tree, in the order of the document;
* `roots_sublist_preorder` — the roots of a page are among them, in that order;
* `convert_eq_follow` — **a conversion is decided by its visits**;
* `Visit.IsChildOf` — a visit is that of a child of the node of another visit;
* `mem_rootVisits_of_isChildOf`, `rootVisits_parent` — a conversion visits the children of what it
  visits, and except for its roots nothing else.
-/

namespace Mockup

/-! ### The nodes of a tree -/

mutual

/-- The nodes of a tree, each before what is below it. -/
def Node.preorder : Node → List Node
  | ⟨t, none⟩ => [⟨t, none⟩]
  | ⟨t, some children⟩ => ⟨t, some children⟩ :: preorderOf children

/-- The nodes of trees one after the other. -/
def preorderOf : List Node → List Node
  | [] => []
  | child :: rest => child.preorder ++ preorderOf rest

end

theorem mem_preorder_self (node : Node) : node ∈ node.preorder := by
  obtain ⟨t, _ | children⟩ := node
  · simp [Node.preorder]
  · simp [Node.preorder]

theorem sublist_preorderOf (nodes : List Node) : nodes.Sublist (preorderOf nodes) := by
  induction nodes with
  | nil => exact .slnil
  | cons node rest ih =>
    rw [preorderOf, ← List.singleton_append]
    exact .append (List.singleton_sublist.mpr (mem_preorder_self node)) ih

/-- The artboards of a tree come in the order of the document. -/
theorem artboards_sublist_preorder (node : Node) : node.artboards.Sublist node.preorder := by
  induction node using Node.induction with
  | step t children ih =>
    cases children with
    | none => exact List.nil_sublist _
    | some children =>
      rw [Node.artboards, Node.preorder]
      refine List.Sublist.cons _ ?_
      by_cases canvas : t.kind = .canvas
      -- the artboards of a canvas are some of its children
      · rw [if_pos canvas]
        exact List.filter_sublist.trans (sublist_preorderOf children)
      · rw [if_neg canvas]
        -- every child contributes its own artboards, so the induction is on the children
        clear canvas
        change ∀ child ∈ children, child.artboards.Sublist child.preorder at ih
        induction children with
        | nil => exact .slnil
        | cons child rest ihrest =>
          rw [artboardsOf, preorderOf]
          exact (ih child List.mem_cons_self).append
            (ihrest fun c hc => ih c (List.mem_cons_of_mem _ hc))

/-- The roots of a page come in the order of the document. -/
theorem roots_sublist_preorder (root : Node) : root.roots.Sublist root.preorder := by
  unfold Node.roots
  split
  · exact List.singleton_sublist.mpr (mem_preorder_self root)
  · exact artboards_sublist_preorder root

/-! ### A conversion as a list of visits -/

/-- **A conversion is decided by its visits.** It fails with their first fault, or puts the elements
of its roots together with their rules. -/
theorem convert_eq_follow (gap : Int) (root : Node) :
    convert gap root = match follow (rootVisits root.roots) with
      | (none, rules) => .ok (assemble gap (root.roots.map Node.elements) rules)
      | (some fault, _) => .error fault := by
  rw [convert, emitRoots_follows, List.nil_append]
  rcases follow (rootVisits root.roots) with ⟨_ | fault, rules⟩
  · rfl
  · rfl

/-- A conversion that succeeds, taken apart. -/
theorem convert_eq_ok {gap : Int} {root : Node} {page : Conversion}
    (h : convert gap root = .ok page) :
    ∃ rules, follow (rootVisits root.roots) = (none, rules)
      ∧ page = assemble gap (root.roots.map Node.elements) rules := by
  rw [convert_eq_follow] at h
  rcases hfollow : follow (rootVisits root.roots) with ⟨_ | fault, rules⟩
  · rw [hfollow] at h
    exact ⟨rules, rfl, (Except.ok.inj h).symm⟩
  · rw [hfollow] at h
    cases h

/-! ### Parents and children among visits -/

/-- **A visit of a child** of the node that another visit is about. -/
structure Visit.IsChildOf (u v : Visit) : Prop where
  notText : v.node.isText = false
  mem : u.node ∈ v.node.childList
  visible : u.node.visible = true
  parent : u.parent = some v.node
  notRoot : u.isRoot = false

theorem mem_childVisits {parent : Node} {nodes : List Node} {u : Visit} :
    u ∈ childVisits parent nodes ↔ ∃ child ∈ nodes, u ∈ child.visits (some parent) false := by
  rw [childVisits_eq_flatMap, List.mem_flatMap]

/-- A node that is not hidden is visited. -/
theorem mem_visits_self {node : Node} (visible : node.visible = true) (parent : Option Node)
    (isRoot : Bool) : (⟨node, parent, isRoot⟩ : Visit) ∈ node.visits parent isRoot := by
  obtain ⟨t, children⟩ := node
  cases isText : t.isText with
  | true => rw [visits_of_label visible isText]; exact List.mem_singleton_self _
  | false => rw [visits_of_box visible isText]; exact List.mem_cons_self

/-- The visits of a walk: the first, if the node is not hidden, and those of its children, if it is
no label. -/
theorem mem_visits {t : Traits} {children : Option (List Node)} {parent : Option Node}
    {isRoot : Bool} {u : Visit} :
    u ∈ Node.visits parent isRoot ⟨t, children⟩ ↔ t.visible = true ∧
      (u = ⟨⟨t, children⟩, parent, isRoot⟩
        ∨ t.isText = false ∧ ∃ child ∈ children.getD [],
            u ∈ child.visits (some ⟨t, children⟩) false) := by
  cases visible : t.visible with
  | false => simp [visits_of_hidden visible]
  | true =>
    cases isText : t.isText with
    | true => simp [visits_of_label visible isText]
    | false =>
      -- a box is visited, and so are its children
      rw [visits_of_box visible isText, List.mem_cons, mem_childVisits]
      simp

/-- **A walk visits the children of what it visits.** -/
theorem mem_visits_of_isChildOf {u v : Visit} (child : u.IsChildOf v) (node : Node) :
    ∀ parent isRoot, v ∈ node.visits parent isRoot → u ∈ node.visits parent isRoot := by
  induction node using Node.induction with
  | step t children ih =>
    intro parent isRoot hv
    rw [mem_visits] at hv ⊢
    obtain ⟨visible, rfl | ⟨notText, c, hc, hv⟩⟩ := hv
    · obtain ⟨node, _, _⟩ := u
      obtain ⟨notText, mem, shown, rfl, rfl⟩ := child
      exact ⟨visible, .inr ⟨notText, node, mem, mem_visits_self shown _ _⟩⟩
    · exact ⟨visible, .inr ⟨notText, c, hc, ih c hc _ _ hv⟩⟩

/-- **What a walk visits has a parent that it visits**, except for its first node. -/
theorem visits_parent {u : Visit} (node : Node) : ∀ parent isRoot, u ∈ node.visits parent isRoot →
    u = ⟨node, parent, isRoot⟩ ∨ ∃ v ∈ node.visits parent isRoot, u.IsChildOf v := by
  induction node using Node.induction with
  | step t children ih =>
    intro parent isRoot hu
    obtain ⟨visible, rfl | ⟨notText, c, hc, hu⟩⟩ := mem_visits.mp hu
    · exact .inl rfl
    · refine .inr ?_
      rcases ih c hc _ _ hu with rfl | ⟨v, hv, child⟩
      · -- the child itself: its parent is the first node of the walk
        obtain ⟨ct, cchildren⟩ := c
        refine ⟨⟨⟨t, children⟩, parent, isRoot⟩, mem_visits_self visible _ _, ?_⟩
        exact ⟨notText, hc, (mem_visits.mp hu).1, rfl, rfl⟩
      -- a visit further below has its parent below the same child
      · exact ⟨v, mem_visits.mpr ⟨visible, .inr ⟨notText, c, hc, hv⟩⟩, child⟩

theorem mem_rootVisits {roots : List Node} {u : Visit} :
    u ∈ rootVisits roots ↔ ∃ root ∈ roots, u ∈ root.visits (some root) true :=
  List.mem_flatMap

theorem mem_rootVisits_of_isChildOf {roots : List Node} {u v : Visit} (child : u.IsChildOf v)
    (hv : v ∈ rootVisits roots) : u ∈ rootVisits roots := by
  obtain ⟨root, hroot, hv⟩ := mem_rootVisits.mp hv
  exact mem_rootVisits.mpr ⟨root, hroot, mem_visits_of_isChildOf child root _ _ hv⟩

theorem rootVisits_parent {roots : List Node} {u : Visit} (hu : u ∈ rootVisits roots)
    (notRoot : u.isRoot = false) : ∃ v ∈ rootVisits roots, u.IsChildOf v := by
  obtain ⟨root, hroot, hu⟩ := mem_rootVisits.mp hu
  rcases visits_parent root _ _ hu with rfl | ⟨v, hv, child⟩
  · cases notRoot
  · exact ⟨v, mem_rootVisits.mpr ⟨root, hroot, hv⟩, child⟩

end Mockup
