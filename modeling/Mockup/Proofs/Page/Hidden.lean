import Mathlib.Data.List.Basic
import Mathlib.Data.List.Flatten
import Mockup.Proofs.Page.ReadBack

/-!
# Hidden nodes on a page

A node is hidden when it says so or when a node around it does. Two walks decide what a page shows:
one looks for the artboards of a tree, the other walks down from each artboard. Only the second one
looks at what is hidden, so the two have to be told apart: this module follows every node together
with the nodes around it.

* `Place` — a node of a tree at its place, with the nodes around it;
* `Node.placesIn` — the places of a tree, in the order of the document;
* `Node.shown` — **the places that a page shows**: those that the two walks reach;
* `map_node_shown` — they are those of the visits of the page;
* `shown_sublist_places` — they are places of the tree, in order and each shown once;
* `visible_of_mem_shownIn` — nothing between a node that is shown and its artboard is hidden;
* `shown_not_hidden_iff` — **so what is shown is not hidden exactly when no artboard that is shown
  stands in a hidden node.**
-/

namespace Mockup

/-! ### Places -/

/-- **A node at its place in a tree**, with the nodes around it, the innermost first. -/
structure Place where
  node : Node
  around : List Node

/-- The class of the node at a place. -/
def Place.className (p : Place) : String := Text.className p.node.id

/-- **A place is hidden** when its node or a node around it is. -/
def Place.Hidden (p : Place) : Prop := ∃ n ∈ p.node :: p.around, n.visible = false

theorem Place.not_hidden_iff {p : Place} :
    ¬ p.Hidden ↔ p.node.visible = true ∧ ∀ n ∈ p.around, n.visible = true := by
  rw [Place.Hidden, ← List.forall_mem_cons (p := fun n : Node => n.visible = true)]
  simp only [not_exists, not_and, Bool.not_eq_false]

mutual

/-- **The places of a tree**, each before those below it, where the tree has nodes around it. -/
def Node.placesIn (around : List Node) : Node → List Place
  | ⟨t, children⟩ => ⟨⟨t, children⟩, around⟩ ::
    match children with
    | none => []
    | some children => placesOf (⟨t, children⟩ :: around) children

/-- The places of trees one after the other. -/
def placesOf (around : List Node) : List Node → List Place
  | [] => []
  | child :: rest => child.placesIn around ++ placesOf around rest

end

/-- The places of a tree that stands by itself. -/
def Node.places (root : Node) : List Place := root.placesIn []

mutual

/-- **The places that a walk shows.** It looks neither below a hidden node nor below a label. -/
def Node.shownIn (around : List Node) : Node → List Place
  | ⟨t, children⟩ =>
    if t.visible then
      ⟨⟨t, children⟩, around⟩ ::
        if t.isText then []
        else match children with
          | none => []
          | some children => shownOf (⟨t, children⟩ :: around) children
    else []

/-- The places that the walks over several trees show. -/
def shownOf (around : List Node) : List Node → List Place
  | [] => []
  | child :: rest => child.shownIn around ++ shownOf around rest

end

mutual

/-- **The places of the artboards** of a tree. -/
def Node.artboardPlaces (around : List Node) : Node → List Place
  | ⟨_, none⟩ => []
  | ⟨t, some children⟩ =>
    if t.kind = .canvas then
      (children.filter (·.isArtboard)).map fun child => ⟨child, ⟨t, some children⟩ :: around⟩
    else artboardPlacesOf (⟨t, some children⟩ :: around) children

/-- The places of the artboards of several trees. -/
def artboardPlacesOf (around : List Node) : List Node → List Place
  | [] => []
  | child :: rest => child.artboardPlaces around ++ artboardPlacesOf around rest

end

namespace Node

/-- The places of the roots of a page: those of the artboards, or that of the tree itself. -/
def rootPlaces (root : Node) : List Place :=
  match root.artboardPlaces [] with
  | [] => [⟨root, []⟩]
  | places => places

/-- **The places that a page shows.** -/
def shown (root : Node) : List Place := root.rootPlaces.flatMap fun p => p.node.shownIn p.around

end Node

theorem placesOf_eq_flatMap (around nodes : List Node) :
    placesOf around nodes = nodes.flatMap (Node.placesIn around) :=
  eq_flatMap_of_cons rfl (fun _ _ => rfl) nodes

theorem shownOf_eq_flatMap (around nodes : List Node) :
    shownOf around nodes = nodes.flatMap (Node.shownIn around) :=
  eq_flatMap_of_cons rfl (fun _ _ => rfl) nodes

theorem artboardPlacesOf_eq_flatMap (around nodes : List Node) :
    artboardPlacesOf around nodes = nodes.flatMap (Node.artboardPlaces around) :=
  eq_flatMap_of_cons rfl (fun _ _ => rfl) nodes

theorem artboardsOf_eq_flatMap (nodes : List Node) :
    artboardsOf nodes = nodes.flatMap Node.artboards :=
  eq_flatMap_of_cons rfl (fun _ _ => rfl) nodes

/-- The places of a tree: that of its node, and those of its children. -/
theorem placesIn_eq (t : Traits) (children : Option (List Node)) (around : List Node) :
    Node.placesIn around ⟨t, children⟩ = ⟨⟨t, children⟩, around⟩ ::
      (children.getD []).flatMap (Node.placesIn (⟨t, children⟩ :: around)) := by
  cases children with
  | none => rw [Node.placesIn]; rfl
  | some children => rw [Node.placesIn, placesOf_eq_flatMap]; rfl

theorem shownIn_of_hidden {t : Traits} (hidden : t.visible = false)
    (children : Option (List Node)) (around : List Node) :
    Node.shownIn around ⟨t, children⟩ = [] := by
  cases children <;> rw [Node.shownIn, if_neg (by simp [hidden])]

theorem shownIn_of_label {t : Traits} (visible : t.visible = true) (isText : t.isText = true)
    (children : Option (List Node)) (around : List Node) :
    Node.shownIn around ⟨t, children⟩ = [⟨⟨t, children⟩, around⟩] := by
  cases children <;> rw [Node.shownIn, if_pos visible, if_pos isText]

theorem shownIn_of_box {t : Traits} (visible : t.visible = true) (notText : t.isText = false)
    (children : Option (List Node)) (around : List Node) :
    Node.shownIn around ⟨t, children⟩ = ⟨⟨t, children⟩, around⟩ ::
      (children.getD []).flatMap (Node.shownIn (⟨t, children⟩ :: around)) := by
  cases children <;> simp [Node.shownIn, visible, notText, shownOf_eq_flatMap]

/-! ### The walk from an artboard -/

/-- What a walk shows are the nodes that it visits. -/
theorem map_node_shownIn (node : Node) : ∀ (around : List Node) (parent : Option Node)
    (isRoot : Bool), (node.shownIn around).map Place.node
      = (node.visits parent isRoot).map Visit.node := by
  induction node using Node.induction with
  | step t children ih =>
    intro around parent isRoot
    cases visible : t.visible with
    -- nothing of a hidden node, and a label alone: the two walks stop at the same nodes
    | false => rw [shownIn_of_hidden visible, visits_of_hidden visible]; rfl
    | true =>
      cases isText : t.isText with
      | true => rw [shownIn_of_label visible isText, visits_of_label visible isText]; rfl
      | false =>
        -- both walks go down to the children, in their order
        rw [shownIn_of_box visible isText, visits_of_box visible isText, childVisits_eq_flatMap,
          List.map_cons, List.map_cons, List.map_flatMap, List.map_flatMap]
        congr 1
        exact List.flatMap_congr fun child hchild => ih child hchild _ _ _

/-- What a walk shows are places of the tree that it walks over, each once and in order. -/
theorem shownIn_sublist (node : Node) : ∀ around : List Node,
    (node.shownIn around).Sublist (node.placesIn around) := by
  induction node using Node.induction with
  | step t children ih =>
    intro around
    rw [placesIn_eq]
    -- what is not shown is a place all the same
    cases visible : t.visible with
    | false => rw [shownIn_of_hidden visible]; exact List.nil_sublist _
    | true =>
      cases isText : t.isText with
      | true =>
        rw [shownIn_of_label visible isText]
        exact List.singleton_sublist.mpr List.mem_cons_self
      -- the box heads both lists, and each child is followed by its own
      | false =>
        rw [shownIn_of_box visible isText]
        exact .cons_cons _ (List.Sublist.flatMap_right _ fun child hchild => ih child hchild _)

/-- **A walk shows nothing that is hidden.** A node that it shows is not hidden, and neither is any
node between it and those that were around the walk from the start. -/
theorem visible_of_mem_shownIn {p : Place} (node : Node) : ∀ around, p ∈ node.shownIn around →
    node.visible = true ∧ p.node.visible = true
      ∧ ∃ between, p.around = between ++ around ∧ ∀ n ∈ between, n.visible = true := by
  induction node using Node.induction with
  | step t children ih =>
    intro around hp
    cases visible : t.visible with
    | false => rw [shownIn_of_hidden visible] at hp; exact absurd hp List.not_mem_nil
    | true =>
      cases isText : t.isText with
      | true =>
        rw [shownIn_of_label visible isText] at hp
        obtain rfl := List.mem_singleton.mp hp
        exact ⟨rfl, visible, [], rfl, List.forall_mem_nil _⟩
      | false =>
        rw [shownIn_of_box visible isText] at hp
        rcases List.mem_cons.mp hp with rfl | hp
        -- the node itself, with nothing between
        · exact ⟨rfl, visible, [], rfl, List.forall_mem_nil _⟩
        · -- below the node, which is then the outermost of those between
          obtain ⟨child, hchild, hp⟩ := List.mem_flatMap.mp hp
          obtain ⟨-, shown, between, haround, hbetween⟩ := ih child hchild _ hp
          refine ⟨rfl, shown, between ++ [⟨t, children⟩], ?_, ?_⟩
          · rw [haround, List.append_assoc, List.singleton_append]
          · exact List.forall_mem_append.mpr ⟨hbetween, List.forall_mem_singleton.mpr visible⟩

theorem mem_shownIn_self {node : Node} (visible : node.visible = true) (around : List Node) :
    ⟨node, around⟩ ∈ node.shownIn around := by
  obtain ⟨t, children⟩ := node
  cases isText : t.isText with
  | true => rw [shownIn_of_label visible isText]; exact List.mem_singleton_self _
  | false => rw [shownIn_of_box visible isText]; exact List.mem_cons_self

/-! ### The walk to the artboards -/

theorem map_node_artboardPlaces (node : Node) : ∀ around : List Node,
    (node.artboardPlaces around).map Place.node = node.artboards := by
  induction node using Node.induction with
  | step t children ih =>
    intro around
    cases children with
    | none => rfl
    | some children =>
      rw [Node.artboardPlaces, Node.artboards]
      by_cases canvas : t.kind = .canvas
      -- the frames of a canvas stand below the canvas itself
      · rw [if_pos canvas, if_pos canvas, List.map_map]
        -- any other node hands the search to its children
        exact List.map_id _
      · rw [if_neg canvas, if_neg canvas, artboardPlacesOf_eq_flatMap,
          artboardsOf_eq_flatMap, List.map_flatMap]
        exact List.flatMap_congr fun child hchild => ih child hchild _

/-- **The trees below the artboards do not overlap**, and their places come in order. -/
theorem artboardPlaces_flatMap_sublist (node : Node) : ∀ around : List Node,
    ((node.artboardPlaces around).flatMap fun p => p.node.placesIn p.around).Sublist
      (node.placesIn around) := by
  induction node using Node.induction with
  | step t children ih =>
    intro around
    rw [placesIn_eq]
    -- the node itself is no place below an artboard
    refine List.Sublist.cons _ ?_
    cases children with
    | none => exact List.nil_sublist _
    | some children =>
      rw [Node.artboardPlaces]
      by_cases canvas : t.kind = .canvas
      -- the children of a canvas that are no artboards are left out
      · rw [if_pos canvas, List.flatMap_map]
        exact List.filter_sublist.flatMap _
      · rw [if_neg canvas, artboardPlacesOf_eq_flatMap, List.flatMap_assoc]
        exact List.Sublist.flatMap_right _ fun child hchild => ih child hchild _

theorem map_node_rootPlaces (root : Node) : root.rootPlaces.map Place.node = root.roots := by
  have hartboards := map_node_artboardPlaces root []
  unfold Node.rootPlaces Node.roots
  rw [← hartboards]
  cases root.artboardPlaces [] with
  | nil => rfl
  | cons first rest => rfl

/-- The places that a page shows are places of the tree, each once and in order. -/
theorem shown_sublist_places (root : Node) : root.shown.Sublist root.places := by
  have hroots : (root.rootPlaces.flatMap fun p => p.node.placesIn p.around).Sublist root.places := by
    have hartboards := artboardPlaces_flatMap_sublist root []
    unfold Node.rootPlaces
    split
    · rw [List.flatMap_singleton]
      exact .refl _
    · exact hartboards
  exact (List.Sublist.flatMap_right _ fun p _ => shownIn_sublist p.node p.around).trans hroots

/-- The places that a page shows are those of its visits. -/
theorem map_node_shown (root : Node) :
    root.shown.map Place.node = (rootVisits root.roots).map Visit.node := by
  rw [Node.shown, rootVisits, ← map_node_rootPlaces, List.map_flatMap, List.map_flatMap,
    List.flatMap_map]
  exact List.flatMap_congr fun p _ => map_node_shownIn p.node _ _ _

/-! ### The page of a tree -/

/-- The classes on a page: those of its visits, after that of the box around several artboards. -/
theorem classNamesOf_pageElements (roots : List Node) :
    Element.classNamesOf (pageElements roots)
      = (if 1 < roots.length then [Stylesheet.containerClass] else [])
        ++ (rootVisits roots).map Visit.className := by
  -- the elements of the artboards carry the classes of the visits
  have hroots : Element.classNamesOf (elementsOf roots)
      = (rootVisits roots).map Visit.className := by
    induction roots with
    | nil => rfl
    | cons root rest ih =>
      rw [elementsOf, Element.classNamesOf_append, ih, classNamesOf_elements root (some root) true,
        rootVisits, rootVisits, List.flatMap_cons, List.map_append]
  -- several artboards stand in one more element, which has a class of its own
  unfold pageElements
  split
  · rw [Element.classNamesOf, Element.classNames, Element.classNamesOf, List.append_nil, hroots]
    rfl
  · exact hroots

/-- The rules of visits have their classes. -/
theorem map_className_of_rules {visits : List Visit} {rules : Stylesheet}
    (h : rules.map .ok = visits.map Visit.rule) :
    rules.map Rule.className = visits.map Visit.className := by
  induction visits generalizing rules with
  | nil =>
    obtain rfl := List.map_eq_nil_iff.mp h
    rfl
  | cons v rest ih =>
    obtain ⟨rule, others, rfl, hrule, hothers⟩ := List.map_eq_cons_iff.mp h
    obtain ⟨text, -, hmade⟩ := bind_eq_ok hrule.symm
    obtain rfl : ⟨v.className, text⟩ = rule := Except.ok.inj hmade
    rw [List.map_cons, List.map_cons, ih hothers]

/-- **What a page shows of a hidden node.** The rules of a page and the class attributes of its markup
are those of the places that it shows, in order; these are places of the tree, each shown once. A
node that is shown is not hidden, and neither is a node between it and its artboard, nor the artboard.
So nothing hidden is shown at all exactly when no artboard that is not hidden itself stands in a
hidden node. -/
theorem shown_not_hidden_iff {gap : Int} {root : Node} {page : Conversion}
    (h : convert gap root = .ok page) :
    ∃ rules, page = assemble gap (root.roots.map Node.elements) rules
      ∧ rules.map .ok = (rootVisits root.roots).map Visit.rule
      ∧ (rootVisits root.roots).map Visit.node = root.shown.map Place.node
      ∧ rules.map Rule.className = root.shown.map Place.className
      ∧ Token.classNames? page.html
        = some ((if 1 < root.roots.length then [Stylesheet.containerClass] else [])
          ++ root.shown.map Place.className)
      ∧ root.shown.Sublist root.places
      ∧ (∀ p ∈ root.shown, p.node.visible = true
          ∧ ∃ board ∈ root.rootPlaces, board.node.visible = true
            ∧ ∃ between, p.around = between ++ board.around ∧ ∀ n ∈ between, n.visible = true)
      ∧ ((∀ p ∈ root.shown, ¬ p.Hidden)
          ↔ ∀ board ∈ root.rootPlaces, board.node.visible = true →
              ∀ n ∈ board.around, n.visible = true) := by
  obtain ⟨rules, hfollow, rfl⟩ := convert_eq_ok h
  have hnodes := map_node_shown root
  have hclasses : (rootVisits root.roots).map Visit.className = root.shown.map Place.className := by
    have hnames := congrArg (List.map fun node : Node => Text.className node.id) hnodes
    rw [List.map_map, List.map_map] at hnames
    exact hnames.symm
  -- the rules are those of the visits, one for each
  have hrules := (follow_none hfollow).2
  have hruleNames := map_className_of_rules hrules
  have hshown : ∀ p ∈ root.shown, p.node.visible = true
      ∧ ∃ board ∈ root.rootPlaces, board.node.visible = true
        ∧ ∃ between, p.around = between ++ board.around ∧ ∀ n ∈ between, n.visible = true := by
    -- a shown place belongs to the artboard it was reached from
    intro p hp
    obtain ⟨board, hboard, hp⟩ := List.mem_flatMap.mp hp
    obtain ⟨hroot, hself, hbetween⟩ := visible_of_mem_shownIn board.node board.around hp
    exact ⟨hself, board, hboard, hroot, hbetween⟩
  refine ⟨rules, rfl, hrules, hnodes.symm, hruleNames.trans hclasses, ?_,
    shown_sublist_places root, hshown, ?_, ?_⟩
  -- the classes read back from the markup
  · rw [html_assemble, ← hclasses, ← classNamesOf_pageElements]
    exact Element.classNames?_renderAll (isClassName_of_mem_pageElements root.roots)
  · -- an artboard that is not hidden itself is shown
    intro unhidden board hboard visible
    have hmem : board ∈ root.shown :=
      List.mem_flatMap.mpr ⟨board, hboard, mem_shownIn_self visible board.around⟩
    exact (Place.not_hidden_iff.mp (unhidden board hmem)).2
  -- nothing above the artboard hides it, and nothing between it and the place
  · intro boards p hp
    obtain ⟨hself, board, hboard, visible, between, haround, hbetween⟩ := hshown p hp
    refine Place.not_hidden_iff.mpr ⟨hself, ?_⟩
    rw [haround]
    exact List.forall_mem_append.mpr ⟨hbetween, boards board hboard visible⟩

/-- A canvas with two artboards, one of them hidden, and a hidden box with a label in the other. -/
def partlyHidden : Node :=
  { id := "0:1", kind := .canvas, children := some [
    { id := "1:1", children := some [
      { id := "1:2", visible := false, children := some [{ id := "1:3", kind := .text }] },
      { id := "1:4", kind := .text }] },
    { id := "2:1", visible := false }] }

/-- Its page shows the artboard and the label that are not hidden, and no other. -/
theorem partlyHidden_shown : ∃ page, convert 32 partlyHidden = .ok page
    ∧ Token.classNames? page.html
      = some [Stylesheet.containerClass, "node-1-1", "node-1-4"]
    ∧ ∀ p ∈ partlyHidden.shown, ¬ p.Hidden := by
  -- the document converts, both visible artboards shown
  have converted : (convert 32 partlyHidden).toOption.isSome = true := by decide +kernel
  obtain ⟨page, hpage⟩ := exists_ok_of_isSome converted
  obtain ⟨rules, -, -, -, -, hclasses, -, -, hunhidden⟩ := shown_not_hidden_iff hpage
  have hshown : partlyHidden.shown.map Place.className = ["node-1-1", "node-1-4"] := by
    decide +kernel
  rw [if_pos (by decide +kernel), hshown] at hclasses
  -- every node above the two artboards is visible
  refine ⟨page, hpage, hclasses, hunhidden.mpr fun board hboard _ n hn => ?_⟩
  have hvisible : (partlyHidden.rootPlaces.all fun board =>
      board.around.all fun n => n.visible) = true := by decide +kernel
  exact List.all_eq_true.mp (List.all_eq_true.mp hvisible board hboard) n hn

/-- A hidden canvas with an artboard. -/
def hiddenCanvas : Node :=
  { id := "0:1", kind := .canvas, visible := false, children := some [{ id := "1:1" }] }

/-- **A hidden canvas does not hide its artboards.** Every place of the tree is hidden, and the page
shows the artboard all the same. -/
theorem hiddenCanvas_shown : (∀ p ∈ hiddenCanvas.places, p.Hidden)
    ∧ ∃ page, convert 32 hiddenCanvas = .ok page
      ∧ page.html = "<div class=\"node-1-1\"></div>"
      ∧ Token.classNames? page.html = some (hiddenCanvas.shown.map Place.className) := by
  -- the canvas above hides every place
  have hidden : (hiddenCanvas.places.all fun p =>
      (p.node :: p.around).any fun n => !n.visible) = true := by decide +kernel
  refine ⟨fun p hp => ?_, ?_⟩
  · obtain ⟨n, hn, hvisible⟩ := List.any_eq_true.mp (List.all_eq_true.mp hidden p hp)
    exact ⟨n, hn, by simpa using hvisible⟩
  -- and yet the frame is in the page
  · have converted : ((convert 32 hiddenCanvas).toOption.map Conversion.html)
        = some "<div class=\"node-1-1\"></div>" := by decide +kernel
    obtain ⟨page, hpage, hhtml⟩ := Option.map_eq_some_iff.mp converted
    refine ⟨page, eq_ok_of_toOption hpage, hhtml, ?_⟩
    rw [hhtml]
    decide +kernel

end Mockup
