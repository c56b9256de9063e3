import Mockup.Proofs.Page.Occurrences

/-!
# What a page reaches

The walks of a page begin at its artboards, or at the top of a tree without artboards, and go down.
Whether they come to a node is told by the nodes around it alone: going up, there is no hidden node
and no label before an artboard. So what a page visits is a part of the places of the tree that is
picked place by place, and no place can be visited twice.

* `reached` — whether walks from given places come to a place;
* `visitsFrom` — the visits of the places that are reached, in the order of the document;
* `visitsFrom_eq_visits` — a walk from a place visits what is reached there;
* `visitsFrom_isBoard` — so do the walks from all artboards of a tree;
* `boards_apart_visits_once` — **the artboards are where they belong, none inside another, and a page
  visits an occurrence exactly when it is reached, and once.**
-/

namespace Mockup

/-- **Whether walks from given places come to a node with nodes around it**: it is not hidden, and the
walk starts there or comes to the node above, which is no label. -/
def reached (starts : Place → Bool) (node : Node) : List Node → Bool
  | [] => node.visible && starts ⟨node, []⟩
  | parent :: outer =>
    node.visible
      && (starts ⟨node, parent :: outer⟩ || (!parent.isText && reached starts parent outer))

/-- The visit of a place by walks from given places: where a walk starts, the node is its own parent
and a root of the page. -/
def visitFrom (starts : Place → Bool) (p : Place) : Visit :=
  ⟨p.node, if starts p then some p.node else p.around.head?, starts p⟩

/-- The visits of a tree with nodes around it, by walks from given places. -/
def visitsFrom (starts : Place → Bool) (around : List Node) (node : Node) : List Visit :=
  ((node.placesIn around).filter fun p => reached starts p.node p.around).map (visitFrom starts)

section Walks

variable {starts : Place → Bool}

/-- A node is reached from outside only when it is no start. -/
theorem reached_of_not_starts {node parent : Node} {outer : List Node}
    (h : starts ⟨node, parent :: outer⟩ = false) :
    reached starts node (parent :: outer)
      = (node.visible && (!parent.isText && reached starts parent outer)) := by
  rw [reached, h, Bool.false_or]

theorem visitsFrom_eq (t : Traits) (children : Option (List Node)) (around : List Node) :
    visitsFrom starts around ⟨t, children⟩
      = (if reached starts ⟨t, children⟩ around then [visitFrom starts ⟨⟨t, children⟩, around⟩] else [])
        ++ (children.getD []).flatMap (visitsFrom starts (⟨t, children⟩ :: around)) := by
  have hfilter : ∀ node : Node, visitsFrom starts (⟨t, children⟩ :: around) node
      = ((node.placesIn (⟨t, children⟩ :: around)).filter
          fun p => reached starts p.node p.around).map (visitFrom starts) := fun _ => rfl
  rw [List.flatMap_congr fun node _ => hfilter node, ← List.map_flatMap, ← List.filter_flatMap,
    visitsFrom, placesIn_eq, List.filter_cons]
  split <;> rfl

/-- Where no walk starts or enters, nothing is visited. -/
theorem visitsFrom_eq_nil (node : Node) : ∀ {around : List Node},
    (∀ p ∈ node.placesIn around, starts p = false) → reached starts node around = false →
      visitsFrom starts around node = [] := by
  induction node using Node.induction with
  | step t children ih =>
    intro around none notReached
    rw [visitsFrom_eq, notReached, if_neg Bool.false_ne_true, List.nil_append,
      List.flatMap_eq_nil_iff]
    -- a child that starts nothing is reached through the node only, which is not reached
    intro child hchild
    have hnone : ∀ p ∈ child.placesIn (⟨t, children⟩ :: around), starts p = false := by
      intro p hp
      refine none p ?_
      rw [placesIn_eq]
      exact List.mem_cons_of_mem _ (List.mem_flatMap.mpr ⟨child, hchild, hp⟩)
    refine ih child hchild hnone ?_
    rw [reached_of_not_starts (hnone _ (self_mem_placesIn child _)), notReached, Bool.and_false,
      Bool.and_false]

/-- **A walk visits what it reaches.** From a node that is entered, with no other start below it, the
places that are reached are those of the visits of the node. -/
theorem visitsFrom_eq_visits (node : Node) : ∀ {around : List Node},
    (∀ child ∈ node.childList, ∀ p ∈ child.placesIn (node :: around), starts p = false) →
      reached starts node around = node.visible →
        visitsFrom starts around node = node.visits
          (if starts ⟨node, around⟩ then some node else around.head?) (starts ⟨node, around⟩) := by
  induction node using Node.induction with
  | step t children ih =>
    intro around none entered
    have hstart : ∀ child ∈ children.getD [], starts ⟨child, ⟨t, children⟩ :: around⟩ = false :=
      fun child hchild => none child hchild _ (self_mem_placesIn child _)
    -- a hidden node and a label are not passed
    have hstop : (!t.isText && reached starts ⟨t, children⟩ around) = false →
        (children.getD []).flatMap (visitsFrom starts (⟨t, children⟩ :: around)) = [] := by
      intro hstop
      refine List.flatMap_eq_nil_iff.mpr fun child hchild => ?_
      refine visitsFrom_eq_nil child (none child hchild) ?_
      rw [reached_of_not_starts (hstart child hchild), hstop, Bool.and_false]
    -- the node gives its own visit when it is reached, and its children follow
    rw [visitsFrom_eq]
    cases visible : t.visible with
    | false =>
      have hreached : reached starts ⟨t, children⟩ around = false := entered.trans visible
      rw [visits_of_hidden visible, hreached, hstop (by rw [hreached, Bool.and_false])]
      rfl
    | true =>
      have hreached : reached starts ⟨t, children⟩ around = true := entered.trans visible
      rw [hreached, if_pos rfl, List.singleton_append]
      cases isText : t.isText with
      | true =>
        rw [visits_of_label visible isText, hstop (by rw [isText]; rfl)]
        rfl
      -- a box passes the reach to its children, none of which starts anything
      | false =>
        rw [visits_of_box visible isText, childVisits_eq_flatMap]
        refine congrArg _ (List.flatMap_congr fun child hchild => ?_)
        have hchildNone : ∀ inner ∈ child.childList,
            ∀ p ∈ inner.placesIn (child :: ⟨t, children⟩ :: around), starts p = false := by
          intro inner hinner p hp
          refine none child hchild p ?_
          obtain ⟨u, below⟩ := child
          rw [placesIn_eq]
          exact List.mem_cons_of_mem _ (List.mem_flatMap.mpr ⟨inner, hinner, hp⟩)
        -- so a child is reached when it is visible
        have hchildEntered : reached starts child (⟨t, children⟩ :: around) = child.visible := by
          rw [reached_of_not_starts (hstart child hchild), hreached]
          simp [isText]
        rw [ih child hchild hchildNone hchildEntered, hstart child hchild]
        rfl

end Walks

/-! ### The walks of a page -/

/-- What is reached from artboards has a canvas around it. -/
theorem canvas_of_reached {node : Node} : ∀ {around : List Node},
    reached Place.isBoard node around = true → ∃ n ∈ around, n.kind = .canvas := by
  intro around
  induction around generalizing node with
  -- nothing around, so no canvas to be an artboard of
  | nil => simp [reached, Place.isBoard]
  | cons parent outer ih =>
    intro h
    rw [reached, Bool.and_eq_true, Bool.or_eq_true, Bool.and_eq_true] at h
    rcases h.2 with hboard | ⟨-, habove⟩
    -- the place is an artboard itself: its parent is the canvas
    · obtain ⟨-, canvas, above, haround, hcanvas, -⟩ := Place.isBoard_iff.mp hboard
      obtain ⟨rfl, -⟩ := List.cons.inj haround
      exact ⟨parent, List.mem_cons_self, hcanvas⟩
    -- or it is below one: the canvas is further out
    · obtain ⟨n, hn, hcanvas⟩ := ih habove
      exact ⟨n, List.mem_cons_of_mem _ hn, hcanvas⟩

/-- So nothing is reached outside every canvas. -/
theorem reached_eq_false_of_free {node : Node} {around : List Node}
    (free : ∀ n ∈ around, n.kind ≠ .canvas) : reached Place.isBoard node around = false := by
  refine Bool.eq_false_iff.mpr fun hreached => ?_
  obtain ⟨n, hn, hcanvas⟩ := canvas_of_reached hreached
  exact free n hn hcanvas

/-- On a canvas that is searched, a walk starts at each child that is an artboard, and none inside
it. -/
theorem visitsFrom_of_canvas {canvas : Node} {around : List Node} (isCanvas : canvas.kind = .canvas)
    (free : ∀ n ∈ around, n.kind ≠ .canvas) (child : Node) :
    visitsFrom Place.isBoard (canvas :: around) child
      = if child.isArtboard then child.visits (some child) true else [] := by
  have hcanvas : ∃ n ∈ canvas :: around, n.kind = .canvas := ⟨_, List.mem_cons_self, isCanvas⟩
  have hself := Place.isBoard_of_canvas child canvas isCanvas free
  split
  -- an artboard starts a page part of its own, with no other one inside it
  · rename_i isArtboard
    rw [isArtboard] at hself
    have hentered : reached Place.isBoard child (canvas :: around) = child.visible := by
      rw [reached, hself, Bool.true_or, Bool.and_true]
    rw [visitsFrom_eq_visits child (fun _ _ p hp => isBoard_eq_false_inside hcanvas hp) hentered,
      hself, if_pos rfl]
  -- any other child of the canvas starts nothing, and neither does what is inside it
  · rename_i notArtboard
    rw [Bool.eq_false_iff.mpr notArtboard] at hself
    refine visitsFrom_eq_nil child (fun p hp => ?_) ?_
    · obtain ⟨u, inner⟩ := child
      rw [placesIn_eq] at hp
      rcases List.mem_cons.mp hp with rfl | hp
      · exact hself
      · obtain ⟨below, -, hp⟩ := List.mem_flatMap.mp hp
        exact isBoard_eq_false_inside hcanvas hp
    · rw [reached_of_not_starts hself, reached_eq_false_of_free free, Bool.and_false, Bool.and_false]

/-- **The walks from the artboards visit what is reached from them**, artboard by artboard. -/
theorem visitsFrom_isBoard (node : Node) : ∀ {around : List Node},
    (∀ n ∈ around, n.kind ≠ .canvas) →
      visitsFrom Place.isBoard around node = rootVisits node.artboards := by
  induction node using Node.induction with
  | step t children ih =>
    intro around free
    -- outside of a canvas nothing is reached
    rw [visitsFrom_eq, reached_eq_false_of_free free, if_neg Bool.false_ne_true, List.nil_append]
    by_cases canvas : t.kind = .canvas
    -- the children of a canvas are its artboards, or give nothing
    · rw [List.flatMap_congr fun child _ => visitsFrom_of_canvas canvas free child, ← flatMap_filter]
      cases children with
      | none => rfl
      | some children => rw [Node.artboards, if_pos canvas, rootVisits, Option.getD_some]
    · -- the search goes on below, where there is still no canvas around
      have hfree : ∀ n ∈ (⟨t, children⟩ : Node) :: around, n.kind ≠ .canvas :=
        List.forall_mem_cons.mpr ⟨canvas, free⟩
      rw [List.flatMap_congr fun child hchild => ih child hchild hfree]
      cases children with
      | none => rfl
      | some children =>
        rw [Node.artboards, if_neg canvas, artboardsOf_eq_flatMap, rootVisits, List.flatMap_assoc,
          Option.getD_some]
        rfl

namespace Node

/-- **Where the walks of a page start**: at the artboards, or at the top of a tree without any. -/
def startsAt (root : Node) (p : Place) : Bool :=
  if root.artboards.isEmpty then p.around.isEmpty else p.isBoard

/-- **The occurrences of artboards**, in the order of the document. -/
def boards (root : Node) : List Occurrence := root.occurrences.filter fun o => o.isBoard

/-- **The occurrences that a page visits**: those that the walks reach. -/
def visited (root : Node) : List Occurrence :=
  root.occurrences.filter fun o => reached root.startsAt o.node o.around

end Node

/-- The visits of a page are those of the places that are reached. -/
theorem rootVisits_roots (root : Node) :
    rootVisits root.roots = visitsFrom root.startsAt [] root := by
  cases hartboards : root.artboards with
  -- no artboard: the page starts at the root alone
  | nil =>
    have hstarts : root.startsAt = fun p => p.around.isEmpty := by
      funext p
      rw [Node.startsAt, hartboards, List.isEmpty_nil, if_pos rfl]
    have hroots : root.roots = [root] := by rw [Node.roots, hartboards]
    -- everything else in the tree has the root around it
    have hnone : ∀ child ∈ root.childList, ∀ p ∈ child.placesIn [root],
        p.around.isEmpty = false := by
      intro child _ p hp
      have hsuffix := suffix_tail (suffix_of_mem_placesIn hp)
      refine List.isEmpty_eq_false_iff.mpr fun hempty => ?_
      rw [hempty] at hsuffix
      cases List.suffix_nil.mp hsuffix
    rw [hroots, hstarts, visitsFrom_eq_visits root hnone (by rw [reached]; exact Bool.and_true _),
      rootVisits, List.flatMap_singleton]
    rfl
  | cons board others =>
    -- with artboards the page starts at each of them
    have hstarts : root.startsAt = Place.isBoard := by
      funext p
      rw [Node.startsAt, hartboards, List.isEmpty_cons, if_neg Bool.false_ne_true]
    have hroots : root.roots = root.artboards := by rw [Node.roots, hartboards]
    rw [hroots, hstarts, visitsFrom_isBoard root (List.forall_mem_nil _)]

/-- The visits of a page are those of the occurrences that it visits. -/
theorem rootVisits_eq_map_visited (root : Node) :
    rootVisits root.roots = root.visited.map fun o => visitFrom root.startsAt o.toPlace := by
  have hplaces : root.placesIn [] = root.occurrences.map Occurrence.toPlace :=
    (map_toPlace_occurrencesIn root []).symm
  rw [rootVisits_roots, visitsFrom, hplaces, List.filter_map, List.map_map]
  rfl

/-- **The artboards are where they belong, and nothing is visited twice.** The occurrences of a tree
are what stands at its addresses, listed once each, in the order of the addresses. Those that are
artboards, told by the canvas above and the nodes around that, are the artboards that the search
finds, in this order, and none of them stands inside another. What a page visits is a part of the
occurrences: those that are reached from the artboards, in order and each once. The walk that builds
the page follows these visits. -/
theorem boards_apart_visits_once (root : Node) :
    (∀ o, o ∈ root.occurrences ↔ root.placeAt? [] o.address = some o.toPlace)
      ∧ root.occurrences.Pairwise (·.address < ·.address)
      ∧ root.artboards = root.boards.map (fun o => o.node)
      ∧ root.boards.Pairwise (fun a b => ¬ a.address <+: b.address ∧ ¬ b.address <+: a.address)
      ∧ root.visited.Sublist root.occurrences
      ∧ (root.visited.map (fun o => o.address)).Nodup
      ∧ rootVisits root.roots = root.visited.map (fun o => visitFrom root.startsAt o.toPlace)
      ∧ Emission.Follows (emitRoots root.roots) (rootVisits root.roots)
          (root.roots.map Node.elements) := by
  have hordered : root.occurrences.Pairwise (·.address < ·.address) := pairwise_occurrencesIn root []
  refine ⟨fun o => mem_occurrencesIn_iff root, hordered, ?_, ?_, List.filter_sublist, ?_,
    rootVisits_eq_map_visited root, emitRoots_follows root.roots⟩
  -- the artboards found by the search are those marked in the tree, in its order
  · have hplaces : root.placesIn [] = root.occurrences.map Occurrence.toPlace :=
      (map_toPlace_occurrencesIn root []).symm
    rw [← map_node_filter_isBoard root (List.forall_mem_nil _), hplaces, List.filter_map,
      List.map_map]
    rfl
  · -- artboards one of which is inside the other have one address, and addresses differ
    refine (hordered.filter _).imp_of_mem fun {a b} ha hb hlt => ?_
    obtain ⟨hamem, haboard⟩ := List.mem_filter.mp ha
    obtain ⟨hbmem, hbboard⟩ := List.mem_filter.mp hb
    have hne : a.address ≠ b.address := ne_of_lt hlt
    exact ⟨fun h => hne (isBoard_apart hamem hbmem haboard hbboard h),
      fun h => hne (isBoard_apart hbmem hamem hbboard haboard h).symm⟩
  -- addresses that increase are different
  · refine List.pairwise_map.mpr ?_
    exact (hordered.filter _).imp fun hlt => ne_of_lt hlt

end Mockup
