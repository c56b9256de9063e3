import Mathlib.Data.List.Lex
import Mockup.Proofs.Page.Hidden

/-!
# The nodes of a tree, one by one

Two nodes of a tree may be equal in every respect and still be two nodes, with equal nodes around
them. What tells them apart is where they stand: an occurrence of a node has an address, the indices
of the children on the way to it.

* `Occurrence`, `Node.occurrences` — the occurrences of a tree, each before those below it;
* `Node.placeAt?` — what stands at an address;
* `mem_occurrencesIn_iff` — the occurrences of a tree are what stands at its addresses;
* `pairwise_occurrencesIn` — they come in the order of their addresses;
* `Place.isBoard` — what an artboard is, told by the nodes around it;
* `map_node_filter_isBoard` — **the search for artboards finds what is an artboard**, in order;
* `isBoard_apart` — no artboard is inside another.

`Place.isBoard` looks at one place and upwards from it, while the search looks downwards and stops at
the first canvas. What joins the two is that a canvas that is searched has no canvas around it.
-/

namespace Mockup

/-! ### Occurrences -/

/-- **An occurrence of a node in a tree**: its place, and the indices of the children on the way to it
from the top. -/
structure Occurrence extends Place where
  address : List Nat

/-- An occurrence in the child with a given index, seen from the parent. -/
def Occurrence.under (index : Nat) (o : Occurrence) : Occurrence :=
  ⟨o.toPlace, index :: o.address⟩

mutual

/-- **The occurrences of a tree**, each before those below it, where the tree has nodes around it. -/
def Node.occurrencesIn (around : List Node) : Node → List Occurrence
  | ⟨t, children⟩ => ⟨⟨⟨t, children⟩, around⟩, []⟩ ::
    match children with
    | none => []
    | some children => occurrencesOf (⟨t, children⟩ :: around) 0 children

/-- The occurrences of children one after the other, the first with a given index. -/
def occurrencesOf (around : List Node) (index : Nat) : List Node → List Occurrence
  | [] => []
  | child :: rest =>
    (child.occurrencesIn around).map (.under index) ++ occurrencesOf around (index + 1) rest

end

/-- The occurrences of a tree that stands by itself. -/
def Node.occurrences (root : Node) : List Occurrence := root.occurrencesIn []

/-- **What stands at an address** below a node that has nodes around it. -/
def Node.placeAt? (around : List Node) (node : Node) : List Nat → Option Place
  | [] => some ⟨node, around⟩
  | index :: rest =>
    match node.childList[index]? with
    | some child => child.placeAt? (node :: around) rest
    | none => none

theorem occurrencesIn_eq (t : Traits) (children : Option (List Node)) (around : List Node) :
    Node.occurrencesIn around ⟨t, children⟩ = ⟨⟨⟨t, children⟩, around⟩, []⟩ ::
      occurrencesOf (⟨t, children⟩ :: around) 0 (children.getD []) := by
  cases children <;> rfl

/-- The occurrences of children are those of each child, under its index. -/
theorem mem_occurrencesOf_iff {around nodes : List Node} {index : Nat} {o : Occurrence} :
    o ∈ occurrencesOf around index nodes ↔
      ∃ (i : Nat) (child : Node), nodes[i]? = some child
        ∧ ∃ inner ∈ child.occurrencesIn around, o = inner.under (index + i) := by
  induction nodes generalizing index with
  | nil => simp [occurrencesOf]
  | cons child rest ih =>
    rw [occurrencesOf, List.mem_append, List.mem_map, ih]
    constructor
    · rintro (⟨inner, hinner, rfl⟩ | ⟨i, next, hnext, inner, hinner, rfl⟩)
      · exact ⟨0, child, rfl, inner, hinner, rfl⟩
      · exact ⟨i + 1, next, hnext, inner, hinner, by rw [Nat.add_right_comm, Nat.add_assoc]⟩
    · rintro ⟨i, next, hnext, inner, hinner, rfl⟩
      cases i with
      | zero =>
        -- the index is that of the first child
        obtain rfl := Option.some.inj hnext
        exact .inl ⟨inner, hinner, rfl⟩
      | succ i =>
        exact .inr ⟨i, next, hnext, inner, hinner, by rw [Nat.add_right_comm, Nat.add_assoc]⟩

/-- Without their addresses, the occurrences of a tree are its places. -/
theorem map_toPlace_occurrencesIn (node : Node) : ∀ around : List Node,
    (node.occurrencesIn around).map Occurrence.toPlace = node.placesIn around := by
  induction node using Node.induction with
  | step t children ih =>
    intro around
    -- over any part of the children, so that the induction is on the part
    have hchildren : ∀ (nodes : List Node) (index : Nat), (∀ c ∈ nodes, c ∈ children.getD []) →
        (occurrencesOf (⟨t, children⟩ :: around) index nodes).map Occurrence.toPlace
          = nodes.flatMap (Node.placesIn (⟨t, children⟩ :: around)) := by
      intro nodes
      induction nodes with
      | nil => intro _ _; rfl
      | cons child rest ihrest =>
        intro index hmem
        have hchild := ih child (hmem child List.mem_cons_self) (⟨t, children⟩ :: around)
        have hrest := ihrest (index + 1) fun c hc => hmem c (List.mem_cons_of_mem _ hc)
        rw [occurrencesOf, List.map_append, List.map_map, hrest, List.flatMap_cons, ← hchild]
        rfl
    -- the node itself and its children
    rw [occurrencesIn_eq, placesIn_eq, List.map_cons, hchildren _ 0 fun _ hc => hc]

/-- **The occurrences of a tree are what stands at its addresses.** -/
theorem mem_occurrencesIn_iff (node : Node) : ∀ {around : List Node} {o : Occurrence},
    o ∈ node.occurrencesIn around ↔ node.placeAt? around o.address = some o.toPlace := by
  induction node using Node.induction with
  | step t children ih =>
    intro around o
    obtain ⟨place, address⟩ := o
    rw [occurrencesIn_eq, List.mem_cons, mem_occurrencesOf_iff]
    cases address with
    | nil =>
      -- no occurrence in a child has the empty address
      constructor
      · rintro (h | ⟨i, child, -, inner, -, h⟩)
        · obtain ⟨rfl, -⟩ := Occurrence.mk.inj h
          rfl
        · cases congrArg Occurrence.address h
      -- the empty address leads to the node
      · intro h
        obtain rfl := Option.some.inj h
        exact .inl rfl
    | cons index rest =>
      have hbelow : Node.placeAt? around ⟨t, children⟩ (index :: rest)
          = match (children.getD [])[index]? with
            | some child => child.placeAt? (⟨t, children⟩ :: around) rest
            | none => none := rfl
      rw [hbelow]
      constructor
      · rintro (h | ⟨i, child, hchild, inner, hinner, h⟩)
        -- the node itself has no index
        · cases congrArg Occurrence.address h
        -- the address begins with the index of the child
        · obtain ⟨rfl, haddress⟩ := Occurrence.mk.inj h
          obtain ⟨hindex, rfl⟩ := List.cons.inj haddress
          rw [hindex, Nat.zero_add, hchild]
          exact (ih child (List.mem_of_getElem? hchild)).mp hinner
      · intro h
        -- an index past the children leads nowhere
        cases hchild : (children.getD [])[index]? with
        | none => rw [hchild] at h; cases h
        | some child =>
          -- the rest of the address is taken in the child
          rw [hchild] at h
          have hinner := (ih child (List.mem_of_getElem? hchild) (o := ⟨place, rest⟩)).mpr h
          exact .inr ⟨index, child, hchild, _, hinner, by rw [Nat.zero_add]; rfl⟩

/-- **The occurrences of a tree come in the order of their addresses**, so no two of them have the
same address. -/
theorem pairwise_occurrencesIn (node : Node) : ∀ around : List Node,
    (node.occurrencesIn around).Pairwise (·.address < ·.address) := by
  induction node using Node.induction with
  | step t children ih =>
    intro around
    -- over any part of the children, as above
    have hchildren : ∀ (nodes : List Node) (index : Nat), (∀ c ∈ nodes, c ∈ children.getD []) →
        (occurrencesOf (⟨t, children⟩ :: around) index nodes).Pairwise (·.address < ·.address) := by
      intro nodes
      induction nodes with
      | nil => intro _ _; exact .nil
      -- the first child comes before the rest
      | cons child rest ihrest =>
        intro index hmem
        have hchild := ih child (hmem child List.mem_cons_self) (⟨t, children⟩ :: around)
        have hrest := ihrest (index + 1) fun c hc => hmem c (List.mem_cons_of_mem _ hc)
        rw [occurrencesOf, List.pairwise_append, List.pairwise_map]
        refine ⟨hchild.imp fun h => List.cons_lt_cons_iff.mpr (.inr ⟨rfl, h⟩), hrest, ?_⟩
        -- addresses in different children differ in the first index
        intro a ha b hb
        obtain ⟨inner, -, rfl⟩ := List.mem_map.mp ha
        obtain ⟨i, -, -, later, -, rfl⟩ := mem_occurrencesOf_iff.mp hb
        exact List.cons_lt_cons_iff.mpr (.inl (by omega))
    rw [occurrencesIn_eq, List.pairwise_cons]
    -- the node itself comes before everything in its children
    refine ⟨fun b hb => ?_, hchildren _ 0 fun _ hc => hc⟩
    obtain ⟨i, -, -, inner, -, rfl⟩ := mem_occurrencesOf_iff.mp hb
    exact List.nil_lt_cons _ _

theorem self_mem_placesIn (node : Node) (around : List Node) :
    ⟨node, around⟩ ∈ node.placesIn around := by
  obtain ⟨t, children⟩ := node
  rw [placesIn_eq]
  exact List.mem_cons_self

/-! ### Addresses inside one another -/

/-- What is around an inner node ends with what is around an outer one. -/
theorem suffix_tail {inner outer : Node} {more around : List Node}
    (h : (outer :: around) <:+ (inner :: more)) : around <:+ more := by
  rcases List.suffix_cons_iff.mp h with h | h
  · obtain ⟨-, rfl⟩ := List.cons.inj h
    exact List.suffix_rfl
  · exact (List.suffix_cons outer around).trans h

theorem placeAt?_append (more : List Nat) : ∀ (address : List Nat) (around : List Node) (node : Node),
    node.placeAt? around (address ++ more)
      = (node.placeAt? around address).bind fun p => p.node.placeAt? p.around more := by
  intro address
  induction address with
  | nil => intro around node; rfl
  | cons index rest ih =>
    intro around node
    rw [List.cons_append, Node.placeAt?, Node.placeAt?]
    cases node.childList[index]? with
    | none => rfl
    | some child => exact ih _ _

/-- What stands at an address has the node that the address starts from around it, or is it. -/
theorem suffix_of_placeAt? {p : Place} : ∀ {address : List Nat} {around : List Node} {node : Node},
    node.placeAt? around address = some p → (node :: around) <:+ (p.node :: p.around) := by
  intro address
  induction address with
  | nil =>
    intro around node h
    obtain rfl := Option.some.inj h
    exact List.suffix_rfl
  -- one more node around for each index
  | cons index rest ih =>
    intro around node h
    rw [Node.placeAt?] at h
    cases hchild : node.childList[index]? with
    | none => rw [hchild] at h; cases h
    | some child =>
      rw [hchild] at h
      exact (List.suffix_cons child _).trans (ih h)

/-- What stands further down has the node above it around it. -/
theorem suffix_around_of_placeAt? {p : Place} {address : List Nat} {around : List Node} {node : Node}
    (h : node.placeAt? around address = some p) (below : address ≠ []) :
    (node :: around) <:+ p.around := by
  cases address with
  | nil => exact absurd rfl below
  | cons index rest =>
    rw [Node.placeAt?] at h
    cases hchild : node.childList[index]? with
    | none => rw [hchild] at h; cases h
    | some child =>
      rw [hchild] at h
      exact suffix_tail (suffix_of_placeAt? h)

/-- The places of a tree have its top around them, or are it. -/
theorem suffix_of_mem_placesIn {node : Node} {around : List Node} {p : Place}
    (h : p ∈ node.placesIn around) : (node :: around) <:+ (p.node :: p.around) := by
  rw [← map_toPlace_occurrencesIn] at h
  obtain ⟨o, ho, rfl⟩ := List.mem_map.mp h
  exact suffix_of_placeAt? ((mem_occurrencesIn_iff node).mp ho)

/-! ### Artboards -/

/-- **What an artboard is**: a frame, a section or a component directly on a canvas that has no
canvas around it. -/
def Place.isBoard (p : Place) : Bool :=
  match p.around with
  | [] => false
  | parent :: outer =>
    p.node.isArtboard && parent.kind = .canvas && outer.all fun n => n.kind ≠ .canvas

theorem Place.isBoard_iff {p : Place} : p.isBoard = true ↔
    p.node.isArtboard = true ∧ ∃ canvas outer, p.around = canvas :: outer
      ∧ canvas.kind = .canvas ∧ ∀ n ∈ outer, n.kind ≠ .canvas := by
  obtain ⟨node, around⟩ := p
  cases around with
  | nil => simp [Place.isBoard]
  | cons parent outer => simp [Place.isBoard, and_assoc]

/-- Below a child of a canvas there is no artboard. -/
theorem Place.isBoard_eq_false_of_nested {p : Place} {child : Node} {around : List Node}
    (canvas : ∃ n ∈ around, n.kind = .canvas) (h : (child :: around) <:+ p.around) :
    p.isBoard = false := by
  refine Bool.eq_false_iff.mpr fun hboard => ?_
  obtain ⟨-, parent, outer, haround, -, houter⟩ := Place.isBoard_iff.mp hboard
  obtain ⟨n, hn, hcanvas⟩ := canvas
  rw [haround, List.suffix_cons_iff] at h
  rcases h with h | h
  · obtain ⟨-, rfl⟩ := List.cons.inj h
    exact houter n hn hcanvas
  · exact houter n (h.subset (List.mem_cons_of_mem _ hn)) hcanvas

/-- A place without a canvas around it is no artboard. -/
theorem Place.isBoard_eq_false_of_free (node : Node) {around : List Node}
    (free : ∀ n ∈ around, n.kind ≠ .canvas) : Place.isBoard ⟨node, around⟩ = false := by
  refine Bool.eq_false_iff.mpr fun hboard => ?_
  obtain ⟨-, canvas, outer, rfl, hcanvas, -⟩ := Place.isBoard_iff.mp hboard
  exact free canvas List.mem_cons_self hcanvas

/-- Directly on a canvas without a canvas around it, the artboards are those that may be. -/
theorem Place.isBoard_of_canvas (child node : Node) {around : List Node}
    (canvas : node.kind = .canvas) (free : ∀ n ∈ around, n.kind ≠ .canvas) :
    Place.isBoard ⟨child, node :: around⟩ = child.isArtboard := by
  have hfree : (around.all fun n => n.kind ≠ .canvas) = true := by simpa using free
  simp only [Place.isBoard, canvas, hfree, decide_true, Bool.and_true]

/-- The places inside a child of a canvas, its own apart, are no artboards. -/
theorem isBoard_eq_false_inside {child inner : Node} {around : List Node} {p : Place}
    (canvas : ∃ n ∈ around, n.kind = .canvas) (hp : p ∈ inner.placesIn (child :: around)) :
    p.isBoard = false :=
  Place.isBoard_eq_false_of_nested canvas (suffix_tail (suffix_of_mem_placesIn hp))

theorem flatMap_filter {α β : Type} (p : α → Bool) (f : α → List β) (items : List α) :
    (items.filter p).flatMap f = items.flatMap fun a => if p a then f a else [] := by
  induction items with
  | nil => rfl
  | cons a rest ih =>
    rw [List.filter_cons, List.flatMap_cons, ← ih]
    cases p a <;> rfl

/-- On a canvas that is searched, a child is taken when it may be an artboard, and nothing inside
it is. -/
theorem map_node_filter_of_canvas {canvas : Node} {around : List Node}
    (isCanvas : canvas.kind = .canvas) (free : ∀ n ∈ around, n.kind ≠ .canvas) (child : Node) :
    ((child.placesIn (canvas :: around)).filter Place.isBoard).map Place.node
      = if child.isArtboard then [child] else [] := by
  obtain ⟨t, inner⟩ := child
  have hinside : ((inner.getD []).flatMap
      (Node.placesIn (⟨t, inner⟩ :: canvas :: around))).filter Place.isBoard = [] := by
    refine List.filter_eq_nil_iff.mpr fun p hp => ?_
    obtain ⟨below, -, hp⟩ := List.mem_flatMap.mp hp
    exact Bool.eq_false_iff.mp (isBoard_eq_false_inside ⟨_, List.mem_cons_self, isCanvas⟩ hp)
  rw [placesIn_eq, List.filter_cons, hinside, Place.isBoard_of_canvas _ _ isCanvas free]
  split <;> rfl

/-- **The search for artboards finds what is an artboard**, in the order of the document. -/
theorem map_node_filter_isBoard (node : Node) : ∀ {around : List Node},
    (∀ n ∈ around, n.kind ≠ .canvas) →
      ((node.placesIn around).filter Place.isBoard).map Place.node = node.artboards := by
  induction node using Node.induction with
  | step t children ih =>
    intro around free
    -- outside of a canvas the node is no artboard
    have hself := Place.isBoard_eq_false_of_free ⟨t, children⟩ free
    rw [placesIn_eq, List.filter_cons_of_neg (Bool.eq_false_iff.mp hself), List.filter_flatMap,
      List.map_flatMap]
    by_cases canvas : t.kind = .canvas
    -- the artboards of a canvas are among its children
    · rw [List.flatMap_congr fun child _ => map_node_filter_of_canvas canvas free child]
      cases children with
      | none => rfl
      | some children =>
        rw [Node.artboards, if_pos canvas, Option.getD_some, ← flatMap_filter,
          List.flatMap_singleton']
    -- any other node leaves the search to its children
    · have hfree : ∀ n ∈ (⟨t, children⟩ : Node) :: around, n.kind ≠ .canvas :=
        List.forall_mem_cons.mpr ⟨canvas, free⟩
      rw [List.flatMap_congr fun child hchild => ih child hchild hfree, ← artboardsOf_eq_flatMap]
      cases children with
      | none => rfl
      | some children => rw [Node.artboards, if_neg canvas, Option.getD_some]

/-- **No artboard is inside another.** -/
theorem isBoard_apart {root : Node} {outer inner : Occurrence} (houter : outer ∈ root.occurrences)
    (hinner : inner ∈ root.occurrences) (outerBoard : outer.isBoard = true)
    (innerBoard : inner.isBoard = true) (h : outer.address <+: inner.address) :
    outer.address = inner.address := by
  obtain ⟨more, hmore⟩ := h
  by_contra different
  have hbelow : more ≠ [] := by
    rintro rfl
    exact different (by rw [← hmore, List.append_nil])
  have hplace := (mem_occurrencesIn_iff root).mp hinner
  rw [← hmore, placeAt?_append, (mem_occurrencesIn_iff root).mp houter] at hplace
  -- the canvas of the outer one would be around the inner one, and not directly
  obtain ⟨-, canvas, above, haround, hcanvas, -⟩ := Place.isBoard_iff.mp outerBoard
  have hnested := Place.isBoard_eq_false_of_nested
    ⟨canvas, haround ▸ List.mem_cons_self, hcanvas⟩ (suffix_around_of_placeAt? hplace hbelow)
  rw [hnested] at innerBoard
  cases innerBoard

end Mockup
