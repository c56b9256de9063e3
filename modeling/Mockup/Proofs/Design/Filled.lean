import Mathlib.Data.List.Forall2
import Mockup.Proofs.Design.Documented
import Mockup.Proofs.Design.Refusals
import Mockup.Proofs.Page.Reach

/-!
# What reading fills in

A document may give `null` for anything. Reading leaves the entries that are `null` out of a list, or
puts the standing value of their kind in their place, and does the same for the parts of a value. So
what it makes of a document, however deep, has no `null` where a number is needed, with one
exception: the radii of the corners are kept as the document gives them.

* `Color.Filled`, …, `Traits.Filled` — no part that reading fills in is `null`;
* `Json.EntriesFilled` — no entry of a container is `null`;
* `Traits.ofJson_ensures` — **what a node says of itself is filled in**, its radii apart;
* `Json.nodeValues`, `node_reads` — the values that are read as nodes, **each as its own node**;
* `Node.ofJson_filled_iff` — **when nothing is `null`**: when no value that is read as a node has
  `null` among its radii.
-/

namespace Mockup

open Json

/-! ### Parts that are filled in -/

/-- A colour without a channel that is `null`. -/
structure Color.Filled (c : Color) : Prop where
  r : c.r ≠ .null
  g : c.g ≠ .null
  b : c.b ≠ .null
  a : c.a ≠ .null

/-- A point without a coordinate that is `null`. -/
structure Vector.Filled (v : Vector) : Prop where
  x : v.x ≠ .null
  y : v.y ≠ .null

/-- A rectangle without a side that is `null`. -/
structure Box.Filled (b : Box) : Prop where
  x : b.x ≠ .null
  y : b.y ≠ .null
  width : b.width ≠ .null
  height : b.height ≠ .null

/-- A stop with a place and a colour that is filled in. -/
structure Stop.Filled (s : Stop) : Prop where
  position : s.position ≠ .null
  color : s.color.Filled

/-- A fill made of parts that are filled in. -/
def Fill.Filled : Fill → Prop
  | .solid color => color.Filled
  | .linear handles stops | .radial handles stops =>
    (∀ v ∈ handles, v.Filled) ∧ ∀ s ∈ stops, s.Filled
  | .image .. | .unknown _ => True

/-- A shadow or a blur without a number that is `null`, or another effect. -/
def Glow.Filled : Glow → Prop
  | .shadow _ radius offset spread color =>
    radius ≠ .null ∧ offset.Filled ∧ spread ≠ .null ∧ color.Filled
  | .blur _ radius => radius ≠ .null
  | .unknown _ => True

/-- **What a node says of itself is filled in**, the radii of its corners apart. -/
structure Traits.Filled (t : Traits) : Prop where
  box : ∀ b ∈ t.box, b.Filled
  fills : ∀ p ∈ t.fills.getD [], p.fill.Filled
  strokes : ∀ p ∈ t.strokes.getD [], p.fill.Filled
  effects : ∀ e ∈ t.effects.getD [], e.glow.Filled
  backgroundColor : ∀ c ∈ t.backgroundColor, c.Filled

/-- **No entry of a container is `null`.** A value that is no container has no entries. -/
def Json.EntriesFilled (j : Json) : Prop := Ensures j.entries fun items => .null ∉ items

/-! ### Reading values -/

/-- A part that is absent or `null` has its standing value. -/
theorem part_ensures {default : Json} (h : default ≠ .null) (j : Json) (name : String) :
    Ensures (j.part name default) (· ≠ .null) := by
  refine Ensures.andThen fun value => .ok ?_
  cases value with
  | null => exact h
  | _ => nofun

theorem zero_ne_null : zero ≠ .null := nofun

theorem one_ne_null : one ≠ .null := nofun

theorem filled_default_color : Color.Filled {} :=
  ⟨zero_ne_null, zero_ne_null, zero_ne_null, one_ne_null⟩

theorem color_ensures (j : Json) : Ensures (Color.ofJson j) Color.Filled := by
  unfold Color.ofJson
  split
  · refine (part_ensures zero_ne_null j "r").bind fun r hr => ?_
    refine (part_ensures zero_ne_null j "g").bind fun g hg => ?_
    refine (part_ensures zero_ne_null j "b").bind fun b hb => ?_
    refine (part_ensures one_ne_null j "a").bind fun a ha => ?_
    exact .ok ⟨hr, hg, hb, ha⟩
  · exact .ok filled_default_color

/-- A colour that may be missing. -/
theorem color?_ensures (j : Json) :
    Ensures (Color.ofJson? j) fun color => ∀ c ∈ color, c.Filled := by
  unfold Color.ofJson?
  split
  · exact .ok nofun
  · refine (color_ensures j).map fun color hcolor => ?_
    rintro _ ⟨⟩
    exact hcolor

theorem vector_ensures (j : Json) : Ensures (Vector.ofJson j) Vector.Filled := by
  unfold Vector.ofJson
  split
  · refine (part_ensures zero_ne_null j "x").bind fun x hx => ?_
    refine (part_ensures zero_ne_null j "y").bind fun y hy => ?_
    exact .ok ⟨hx, hy⟩
  · exact .ok ⟨zero_ne_null, zero_ne_null⟩

theorem box_ensures (j : Json) : Ensures (Box.ofJson? j) fun box => ∀ b ∈ box, b.Filled := by
  unfold Box.ofJson?
  split
  · refine (part_ensures zero_ne_null j "x").bind fun x hx => ?_
    refine (part_ensures zero_ne_null j "y").bind fun y hy => ?_
    refine (part_ensures zero_ne_null j "width").bind fun width hwidth => ?_
    refine (part_ensures zero_ne_null j "height").bind fun height hheight => .ok ?_
    rintro _ ⟨⟩
    exact ⟨hx, hy, hwidth, hheight⟩
  · exact .ok nofun

theorem stop_ensures (j : Json) : Ensures (Stop.ofJson j) Stop.Filled := by
  unfold Stop.ofJson
  split
  · refine (part_ensures zero_ne_null j "position").bind fun position hposition => ?_
    refine Ensures.andThen fun color => ?_
    exact (color_ensures color).bind fun color hcolor => .ok ⟨hposition, hcolor⟩
  · exact .ok ⟨zero_ne_null, filled_default_color⟩

/-! ### Reading lists -/

section Lists

variable {α : Type} {read : Json → Result α} {P : α → Prop}

/-- A list whose entries are each read. -/
theorem mapEntries_ensures (hread : ∀ item, Ensures (read item) P) (j : Json) :
    Ensures (j.mapEntries read) fun values => ∀ a ∈ values, P a := by
  unfold Json.mapEntries
  split
  · exact .andThen fun entries => .mapM fun item _ => hread item
  · exact .ok nofun

/-- A list whose entries are each read, apart from those that are `null`. -/
theorem mapGiven?_ensures (hread : ∀ item, Ensures (read item) P) (j : Json) :
    Ensures (j.mapGiven? read) fun values => ∀ a ∈ values.getD [], P a := by
  unfold Json.mapGiven?
  split
  · exact .ok nofun
  · refine .andThen fun entries => ?_
    exact (Ensures.mapM fun item _ => hread item).bind fun values hvalues => .ok hvalues

end Lists

/-! ### Reading paints and effects -/

/-- A gradient, whichever kind of gradient it is. -/
theorem gradient_ensures {make : List Vector → List Stop → Fill}
    (hmake : ∀ handles stops, (∀ v ∈ handles, v.Filled) → (∀ s ∈ stops, s.Filled) →
      (make handles stops).Filled) (j : Json) :
    Ensures (gradientOfJson make j) Fill.Filled := by
  refine Ensures.andThen fun handles => ?_
  refine (mapEntries_ensures vector_ensures handles).bind fun handles hhandles => ?_
  refine Ensures.andThen fun stops => ?_
  refine (mapEntries_ensures stop_ensures stops).bind fun stops hstops => ?_
  exact .ok (hmake handles stops hhandles hstops)

theorem fill_ensures (type j : Json) : Ensures (Fill.ofJson type j) Fill.Filled := by
  unfold Fill.ofJson
  split
  · refine Ensures.andThen fun color => ?_
    exact (color_ensures color).bind fun color hcolor => .ok hcolor
  split
  · refine gradient_ensures ?_ j
    exact fun _ _ hhandles hstops => ⟨hhandles, hstops⟩
  split
  · refine gradient_ensures ?_ j
    exact fun _ _ hhandles hstops => ⟨hhandles, hstops⟩
  split
  · exact Ensures.andThen fun reference => .andThen fun scaleMode => .ok trivial
  · exact .ok trivial

theorem paint_ensures (j : Json) : Ensures (Paint.ofJson j) fun paint => paint.fill.Filled := by
  refine Ensures.andThen fun type => .andThen fun visible => .andThen fun opacity => ?_
  exact (fill_ensures type j).bind fun fill hfill => .ok hfill

theorem shadow_ensures (inset : Bool) {radius : Json} (hradius : radius ≠ .null) (j : Json) :
    Ensures (shadowOfJson inset radius j) Glow.Filled := by
  refine Ensures.andThen fun offset => ?_
  refine (vector_ensures offset).bind fun offset hoffset => ?_
  refine (part_ensures zero_ne_null j "spread").bind fun spread hspread => ?_
  refine Ensures.andThen fun color => ?_
  refine (color_ensures color).bind fun color hcolor => ?_
  exact .ok ⟨hradius, hoffset, hspread, hcolor⟩

theorem effect_ensures (j : Json) : Ensures (Effect.ofJson j) fun effect => effect.glow.Filled := by
  refine Ensures.andThen fun type => .andThen fun visible => ?_
  refine (part_ensures zero_ne_null j "radius").bind fun radius hradius => ?_
  -- each kind of glow is made of filled parts
  have hglow : Ensures (Glow.ofJson type radius j) Glow.Filled := by
    unfold Glow.ofJson
    split
    · exact shadow_ensures false hradius j
    split
    · exact shadow_ensures true hradius j
    split
    · exact .ok hradius
    split
    · exact .ok hradius
    · exact .ok trivial
  exact hglow.bind fun glow hfilled => .ok hfilled

/-! ### Reading nodes -/

/-- A field that is read is that of the value. -/
theorem member_ensures (j : Json) (name : String) : Ensures (j.member name) (· = j.field name) := by
  cases j with
  | obj fields => exact .ok rfl
  | _ => exact .error

/-- **What a node says of itself is filled in**, but the radii of its corners are those of the
document. -/
theorem Traits.ofJson_ensures (j : Json) :
    Ensures (Traits.ofJson j) fun t =>
      t.Filled ∧ t.cornerRadii = j.field "rectangleCornerRadii" := by
  -- the id, the name and the type
  iterate 3 refine Ensures.andThen fun _ => ?_
  refine .andThen fun box => (box_ensures box).bind fun box hbox => ?_
  refine .andThen fun fills => ?_
  refine (mapGiven?_ensures paint_ensures fills).bind fun fills hfills => ?_
  refine .andThen fun strokes => ?_
  refine (mapGiven?_ensures paint_ensures strokes).bind fun strokes hstrokes => ?_
  refine .andThen fun effects => ?_
  refine (mapGiven?_ensures effect_ensures effects).bind fun effects heffects => ?_
  refine .andThen fun style => .andThen fun style => ?_
  refine .andThen fun color => (color?_ensures color).bind fun color hcolor => ?_
  -- the rest is kept as it is, with the radii last
  iterate 15 refine Ensures.andThen fun _ => ?_
  refine (member_ensures j "rectangleCornerRadii").bind fun radii hradii => ?_
  exact .ok ⟨⟨hbox, hfills, hstrokes, heffects, hcolor⟩, hradii⟩

mutual

/-- **The values that are read as nodes** of a document, each before those below it. What is `null`
in place of a child is none of them. -/
def Json.nodeValues : Json → List Json
  | .obj fields => .obj fields :: childValues fields
  | _ => []

/-- Those among the children that the fields of a node list. -/
def childValues : List (String × Json) → List Json
  | [] => []
  | (name, value) :: rest =>
    if name = "children" then
      match value with
      | .arr items => itemValues items
      | _ => []
    else childValues rest

/-- Those of a list of values. -/
def itemValues : List Json → List Json
  | [] => []
  | item :: rest => item.nodeValues ++ itemValues rest

end

/-- A value says of a node what the node says of itself. -/
def Json.ReadsAs (j : Json) (node : Node) : Prop := Traits.ofJson j = .ok node.toTraits

theorem Node.preorder_mk (t : Traits) (children : Option (List Node)) :
    Node.preorder ⟨t, children⟩ = ⟨t, children⟩ :: preorderOf (children.getD []) := by
  cases children with
  | none => rfl
  | some children => rfl

mutual

/-- **Each value is read as a node of its own**, in the order of the document. -/
theorem node_reads : ∀ j : Json, Ensures (Node.ofJson j) fun node =>
    List.Forall₂ ReadsAs j.nodeValues node.preorder
  | .obj fields => by
    rw [Node.ofJson, nodeValues]
    refine (children_reads fields).bind fun children hchildren => ?_
    intro node h
    obtain ⟨traits, htraits, h⟩ := bind_eq_ok h
    obtain rfl := Except.ok.inj h
    rw [Node.preorder_mk]
    exact .cons htraits hchildren
  | .null | .bool _ | .num _ | .str _ | .arr _ => .error

theorem children_reads : ∀ fields : List (String × Json),
    Ensures (childrenField fields) fun children =>
      List.Forall₂ ReadsAs (childValues fields) (preorderOf (children.getD []))
  | [] => .ok .nil
  | (name, value) :: rest => by
    rw [childrenField, childValues.eq_def]
    dsimp only
    split
    · cases value with
      | arr items => exact (nodes_reads items).bind fun nodes hnodes => .ok hnodes
      | null => exact .ok .nil
      -- an object or a text counts when it is not empty
      | obj fields =>
        cases fields with
        | nil => exact .ok .nil
        | cons _ _ => exact .error
      | str text =>
        by_cases empty : text = ""
        · subst empty
          exact .ok .nil
        · rw [childrenOf.eq_6 text empty]
          exact .error
      -- a number or a truth value is no list
      | _ => exact .error
    -- the first field of this name further on
    · exact children_reads rest

theorem nodes_reads : ∀ items : List Json, Ensures (nodesOf items) fun nodes =>
    List.Forall₂ ReadsAs (itemValues items) (preorderOf nodes)
  | [] => .ok .nil
  | item :: rest => by
    rw [itemValues]
    by_cases given : item = .null
    · subst given
      rw [nodesOf]
      exact nodes_reads rest
    · rw [nodesOf.eq_3 _ _ given]
      refine (node_reads item).bind fun node hnode => ?_
      refine (nodes_reads rest).bind fun nodes hnodes => .ok ?_
      exact List.rel_append hnode hnodes

end

/-- What holds of every member of one list holds of every member of another that it matches. -/
theorem forall_mem_congr_of_forall₂ {α β : Type} {R : α → β → Prop} {P : α → Prop} {Q : β → Prop}
    (h : ∀ a b, R a b → (P a ↔ Q b)) {as : List α} {bs : List β} (related : List.Forall₂ R as bs) :
    (∀ a ∈ as, P a) ↔ ∀ b ∈ bs, Q b := by
  induction related with
  | nil => simp
  | cons hab _ ih => rw [List.forall_mem_cons, List.forall_mem_cons, h _ _ hab, ih]

/-- **When nothing is `null`.** A document that is read has a node for each value that is read as
one, and for no `null`. Every node is filled in, at every depth; and no radius of a corner is `null`
either, exactly if none of these values has `null` among its radii. Reading refuses a document for
being `null`, and never for what stands in it. -/
theorem Node.ofJson_filled_iff (j : Json) :
    (∀ node, Node.ofJson j = .ok node →
      List.Forall₂ ReadsAs j.nodeValues node.preorder
        ∧ (∀ n ∈ node.preorder, n.toTraits.Filled)
        ∧ ((∀ n ∈ node.preorder, n.toTraits.Filled ∧ n.cornerRadii.EntriesFilled)
          ↔ ∀ value ∈ j.nodeValues, (value.field "rectangleCornerRadii").EntriesFilled))
      ∧ ∀ refusal, Node.ofJson j = .error (.refused refusal)
          ↔ j = .null ∧ refusal = missingDocument := by
  refine ⟨fun node hnode => ?_, fun _ => Node.ofJson_refused_iff⟩
  -- the nodes of the tree are read from the objects of the document, one by one
  have reads := node_reads j node hnode
  -- each field was filled when its node was read
  have filled : ∀ n ∈ node.preorder, n.toTraits.Filled := by
    have read : ∀ value ∈ j.nodeValues, True := fun _ _ => trivial
    refine (forall_mem_congr_of_forall₂ (fun value n h => ?_) reads).mp read
    exact iff_of_true trivial (Traits.ofJson_ensures value _ h).1
  -- the radii are those of the document, so they decide
  refine ⟨reads, filled, ?_⟩
  refine (forall_mem_congr_of_forall₂ (fun value n h => ?_) reads).symm
  obtain ⟨hfilled, hradii⟩ := Traits.ofJson_ensures value _ h
  rw [hradii]
  exact ⟨fun hentries => ⟨hfilled, hentries⟩, And.right⟩

/-- A label of a document that gives `null` for its first fill and for channels of the second. -/
def patchyLabel : Json :=
  .obj [("id", .str "1:2"), ("type", .str "TEXT"),
    ("fills", .arr [.null, .obj [("type", .str "SOLID"), ("color", .obj [("r", .null)])]])]

/-- A document with that label, a `null` beside it, and a rectangle without a place. -/
def patchyDocument : Json :=
  .obj [("id", .str "1:1"), ("absoluteBoundingBox", .obj [("x", .null), ("width", .ofInt 8)]),
    ("children", .arr [.null, patchyLabel]),
    ("rectangleCornerRadii", .arr [.ofInt 1, .ofInt 2, .ofInt 3, .ofInt 4])]

/-- It is read, and nothing in its two nodes is `null`. -/
theorem patchyDocument_filled : ∃ node, Node.ofJson patchyDocument = .ok node
    ∧ node.preorder.length = 2
    ∧ ∀ n ∈ node.preorder, n.toTraits.Filled ∧ n.cornerRadii.EntriesFilled := by
  -- the document is read, with two nodes
  have read : (Node.ofJson patchyDocument).toOption.map (·.preorder.length) = some 2 := by
    decide +kernel
  obtain ⟨node, hnode, hlength⟩ := Option.map_eq_some_iff.mp read
  have hnode := eq_ok_of_toOption hnode
  obtain ⟨-, -, hfilled⟩ := (Node.ofJson_filled_iff patchyDocument).1 node hnode
  refine ⟨node, hnode, hlength, hfilled.mpr fun value hvalue => ?_⟩
  have hvalues : patchyDocument.nodeValues = [patchyDocument, patchyLabel] := rfl
  rw [hvalues] at hvalue
  -- the frame has four radii without a null
  rcases List.mem_cons.mp hvalue with rfl | hvalue
  · exact Ensures.ok (by simp [ofInt])
  · obtain rfl := List.mem_singleton.mp hvalue
    exact .error

/-- A document with `null` among the radii of its corners. -/
def jaggedDocument : Json :=
  .obj [("id", .str "1:1"),
    ("rectangleCornerRadii", .arr [.null, .ofInt 4, .ofInt 4, .ofInt 4])]

/-- The node that it is read as. -/
def jaggedCard : Node :=
  { id := "1:1", kind := .unknown, cornerRadii := .arr [.null, .ofInt 4, .ofInt 4, .ofInt 4] }

/-- **A radius that is `null` is kept**, and drawing the corners then takes it for a number. -/
theorem jaggedDocument_not_filled : Node.ofJson jaggedDocument = .ok jaggedCard
    ∧ ¬ (∀ n ∈ jaggedCard.preorder, n.toTraits.Filled ∧ n.cornerRadii.EntriesFilled)
    ∧ convert 32 jaggedCard = .error .wrongKind := by
  refine ⟨rfl, fun filled => ?_, rfl⟩
  have hentries := (filled jaggedCard (mem_preorder_self jaggedCard)).2
  exact hentries _ rfl List.mem_cons_self

end Mockup
