import Mockup.Proofs.Design.Documented

/-!
# Silent fields

Some fields of a document are for people and for other programs: what a node is called and what it
says, which image a paint shows, under which name a type face is filed. They are read, but nothing
that is measured or looked up in a table comes from them.

* `silentFields` — their names;
* `Json.silenced` — **a document without its silent fields**, in all of its nodes, and in the paints
  and label styles of these;
* `Node.silenced` — a node with nothing in their place;
* `SameUnder` — operations that end alike as far as a view of their values goes;
* `Node.ofJson_silenced` — **reading a document without its silent fields gives the same nodes but for
  those fields, and fails alike.**

Taking a field out may leave an object without fields, and such an object does not count as given. For
a label style that makes a difference to what is read, so `Node.silenced` has a style in any case.
-/

namespace Mockup

/-! ### Operations that end alike -/

section

variable {α β γ δ : Type}

/-- **Operations that end alike**: with the same fault, or with values that have the same view. -/
def SameUnder (view : α → γ) (first second : Result α) : Prop := view <$> first = view <$> second

namespace SameUnder

variable {view : α → γ} {after : β → δ}

theorem rfl {result : Result α} : SameUnder view result result := Eq.refl _

theorem ok {a b : α} (h : view a = view b) : SameUnder view (.ok a) (.ok b) := congrArg Except.ok h

/-- Steps after steps end alike when the steps do. -/
theorem bind {first second : Result α} {next other : α → Result β} (h : SameUnder view first second)
    (hnext : ∀ a b, view a = view b → SameUnder after (next a) (other b)) :
    SameUnder after (first >>= next) (second >>= other) := by
  cases first with
  | error fault =>
    cases second with
    | error fault' => exact congrArg Except.error (Except.error.inj h)
    | ok b => cases h
  | ok a =>
    cases second with
    | error fault => cases h
    | ok b => exact hnext a b (Except.ok.inj h)

/-- The same step before steps that end alike. -/
theorem andThen {result : Result α} {next other : α → Result β}
    (hnext : ∀ a, SameUnder after (next a) (other a)) :
    SameUnder after (result >>= next) (result >>= other) := by
  cases result with
  | error fault => exact .rfl
  | ok a => exact hnext a

/-- Operations on the entries of lists that end alike entry by entry. -/
theorem mapM {f : α → Result β} {g : α → α} (h : ∀ item, SameUnder after (f (g item)) (f item))
    (items : List α) : SameUnder (List.map after) ((items.map g).mapM f) (items.mapM f) := by
  induction items with
  | nil => exact .rfl
  | cons item rest ih =>
    rw [List.map_cons, List.mapM_cons, List.mapM_cons]
    refine (h item).bind fun a b hab => ih.bind fun as bs hrest => .ok ?_
    rw [List.map_cons, List.map_cons, hab, hrest]

end SameUnder

end

/-! ### Values without silent fields -/

/-- **The silent fields** of nodes, paints and label styles. -/
def silentFields : List String :=
  ["id", "name", "characters", "imageRef", "scaleMode", "fontPostScriptName"]

namespace Json

/-- A record without its silent fields; a value that is no record stays. -/
def quiet : Json → Json
  | .obj fields => .obj (fields.filter fun field => field.1 ∉ silentFields)
  | j => j

mutual

/-- **A node without its silent fields**, and without those of its paints, its style and the nodes
below it. -/
def silenced : Json → Json
  | .obj fields => .obj (silencedFields fields)
  | j => j

/-- The fields of a node that are not silent, with what is in them. -/
def silencedFields : List (String × Json) → List (String × Json)
  | [] => []
  | (name, value) :: rest =>
    if name ∈ silentFields then silencedFields rest
    else (name, silencedField name value) :: silencedFields rest

/-- The value of a field of a node. -/
def silencedField (name : String) : Json → Json
  | .arr items =>
    if name = "children" then .arr (silencedItems items)
    else if name = "fills" ∨ name = "strokes" then .arr (items.map quiet)
    else .arr items
  | .obj fields => if name = "style" then quiet (.obj fields) else .obj fields
  | j => j

/-- The nodes of a list. -/
def silencedItems : List Json → List Json
  | [] => []
  | item :: rest => item.silenced :: silencedItems rest

end

theorem find?_filter_silent {name : String} (h : name ∉ silentFields)
    (fields : List (String × Json)) :
    find? name (fields.filter fun field => field.1 ∉ silentFields) = find? name fields := by
  induction fields with
  | nil => rfl
  | cons field rest ih =>
    obtain ⟨key, value⟩ := field
    by_cases silent : key ∈ silentFields
    · have hne : key ≠ name := fun heq => h (heq ▸ silent)
      rw [List.filter_cons_of_neg (by simpa using silent), ih, find?, if_neg hne]
    · rw [List.filter_cons_of_pos (by simpa using silent), find?, find?, ih]

/-- A field that is not silent is that of the record. -/
theorem member_quiet {name : String} (h : name ∉ silentFields) (j : Json) :
    j.quiet.member name = j.member name := by
  cases j with
  | obj fields => simp only [quiet, member, memberOr, find?_filter_silent h]
  | _ => rfl

/-- A field of a node that is not silent has its value, without what is silent in it. -/
theorem field_silencedFields {name : String} (h : name ∉ silentFields)
    (fields : List (String × Json)) :
    field name (.obj (silencedFields fields)) = silencedField name (field name (.obj fields)) := by
  induction fields with
  | nil => rfl
  | cons first rest ih =>
    obtain ⟨key, value⟩ := first
    rw [field, field] at ih
    rw [silencedFields, field, field, find?]
    -- a silent field is left out, and it is not the one asked for
    by_cases silent : key ∈ silentFields
    · have hne : key ≠ name := fun heq => h (heq ▸ silent)
      rw [if_pos silent, ih, if_neg hne]
    -- any other one stays, and is the one asked for or not
    · rw [if_neg silent, find?]
      by_cases heq : key = name
      · rw [if_pos heq, if_pos heq, heq]
        rfl
      · rw [if_neg heq, if_neg heq, ih]

/-- The names of the fields that have nodes, paints or a style in them. -/
def nestedFields : List String := ["children", "fills", "strokes", "style"]

/-- The value of a field with no nodes, paints or style in it stays. -/
theorem silencedField_of_plain {name : String} (h : name ∉ nestedFields) (j : Json) :
    silencedField name j = j := by
  simp only [nestedFields, List.mem_cons, List.not_mem_nil, or_false, not_or] at h
  obtain ⟨hchildren, hfills, hstrokes, hstyle⟩ := h
  cases j with
  | arr items => simp only [silencedField, hchildren, hfills, hstrokes, or_self, if_false]
  | obj fields => simp only [silencedField, hstyle, if_false]
  | _ => rfl

/-- So most fields of a node are what they are. -/
theorem field_silencedFields_of_plain {name : String} (h : name ∉ silentFields ++ nestedFields)
    (fields : List (String × Json)) :
    field name (.obj (silencedFields fields)) = field name (.obj fields) := by
  rw [List.mem_append, not_or] at h
  rw [field_silencedFields h.1, silencedField_of_plain h.2]

theorem isNull_quiet (j : Json) : j.quiet.isNull = j.isNull := by
  cases j <;> rfl

end Json

/-! ### Paints and styles -/

/-- A fill without what is silent in it. -/
def Fill.silenced : Fill → Fill
  | .image _ _ => .image .null .null
  | fill => fill

/-- A paint without what is silent in it. -/
def Paint.silenced (paint : Paint) : Paint := { paint with fill := paint.fill.silenced }

/-- A style without what is silent in it. No style says the same as one that says nothing. -/
def TextStyle.silenced (style : Option TextStyle) : TextStyle :=
  { style.getD {} with fontPostScriptName := .null }

theorem Fill.ofJson_quiet (type j : Json) :
    SameUnder Fill.silenced (Fill.ofJson type j.quiet) (Fill.ofJson type j) := by
  unfold Fill.ofJson gradientOfJson
  -- the fields a gradient is read from are not silent
  rw [Json.member_quiet (by decide), Json.member_quiet (by decide), Json.member_quiet (by decide)]
  -- the solid, the two gradients, the image and the unknown
  split
  · exact .rfl
  split
  · exact .rfl
  split
  · exact .rfl
  split
  · -- an image: which one it is and how it is placed is silent
    cases j with
    | obj fields => exact .ok rfl
    | _ => exact .rfl
  · exact .rfl

theorem Paint.ofJson_quiet (j : Json) :
    SameUnder Paint.silenced (Paint.ofJson j.quiet) (Paint.ofJson j) := by
  unfold Paint.ofJson visibleIn
  rw [Json.member_quiet (by decide), Json.member_quiet (by decide), Json.member_quiet (by decide)]
  refine .andThen fun type => .andThen fun visible => .andThen fun opacity =>
    (Fill.ofJson_quiet type j).bind fun a b hab => .ok ?_
  rw [Paint.silenced, Paint.silenced, hab]

/-- The paints of a node. -/
theorem paints_silenced {name : String} (h : name ∈ ["fills", "strokes"]) (j : Json) :
    SameUnder (Option.map (List.map Paint.silenced))
      ((Json.silencedField name j).mapGiven? Paint.ofJson) (j.mapGiven? Paint.ofJson) := by
  cases j with
  | arr items =>
    -- the paints of the list are silenced one by one
    have hfield : Json.silencedField name (.arr items) = .arr (items.map Json.quiet) := by
      rcases List.mem_cons.mp h with rfl | h
      · rfl
      · obtain rfl := List.mem_singleton.mp h
        rfl
    -- silencing makes no item null, so the same ones are left
    have hgiven : (items.map Json.quiet).filter (!·.isNull)
        = (items.filter (!·.isNull)).map Json.quiet := by
      rw [List.filter_map]
      refine congrArg _ (List.filter_congr fun item _ => ?_)
      rw [Function.comp, Json.isNull_quiet]
    rw [hfield]
    change SameUnder _ (do return some (← ((items.map Json.quiet).filter (!·.isNull)).mapM _))
      (do return some (← (items.filter (!·.isNull)).mapM _))
    rw [hgiven]
    exact (SameUnder.mapM Paint.ofJson_quiet _).bind fun a b hab =>
      .ok (congrArg some hab)
  -- a value that is no list is refused alike
  | obj fields =>
    have hstyle : name ≠ "style" := by
      rintro rfl
      exact absurd h (by decide)
    rw [Json.silencedField, if_neg hstyle]
    exact .rfl
  | _ => exact .rfl

/-- The style of a label that is a record, whether or not it counts as given. -/
theorem TextStyle.ofJson?_obj (fields : List (String × Json)) :
    TextStyle.silenced <$> TextStyle.ofJson? (.obj fields)
      = (fun style => TextStyle.silenced (some style)) <$> TextStyle.ofJson (.obj fields) := by
  cases fields <;> rfl

theorem style_silenced (j : Json) :
    SameUnder TextStyle.silenced (TextStyle.ofJson? (Json.silencedField "style" j))
      (TextStyle.ofJson? j) := by
  cases j with
  | arr items => exact .rfl
  | obj fields =>
    -- the fields of a style are found where they were
    have hfield : ∀ name, name ∉ silentFields →
        Json.field name (Json.quiet (.obj fields)) = Json.field name (.obj fields) := by
      intro name h
      rw [Json.quiet, Json.field, Json.find?_filter_silent h]
      rfl
    rw [Json.silencedField, if_pos rfl, Json.quiet, SameUnder, TextStyle.ofJson?_obj,
      TextStyle.ofJson?_obj]
    rw [Json.quiet] at hfield
    unfold TextStyle.ofJson
    simp only [member_obj, ok_bind]
    simp (disch := decide) only [hfield]
    rfl
  | _ => exact .rfl

/-! ### Nodes -/

/-- What a node says of itself, without what is silent. -/
def Traits.silenced (t : Traits) : Traits :=
  { t with
    id := "", name := .null, characters := .null
    fills := t.fills.map (List.map Paint.silenced)
    strokes := t.strokes.map (List.map Paint.silenced)
    style := some (TextStyle.silenced t.style) }

mutual

/-- **A node without what is silent**, in it and in the nodes below it. -/
def Node.silenced : Node → Node
  | ⟨t, none⟩ => ⟨t.silenced, none⟩
  | ⟨t, some children⟩ => ⟨t.silenced, some (silencedNodes children)⟩

/-- The nodes of a list. -/
def silencedNodes : List Node → List Node
  | [] => []
  | node :: rest => node.silenced :: silencedNodes rest

end

theorem silencedNodes_eq_map (nodes : List Node) : silencedNodes nodes = nodes.map Node.silenced := by
  induction nodes with
  | nil => rfl
  | cons node rest ih => rw [silencedNodes, ih, List.map_cons]

theorem Node.silenced_mk (t : Traits) (children : Option (List Node)) :
    Node.silenced ⟨t, children⟩ = ⟨t.silenced, children.map (List.map Node.silenced)⟩ := by
  cases children with
  | none => rfl
  | some children => rw [Node.silenced, silencedNodes_eq_map]; rfl

/-- **What a node says of itself is read alike** without its silent fields. -/
theorem Traits.ofJson_silenced (fields : List (String × Json)) :
    SameUnder Traits.silenced (Traits.ofJson (.obj (Json.silencedFields fields)))
      (Traits.ofJson (.obj fields)) := by
  have hpaints : ∀ name ∈ ["fills", "strokes"],
      SameUnder (Option.map (List.map Paint.silenced))
        ((Json.field name (.obj (Json.silencedFields fields))).mapGiven? Paint.ofJson)
        ((Json.field name (.obj fields)).mapGiven? Paint.ofJson) := by
    -- the two lists are not silent themselves
    intro name hname
    have hheard : name ∉ silentFields := by
      rintro hsilent
      rcases List.mem_cons.mp hname with rfl | hname
      · exact absurd hsilent (by decide)
      · obtain rfl := List.mem_singleton.mp hname
        exact absurd hsilent (by decide)
    rw [Json.field_silencedFields hheard]
    exact paints_silenced hname _
  have hstyle : SameUnder TextStyle.silenced
      (TextStyle.ofJson? (Json.field "style" (.obj (Json.silencedFields fields))))
      (TextStyle.ofJson? (Json.field "style" (.obj fields))) := by
    rw [Json.field_silencedFields (by decide)]
    exact style_silenced _
  -- all other fields are read from the same values
  unfold Traits.ofJson visibleIn
  simp only [member_obj, memberOr_obj, ok_bind]
  simp (disch := decide) only [Json.field_silencedFields_of_plain]
  refine .andThen fun box => ?_
  refine (hpaints "fills" (by decide)).bind fun fills fills' hfills => ?_
  refine (hpaints "strokes" (by decide)).bind fun strokes strokes' hstrokes => ?_
  refine .andThen fun effects => ?_
  refine hstyle.bind fun style style' hstyle => ?_
  refine .andThen fun backgroundColor => .andThen fun visible => .ok ?_
  -- the two readings agree in all that is not silent
  simp only [Traits.silenced, hfills, hstrokes, hstyle]

mutual

/-- **Reading a document without its silent fields** gives the same node but for those fields, and
fails alike. -/
theorem Node.ofJson_silenced (j : Json) :
    SameUnder Node.silenced (Node.ofJson j.silenced) (Node.ofJson j) := by
  cases j with
  | obj fields =>
    rw [Json.silenced, Node.ofJson, Node.ofJson]
    refine (childrenField_silenced fields).bind fun children children' hchildren => ?_
    refine (Traits.ofJson_silenced fields).bind fun t t' ht => .ok ?_
    rw [Node.silenced_mk, Node.silenced_mk, ht, hchildren]
  | _ => exact .rfl

theorem childrenField_silenced (fields : List (String × Json)) :
    SameUnder (Option.map (List.map Node.silenced)) (childrenField (Json.silencedFields fields))
      (childrenField fields) := by
  cases fields with
  | nil => exact .rfl
  | cons field rest =>
    obtain ⟨name, value⟩ := field
    rw [Json.silencedFields]
    by_cases silent : name ∈ silentFields
    -- a silent field is not the list of children
    · have hname : name ≠ "children" := by
        rintro rfl
        exact absurd silent (by decide)
      rw [if_pos silent, childrenField, if_neg hname]
      exact childrenField_silenced rest
    -- the first list of children counts, on both sides
    · rw [if_neg silent, childrenField, childrenField]
      split
      · rename_i hname
        rw [hname]
        exact childrenOf_silenced value
      · exact childrenField_silenced rest

theorem childrenOf_silenced (j : Json) :
    SameUnder (Option.map (List.map Node.silenced)) (childrenOf (Json.silencedField "children" j))
      (childrenOf j) := by
  cases j with
  | arr items =>
    rw [Json.silencedField, if_pos rfl, childrenOf, childrenOf]
    exact (nodesOf_silenced items).bind fun nodes nodes' hnodes => .ok (congrArg some hnodes)
  | obj fields => exact .rfl
  | _ => exact .rfl

theorem nodesOf_silenced (items : List Json) :
    SameUnder (List.map Node.silenced) (nodesOf (Json.silencedItems items)) (nodesOf items) := by
  cases items with
  | nil => exact .rfl
  | cons item rest =>
    rw [Json.silencedItems]
    cases item with
    -- null is passed over
    | null => exact nodesOf_silenced rest
    -- the first child, then the rest
    | obj fields =>
      have hitem := Node.ofJson_silenced (.obj fields)
      rw [Json.silenced] at hitem ⊢
      simp only [nodesOf]
      refine hitem.bind fun node node' hnode => ?_
      refine (nodesOf_silenced rest).bind fun nodes nodes' hnodes => .ok ?_
      rw [List.map_cons, List.map_cons, hnode, hnodes]
    | _ => exact .rfl

end

end Mockup
