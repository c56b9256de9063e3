import Mockup.Design.Reading
import Mockup.Proofs.Number.Range
import Mockup.Proofs.Outcome

/-!
# Documents as they are documented

A document may hold anything anywhere, and reading it may fail. A document that keeps to the
documented types is read: a field that is absent or `null` has its default, and the others are read
into nodes whose parts are of the types that their use requires.

* `Json.isMeasure` — a number whose magnitude is at most `10 ^ 15`;
* `Json.isRecord` — an object whose fields, where they are present, are of given types;
* `Json.isDocument` — **a document of the documented types**, at every depth;
* `Color.Sound`, …, `Node.Sound` — what reading makes of such values;
* `node_yields` — **a document of the documented types is read**.

Only the fields whose values are used are asked for their types: those of a paint or an effect
depend on its variant, and identifiers, names, variants, visibility and the modes of layout may be
any value.
-/

namespace Mockup

/-! ### Types of values -/

namespace Json

/-- The greatest magnitude of a measure. -/
def measureBound : Nat := 10 ^ 15

/-- **A measure**: a number whose magnitude is at most the bound. -/
def isMeasure : Json → Bool
  | .num (.whole z) => z.natAbs ≤ measureBound
  | .num (.double (.finite _ n _)) => n ≤ measureBound * Binary64.unit
  | _ => false

/-- A text. -/
def isString : Json → Bool
  | .str _ => true
  | _ => false

/-- `null`, or a value of a type. -/
def isNullOr (type : Json → Bool) (j : Json) : Bool := j.isNull || type j

/-- An array of values of a type. -/
def isArrayOf (type : Json → Bool) : Json → Bool
  | .arr items => items.all type
  | _ => false

/-- A field of a value; where there is none it is `null`. -/
def field (name : String) : Json → Json
  | .obj fields => (find? name fields).getD .null
  | _ => .null

/-- The types of the fields of an object. -/
abbrev Shape := List (String × (Json → Bool))

/-- **An object of a shape.** Its fields, where they are present and not `null`, are of the types of
the shape; other fields may be anything. -/
def isRecord (shape : Shape) : Json → Bool
  | .obj fields => shape.all fun entry => isNullOr entry.2 (field entry.1 (.obj fields))
  | _ => false

/-! ### The documented types -/

/-- A colour. -/
def isColor : Json → Bool :=
  isRecord [("r", isMeasure), ("g", isMeasure), ("b", isMeasure), ("a", isMeasure)]

/-- A point. -/
def isVector : Json → Bool := isRecord [("x", isMeasure), ("y", isMeasure)]

/-- A rectangle. -/
def isBox : Json → Bool :=
  isRecord [("x", isMeasure), ("y", isMeasure), ("width", isMeasure), ("height", isMeasure)]

/-- A stop of a gradient. -/
def isStop : Json → Bool := isRecord [("position", isMeasure), ("color", isColor)]

/-- The fields of a paint, which depend on its variant. -/
def paintShape (type : Json) : Shape :=
  ("opacity", isMeasure) ::
    if type.isText "SOLID" then [("color", isColor)]
    else if type.isText "GRADIENT_LINEAR" || type.isText "GRADIENT_RADIAL" then
      [("gradientHandlePositions", isArrayOf (isNullOr isVector)),
       ("gradientStops", isArrayOf (isNullOr isStop))]
    else []

/-- A paint. -/
def isPaint (j : Json) : Bool := j.isRecord (paintShape (j.field "type"))

/-- The fields of an effect, which depend on its variant. -/
def effectShape (type : Json) : Shape :=
  ("radius", isMeasure) ::
    if type.isText "DROP_SHADOW" || type.isText "INNER_SHADOW" then
      [("offset", isVector), ("spread", isMeasure), ("color", isColor)]
    else []

/-- An effect. -/
def isEffect (j : Json) : Bool := j.isRecord (effectShape (j.field "type"))

/-- The style of a label. -/
def isStyle : Json → Bool :=
  isRecord [("fontFamily", isString), ("fontWeight", isMeasure), ("fontSize", isMeasure),
    ("textAlignHorizontal", isString), ("textAlignVertical", isString),
    ("letterSpacing", isMeasure), ("lineHeightPx", isMeasure), ("lineHeightPercent", isMeasure)]

/-- The fields of a node, apart from its children. -/
def nodeShape : Shape :=
  [("absoluteBoundingBox", isBox), ("fills", isArrayOf (isNullOr isPaint)),
   ("strokes", isArrayOf (isNullOr isPaint)), ("strokeWeight", isMeasure),
   ("effects", isArrayOf (isNullOr isEffect)), ("characters", isString), ("style", isStyle),
   ("primaryAxisAlignItems", isString), ("counterAxisAlignItems", isString),
   ("paddingLeft", isMeasure), ("paddingRight", isMeasure), ("paddingTop", isMeasure),
   ("paddingBottom", isMeasure), ("itemSpacing", isMeasure), ("backgroundColor", isColor),
   ("opacity", isMeasure), ("cornerRadius", isMeasure),
   ("rectangleCornerRadii", isArrayOf isMeasure)]

mutual

/-- **A document of the documented types**, at every depth. -/
def isDocument : Json → Bool
  | .obj fields => isRecord nodeShape (.obj fields) && hasDocuments fields
  | _ => false

/-- The children among the fields of a node: none, `null`, or documents. -/
def hasDocuments : List (String × Json) → Bool
  | [] => true
  | (name, value) :: rest =>
    if name = "children" then
      match value with
      | .null => true
      | .arr items => areDocuments items
      | _ => false
    else hasDocuments rest

/-- Documents or `null`. -/
def areDocuments : List Json → Bool
  | [] => true
  | .null :: rest => areDocuments rest
  | item :: rest => item.isDocument && areDocuments rest

end

theorem isNullOr_cases {type : Json → Bool} {j : Json} (h : isNullOr type j = true) :
    j = .null ∨ type j = true := by
  cases j with
  | null => exact .inl rfl
  | _ => exact .inr h

/-- The items of an array of values of a type. -/
theorem items_of_isArrayOf {type : Json → Bool} {j : Json} (h : isArrayOf type j = true) :
    ∃ items, j = .arr items ∧ ∀ item ∈ items, type item = true := by
  cases j with
  | arr items => exact ⟨items, rfl, List.all_eq_true.mp h⟩
  | _ => cases h

/-- The fields of an object of a shape. -/
theorem fields_of_isRecord {shape : Shape} {j : Json} (h : isRecord shape j = true) :
    ∃ fields, j = .obj fields
      ∧ ∀ name type, (name, type) ∈ shape → isNullOr type (field name (.obj fields)) = true := by
  cases j with
  | obj fields => exact ⟨fields, rfl, fun name type hmem => List.all_eq_true.mp h _ hmem⟩
  | _ => cases h

/-- A field that is absent or `null` has its default, which is of the type of the field. -/
theorem orDefault_of_isNullOr {type : Json → Bool} {j default : Json}
    (h : isNullOr type j = true) (hdefault : type default = true) :
    type (j.orDefault default) = true := by
  cases j with
  | null => exact hdefault
  | _ => exact h

/-- A value that does not count as given has its default, which is of the type of the value. -/
theorem orElse_of_isNullOr {type : Json → Bool} {j default : Json}
    (h : isNullOr type j = true) (hdefault : type default = true) :
    type (j.orElse default) = true := by
  rcases isNullOr_cases h with rfl | h
  · exact hdefault
  unfold orElse
  split
  · exact h
  · exact hdefault

theorem isMeasure_zero : isMeasure zero = true := by decide +kernel

theorem isMeasure_one : isMeasure one = true := by decide +kernel

end Json

/-! ### What reading makes of them -/

open Json

/-- A colour whose channels are measures. -/
structure Color.Sound (c : Color) : Prop where
  r : c.r.isMeasure
  g : c.g.isMeasure
  b : c.b.isMeasure
  a : c.a.isMeasure

/-- A point whose coordinates are measures. -/
structure Vector.Sound (v : Vector) : Prop where
  x : v.x.isMeasure
  y : v.y.isMeasure

/-- A rectangle whose sides are measures. -/
structure Box.Sound (b : Box) : Prop where
  x : b.x.isMeasure
  y : b.y.isMeasure
  width : b.width.isMeasure
  height : b.height.isMeasure

/-- A stop of a sound colour at a measure. -/
structure Stop.Sound (s : Stop) : Prop where
  position : s.position.isMeasure
  color : s.color.Sound

/-- A fill made of sound parts. -/
def Fill.Sound : Fill → Prop
  | .solid color => color.Sound
  | .linear handles stops | .radial handles stops =>
    (∀ v ∈ handles, v.Sound) ∧ ∀ s ∈ stops, s.Sound
  | .image .. | .unknown _ => True

/-- A paint of a sound fill, its opacity not given or a measure. -/
structure Paint.Sound (p : Paint) : Prop where
  fill : p.fill.Sound
  opacity : isNullOr isMeasure p.opacity

/-- A shadow made of sound parts, or another effect. -/
def Glow.Sound : Glow → Prop
  | .shadow _ radius offset spread color =>
    radius.isMeasure ∧ offset.Sound ∧ spread.isMeasure ∧ color.Sound
  | .blur .. | .unknown _ => True

/-- A label's style whose parts are not given or of the types of their fields. -/
structure TextStyle.Sound (s : TextStyle) : Prop where
  fontWeight : isNullOr isMeasure s.fontWeight
  fontSize : isNullOr isMeasure s.fontSize
  alignHorizontal : isNullOr isString s.alignHorizontal
  alignVertical : isNullOr isString s.alignVertical
  letterSpacing : isNullOr isMeasure s.letterSpacing
  lineHeightPx : isNullOr isMeasure s.lineHeightPx
  lineHeightPercent : isNullOr isMeasure s.lineHeightPercent

/-- **What a sound node says of itself.** -/
structure Traits.Sound (t : Traits) : Prop where
  box : ∀ b ∈ t.box, b.Sound
  fills : ∀ p ∈ t.fills.getD [], p.Sound
  strokes : ∀ p ∈ t.strokes.getD [], p.Sound
  strokeWeight : isNullOr isMeasure t.strokeWeight
  effects : ∀ e ∈ t.effects.getD [], e.glow.Sound
  characters : isNullOr isString t.characters
  style : ∀ s ∈ t.style, s.Sound
  primaryAlign : isNullOr isString t.primaryAlign
  counterAlign : isNullOr isString t.counterAlign
  paddingLeft : isNullOr isMeasure t.paddingLeft
  paddingRight : isNullOr isMeasure t.paddingRight
  paddingTop : isNullOr isMeasure t.paddingTop
  paddingBottom : isNullOr isMeasure t.paddingBottom
  itemSpacing : isNullOr isMeasure t.itemSpacing
  backgroundColor : ∀ c ∈ t.backgroundColor, c.Sound
  opacity : isNullOr isMeasure t.opacity
  cornerRadius : isNullOr isMeasure t.cornerRadius
  cornerRadii : isNullOr (isArrayOf isMeasure) t.cornerRadii

/-- **A sound node**: it is sound, and so is everything below it. -/
inductive Node.Sound : Node → Prop
  | mk {t : Traits} {children : Option (List Node)} (traits : t.Sound)
    (below : ∀ child ∈ children.getD [], child.Sound) : Node.Sound ⟨t, children⟩

/-! ### Reading values -/

@[simp] theorem ok_bind {α β : Type} (a : α) (next : α → Result β) :
    ((Except.ok a : Result α) >>= next) = next a := rfl

@[simp] theorem member_obj (fields : List (String × Json)) (name : String) :
    (Json.obj fields).member name = .ok (field name (.obj fields)) := rfl

@[simp] theorem memberOr_obj (fields : List (String × Json)) (name : String) (default : Json) :
    (Json.obj fields).memberOr name default = .ok ((find? name fields).getD default) := rfl

theorem sound_default_color : Color.Sound {} :=
  ⟨isMeasure_zero, isMeasure_zero, isMeasure_zero, isMeasure_one⟩

theorem sound_default_vector : Vector.Sound {} := ⟨isMeasure_zero, isMeasure_zero⟩

theorem sound_default_stop : Stop.Sound {} := ⟨isMeasure_zero, sound_default_color⟩

theorem color_yields {j : Json} (h : isNullOr isColor j = true) :
    Yields (Color.ofJson j) Color.Sound := by
  rcases isNullOr_cases h with rfl | h
  · exact .ok sound_default_color
  obtain ⟨fields, rfl, hfields⟩ := fields_of_isRecord h
  unfold Color.ofJson
  split
  · refine .ok ⟨?_, ?_, ?_, ?_⟩
    · exact orDefault_of_isNullOr (hfields "r" _ (by simp)) isMeasure_zero
    · exact orDefault_of_isNullOr (hfields "g" _ (by simp)) isMeasure_zero
    · exact orDefault_of_isNullOr (hfields "b" _ (by simp)) isMeasure_zero
    · exact orDefault_of_isNullOr (hfields "a" _ (by simp)) isMeasure_one
  · exact .ok sound_default_color

/-- A colour that may be missing. -/
theorem color?_yields {j : Json} (h : isNullOr isColor j = true) :
    Yields (Color.ofJson? j) (fun color => ∀ c ∈ color, c.Sound) := by
  unfold Color.ofJson?
  split
  · exact .ok fun c hc => by cases hc
  · refine (color_yields h).map fun color hcolor => ?_
    rintro _ ⟨⟩
    exact hcolor

theorem vector_yields {j : Json} (h : isNullOr isVector j = true) :
    Yields (Vector.ofJson j) Vector.Sound := by
  rcases isNullOr_cases h with rfl | h
  · exact .ok sound_default_vector
  obtain ⟨fields, rfl, hfields⟩ := fields_of_isRecord h
  unfold Vector.ofJson
  split
  · refine .ok ⟨?_, ?_⟩
    · exact orDefault_of_isNullOr (hfields "x" _ (by simp)) isMeasure_zero
    · exact orDefault_of_isNullOr (hfields "y" _ (by simp)) isMeasure_zero
  · exact .ok sound_default_vector

theorem box_yields {j : Json} (h : isNullOr isBox j = true) :
    Yields (Box.ofJson? j) (fun box => ∀ b ∈ box, b.Sound) := by
  -- a missing box asks for nothing
  have hnone : Yields (.ok none) (fun box => ∀ b ∈ (box : Option Box), b.Sound) :=
    .ok fun b hb => by cases hb
  rcases isNullOr_cases h with rfl | h
  · exact hnone
  obtain ⟨fields, rfl, hfields⟩ := fields_of_isRecord h
  unfold Box.ofJson?
  split
  -- each measure is a number, or the zero put in its place
  · refine .ok ?_
    rintro _ ⟨⟩
    refine ⟨?_, ?_, ?_, ?_⟩
    · exact orDefault_of_isNullOr (hfields "x" _ (by simp)) isMeasure_zero
    · exact orDefault_of_isNullOr (hfields "y" _ (by simp)) isMeasure_zero
    · exact orDefault_of_isNullOr (hfields "width" _ (by simp)) isMeasure_zero
    · exact orDefault_of_isNullOr (hfields "height" _ (by simp)) isMeasure_zero
  · exact hnone

theorem stop_yields {j : Json} (h : isNullOr isStop j = true) :
    Yields (Stop.ofJson j) Stop.Sound := by
  rcases isNullOr_cases h with rfl | h
  · exact .ok sound_default_stop
  obtain ⟨fields, rfl, hfields⟩ := fields_of_isRecord h
  unfold Stop.ofJson
  split
  · refine (color_yields (hfields "color" _ (by simp))).bind fun color hcolor => .ok ⟨?_, hcolor⟩
    exact orDefault_of_isNullOr (hfields "position" _ (by simp)) isMeasure_zero
  · exact .ok sound_default_stop

/-! ### Reading lists -/

section Lists

variable {α : Type} {type : Json → Bool} {read : Json → Result α} {P : α → Prop} {j : Json}

/-- A list whose entries, `null` among them, are each read. -/
theorem mapEntries_yields (hread : ∀ item, isNullOr type item = true → Yields (read item) P)
    (h : isNullOr (isArrayOf (isNullOr type)) j = true) :
    Yields (j.mapEntries read) (fun values => ∀ a ∈ values, P a) := by
  rcases isNullOr_cases h with rfl | h
  · exact .ok fun a ha => absurd ha List.not_mem_nil
  obtain ⟨items, rfl, hitems⟩ := items_of_isArrayOf h
  unfold Json.mapEntries
  split
  · exact .mapM fun item hitem => hread item (hitems item hitem)
  · exact .ok fun a ha => absurd ha List.not_mem_nil

/-- A list whose entries are each read, apart from those that are `null`. -/
theorem mapGiven?_yields (hread : ∀ item, type item = true → Yields (read item) P)
    (h : isNullOr (isArrayOf (isNullOr type)) j = true) :
    Yields (j.mapGiven? read) (fun values => ∀ a ∈ values.getD [], P a) := by
  -- no list is an empty one
  rcases isNullOr_cases h with rfl | h
  · exact .ok fun a ha => absurd ha List.not_mem_nil
  obtain ⟨items, rfl, hitems⟩ := items_of_isArrayOf h
  -- what is left of the list is not `null`, so it is of the type
  have hgiven : ∀ item ∈ items.filter (!·.isNull), Yields (read item) P := by
    intro item hitem
    obtain ⟨hmem, given⟩ := List.mem_filter.mp hitem
    rcases isNullOr_cases (hitems item hmem) with rfl | htype
    · cases given
    · exact hread item htype
  exact (Yields.mapM hgiven).bind fun values hvalues => .ok hvalues

end Lists

/-! ### Reading paints and effects -/

/-- Reading whether a value is shown does not fail for an object. -/
theorem visibleIn_succeeds (fields : List (String × Json)) :
    Succeeds (visibleIn (.obj fields)) := by
  unfold visibleIn
  rw [member_obj, ok_bind]
  split
  · exact .ok trivial
  · exact .ok trivial

/-- A gradient is read, whichever kind of gradient it is. -/
theorem gradient_yields {make : List Vector → List Stop → Fill}
    (hmake : ∀ handles stops, (∀ v ∈ handles, v.Sound) → (∀ s ∈ stops, s.Sound) →
      (make handles stops).Sound)
    {fields : List (String × Json)}
    (hhandles : isNullOr (isArrayOf (isNullOr isVector))
      (field "gradientHandlePositions" (.obj fields)) = true)
    (hstops : isNullOr (isArrayOf (isNullOr isStop)) (field "gradientStops" (.obj fields)) = true) :
    Yields (gradientOfJson make (.obj fields)) Fill.Sound := by
  refine (mapEntries_yields (fun _ => vector_yields) hhandles).bind fun handles hvectors => ?_
  refine (mapEntries_yields (fun _ => stop_yields) hstops).bind fun stops hsound => ?_
  exact .ok (hmake handles stops hvectors hsound)

theorem paint_yields {j : Json} (h : isPaint j = true) : Yields (Paint.ofJson j) Paint.Sound := by
  obtain ⟨fields, rfl, hfields⟩ := fields_of_isRecord h
  -- the opacity is kept as it is, so its type is that of the design
  obtain ⟨visible, hvisible, -⟩ := visibleIn_succeeds fields
  have hopacity := hfields "opacity" isMeasure (by simp [paintShape])
  have hfill : Yields (Fill.ofJson (field "type" (.obj fields)) (.obj fields)) Fill.Sound := by
    unfold Fill.ofJson
    unfold paintShape at hfields
    -- the variant decides which fields are read, and the shape has the types of just these
    generalize field "type" (.obj fields) = type at hfields ⊢
    split
    -- a solid paint has a color
    · rw [if_pos ‹_›] at hfields
      refine (color_yields (hfields "color" _ (by simp))).bind fun color hcolor => .ok hcolor
    rw [if_neg ‹_›] at hfields
    split
    -- the gradients have handles and stops
    · rw [if_pos (by simp_all)] at hfields
      refine gradient_yields ?_ (hfields _ _ (by simp)) (hfields _ _ (by simp))
      exact fun _ _ hhandles hstops => ⟨hhandles, hstops⟩
    split
    · rw [if_pos (by simp_all)] at hfields
      refine gradient_yields ?_ (hfields _ _ (by simp)) (hfields _ _ (by simp))
      exact fun _ _ hhandles hstops => ⟨hhandles, hstops⟩
    split
    -- an image and an unknown variant have nothing to check
    · exact .ok trivial
    · exact .ok trivial
  -- the paint is put together from what was read
  change Yields (do
    let visible ← visibleIn (.obj fields)
    let fill ← Fill.ofJson (field "type" (.obj fields)) (.obj fields)
    return (⟨fill, visible, field "opacity" (.obj fields)⟩ : Paint)) Paint.Sound
  refine (visibleIn_succeeds fields).bind fun visible _ => hfill.bind fun fill hsound => ?_
  exact .ok ⟨hsound, hopacity⟩

theorem effect_yields {j : Json} (h : isEffect j = true) :
    Yields (Effect.ofJson j) fun effect => effect.glow.Sound := by
  obtain ⟨fields, rfl, hfields⟩ := fields_of_isRecord h
  -- the radius of a glow is a number
  have hradius := orDefault_of_isNullOr (hfields "radius" isMeasure (by simp [effectShape]))
    isMeasure_zero
  have hglow : Yields (Glow.ofJson (field "type" (.obj fields))
      ((field "radius" (.obj fields)).orDefault zero) (.obj fields)) Glow.Sound := by
    unfold Glow.ofJson
    unfold effectShape at hfields
    generalize field "type" (.obj fields) = type at hfields ⊢
    -- both kinds of shadow are read alike
    have shadow : (type.isText "DROP_SHADOW" || type.isText "INNER_SHADOW") = true →
        ∀ inset, Yields (shadowOfJson inset ((field "radius" (.obj fields)).orDefault zero)
          (.obj fields)) Glow.Sound := by
      intro isShadow inset
      rw [if_pos isShadow] at hfields
      -- so are its spread and its offset
      have hspread := orDefault_of_isNullOr (hfields "spread" _ (by simp)) isMeasure_zero
      refine (vector_yields (hfields "offset" _ (by simp))).bind fun offset hoffset => ?_
      refine (color_yields (hfields "color" _ (by simp))).bind fun color hcolor => ?_
      exact .ok ⟨hradius, hoffset, hspread, hcolor⟩
    split
    · exact shadow (by simp [*]) false
    split
    · exact shadow (by simp [*]) true
    split
    -- the blurs have a radius only
    · exact .ok trivial
    split
    · exact .ok trivial
    · exact .ok trivial
  -- the effect is put together from what was read
  change Yields (do
    let visible ← visibleIn (.obj fields)
    let glow ← Glow.ofJson (field "type" (.obj fields))
      ((field "radius" (.obj fields)).orDefault zero) (.obj fields)
    return (⟨glow, visible⟩ : Effect)) fun effect => effect.glow.Sound
  exact (visibleIn_succeeds fields).bind fun visible _ => hglow.bind fun glow hsound => .ok hsound

theorem style?_yields {j : Json} (h : isNullOr isStyle j = true) :
    Yields (TextStyle.ofJson? j) (fun style => ∀ s ∈ style, s.Sound) := by
  -- no style asks for nothing
  have hnone : Yields (.ok none) (fun style => ∀ s ∈ (style : Option TextStyle), s.Sound) :=
    .ok fun s hs => by cases hs
  rcases isNullOr_cases h with rfl | h
  · exact hnone
  obtain ⟨fields, rfl, hfields⟩ := fields_of_isRecord h
  unfold TextStyle.ofJson?
  split
  · refine .ok ?_
    rintro _ ⟨⟩
    -- the fields of a style are those of its shape
    exact ⟨hfields _ _ (by simp), hfields _ _ (by simp), hfields _ _ (by simp),
      hfields _ _ (by simp), hfields _ _ (by simp), hfields _ _ (by simp), hfields _ _ (by simp)⟩
  · exact hnone

/-! ### Reading nodes -/

/-- What a node says of itself is read. -/
theorem traits_yields {fields : List (String × Json)}
    (h : isRecord nodeShape (.obj fields) = true) :
    Yields (Traits.ofJson (.obj fields)) Traits.Sound := by
  obtain ⟨_, ⟨⟩, hfields⟩ := fields_of_isRecord h
  unfold Traits.ofJson
  -- a node is read field by field, and each field has the type of its shape
  simp only [memberOr_obj, member_obj, ok_bind]
  refine (box_yields (hfields _ _ (by simp [nodeShape]))).bind fun box hbox => ?_
  refine (mapGiven?_yields (fun _ => paint_yields)
    (hfields "fills" _ (by simp [nodeShape]))).bind fun fills hfills => ?_
  refine (mapGiven?_yields (fun _ => paint_yields)
    (hfields "strokes" _ (by simp [nodeShape]))).bind fun strokes hstrokes => ?_
  refine (mapGiven?_yields (fun _ => effect_yields)
    (hfields "effects" _ (by simp [nodeShape]))).bind fun effects heffects => ?_
  refine (style?_yields (hfields "style" _ (by simp [nodeShape]))).bind fun style hstyle => ?_
  refine (color?_yields (hfields "backgroundColor" _ (by simp [nodeShape]))).bind
    fun backgroundColor hbackgroundColor => ?_
  refine (visibleIn_succeeds fields).bind fun visible _ => ?_
  -- the fields that are kept as they are come straight from the shape
  exact .pure
    { box := hbox, fills := hfills, strokes := hstrokes, effects := heffects, style := hstyle
      backgroundColor := hbackgroundColor
      strokeWeight := hfields _ _ (by simp [nodeShape])
      characters := hfields _ _ (by simp [nodeShape])
      primaryAlign := hfields _ _ (by simp [nodeShape])
      counterAlign := hfields _ _ (by simp [nodeShape])
      paddingLeft := hfields _ _ (by simp [nodeShape])
      paddingRight := hfields _ _ (by simp [nodeShape])
      paddingTop := hfields _ _ (by simp [nodeShape])
      paddingBottom := hfields _ _ (by simp [nodeShape])
      itemSpacing := hfields _ _ (by simp [nodeShape])
      opacity := hfields _ _ (by simp [nodeShape])
      cornerRadius := hfields _ _ (by simp [nodeShape])
      cornerRadii := hfields _ _ (by simp [nodeShape]) }

mutual

/-- **A document of the documented types is read**, and makes a sound node. -/
theorem node_yields : ∀ {j : Json}, j.isDocument = true → Yields (Node.ofJson j) Node.Sound
  | .obj fields, h => by
    rw [isDocument, Bool.and_eq_true] at h
    rw [Node.ofJson]
    refine (children_yields h.2).bind fun children hchildren => ?_
    exact (traits_yields h.1).bind fun traits htraits => .ok ⟨htraits, hchildren⟩
  | .null, h | .bool _, h | .num _, h | .str _, h | .arr _, h => by simp [isDocument] at h

/-- Its children are read. -/
theorem children_yields : ∀ {fields : List (String × Json)}, hasDocuments fields = true →
    Yields (childrenField fields) fun children => ∀ child ∈ children.getD [], child.Sound
  | [], _ => .ok fun child hchild => absurd hchild List.not_mem_nil
  | (name, value) :: rest, h => by
    rw [hasDocuments.eq_def] at h
    dsimp only at h
    rw [childrenField]
    -- the first field of this name counts, for the types as for the reader
    by_cases hname : name = "children"
    · rw [if_pos hname] at h ⊢
      cases value with
      | null => exact .ok fun child hchild => absurd hchild List.not_mem_nil
      -- a list of nodes, each with the types
      | arr items => exact (nodes_yields h).bind fun nodes hnodes => .ok hnodes
      | _ => simp at h
    · simp only [if_neg hname] at h ⊢
      exact children_yields h

/-- The nodes of a list are read. -/
theorem nodes_yields : ∀ {items : List Json}, areDocuments items = true →
    Yields (nodesOf items) fun nodes => ∀ node ∈ nodes, node.Sound
  | [], _ => .ok fun node hnode => absurd hnode List.not_mem_nil
  | .null :: rest, h => @nodes_yields rest h
  | .bool _ :: _, h | .num _ :: _, h | .str _ :: _, h | .arr _ :: _, h => by
    simp [areDocuments, isDocument] at h
  | .obj fields :: rest, h => by
    simp only [areDocuments, Bool.and_eq_true] at h
    refine (node_yields h.1).bind fun node hnode => ?_
    refine (nodes_yields h.2).bind fun nodes hnodes => .ok ?_
    exact List.forall_mem_cons.mpr ⟨hnode, hnodes⟩

end

end Mockup
