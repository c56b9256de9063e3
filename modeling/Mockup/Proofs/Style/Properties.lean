import Mockup.Proofs.Style.Entries

/-!
# The properties of a block

Every aspect of a node names properties of its own, in an order of its own, whatever the node is. So
the value that a block has for a property comes from the one aspect that names it.

* `Mentions` — a result names only some properties, in their order;
* `Style.sizeProperties`, …, `Style.textProperties` — the properties that each aspect names;
* `Style.entries_mention` — **the properties of a node**, in the order in which they are given;
* `Style.declarations_eq_ok` — a block that is finished, taken apart around the place of the node;
* `Style.position_mem_iff`, `Style.offset_mem` — **the place of a node in its block**.
-/

namespace Mockup

/-- **A result names only some properties**, each at most as often as they do and in their order. -/
def Mentions {β : Type} (result : Result (List (String × β))) (properties : List String) : Prop :=
  ∀ entries, result = .ok entries → (entries.map Prod.fst).Sublist properties

namespace Mentions

variable {α β : Type} {properties : List String}

theorem ok {entries : List (String × β)} (h : (entries.map Prod.fst).Sublist properties) :
    Mentions (.ok entries) properties := by
  rintro _ ⟨⟩
  exact h

/-- No entries name no properties. -/
theorem nothing : Mentions (.ok [] : Result (List (String × β))) properties :=
  ok (List.nil_sublist _)

theorem bind {result : Result α} {next : α → Result (List (String × β))}
    (h : ∀ a, result = .ok a → Mentions (next a) properties) :
    Mentions (result >>= next) properties := by
  intro entries hentries
  obtain ⟨a, ha, hnext⟩ := bind_eq_ok hentries
  exact h a ha entries hnext

/-- Entries after entries name the properties of both. -/
theorem append {first second : Result Entries} {more : List String}
    (hfirst : Mentions first properties) (hsecond : Mentions second more) :
    Mentions (do return (← first) ++ (← second)) (properties ++ more) := by
  refine bind fun a ha => bind fun b hb => ok ?_
  rw [List.map_append]
  exact (hfirst a ha).append (hsecond b hb)

theorem given {result : Result (List (String × String))} (h : Mentions result properties) :
    Mentions (Entries.given <$> result) properties := by
  intro entries hentries
  cases result with
  | error fault => cases hentries
  | ok pairs =>
    obtain rfl : Entries.given pairs = entries := Except.ok.inj hentries
    rw [← Entries.names, Entries.names_given]
    exact h pairs rfl

/-- A property that is not among those that may be named is not named. -/
theorem notMem {result : Result Entries} {entries : Entries} {property : String}
    (h : Mentions result properties) (hentries : result = .ok entries)
    (absent : property ∉ properties) : property ∉ entries.names :=
  fun hmem => absent ((h entries hentries).subset hmem)

/-- A result names none of other properties when all that it may name are outside them. -/
theorem disjoint {result : Result Entries} (h : Mentions result properties) (others : List String)
    (outside : ∀ name ∈ properties, name ∉ others)
    {entries : Entries} (hentries : result = .ok entries) :
    ∀ name ∈ entries.names, name ∉ others :=
  fun name hname => outside name ((h entries hentries).subset hname)

end Mentions

namespace Style

/-! ### The properties of each aspect -/

/-- The properties of the size. -/
def sizeProperties : List String := ["width", "height"]

/-- The properties of the place, apart from the mode. -/
def placeProperties (isRoot : Bool) : List String :=
  if isRoot then ["overflow", "background-color"] else ["left", "top"]

/-- The properties of the layout of the children. -/
def layoutProperties : List String :=
  ["display", "flex-direction", "gap", "padding", "align-items", "justify-content"]

/-- The properties of the background. -/
def surfaceProperties : List String := ["background", "background-color"]

/-- The properties of the border and its corners. -/
def outlineProperties : List String := ["border", "border-radius"]

/-- The properties of a label. -/
def textProperties : List String :=
  ["font-family", "font-size", "font-weight", "line-height", "letter-spacing", "text-align",
   "color"]

/-- The properties that follow the surface of a node. -/
def trailingProperties : List String :=
  outlineProperties ++ (["box-shadow"] ++ (["opacity"] ++ textProperties))

/-- The properties that follow the place of a node. -/
def laterProperties : List String :=
  layoutProperties ++ (surfaceProperties ++ (outlineProperties
    ++ (["box-shadow"] ++ (["opacity"] ++ textProperties))))

theorem size_mentions (node : Node) : Mentions (sizeEntries node) sizeProperties := by
  unfold sizeEntries
  split
  · exact .bind fun _ _ => .bind fun _ _ => .ok (.refl _)
  · exact .nothing

theorem offset_mentions (node : Node) (parent : Option Node) :
    Mentions (offset node parent) ["left", "top"] := by
  unfold offset
  split
  · refine .bind fun _ _ => .bind fun _ _ => .bind fun _ _ => .bind fun _ _ => .ok (.refl _)
  · exact .nothing

theorem placement_mentions (node : Node) (parent : Option Node) (isRoot : Bool) :
    Mentions (placement node parent isRoot) (placeProperties isRoot) := by
  unfold placement
  cases isRoot with
  | true => exact .ok (.refl _)
  | false =>
    rw [if_neg (by decide)]
    split
    · exact offset_mentions node parent
    · exact .nothing

theorem layout_mentions (node : Node) : Mentions (layoutEntries node) layoutProperties := by
  unfold layoutEntries
  refine .given ?_
  by_cases laidOut : node.hasAutoLayout = true
  -- a layout of its own names all seven
  · rw [if_pos laidOut, flexLayout, if_pos laidOut]
    exact .bind fun _ _ => .bind fun _ _ => .bind fun _ _ => .bind fun _ _ => .bind fun _ _ =>
      .bind fun _ _ => .bind fun _ _ => .ok (.refl _)
  -- an inferred one names three
  · rw [if_neg laidOut, inferredAlignment]
    split
    · split
      · refine .bind fun _ _ => .bind fun _ _ => .ok ?_
        -- an inferred alignment says nothing of direction, gap and padding
        exact .cons_cons _ (.cons _ (.cons _ (.cons _ (.refl _))))
      · exact .nothing
    · exact .nothing

theorem surface_mentions (node : Node) : Mentions (surfaceEntries node) surfaceProperties := by
  unfold surfaceEntries
  split
  · exact .nothing
  split
  · exact .bind fun _ _ => .ok (.cons_cons _ (List.nil_sublist _))
  split
  · exact .bind fun _ _ => .ok (.cons _ (.refl _))
  · exact .nothing

theorem corner_mentions (node : Node) : Mentions (cornerEntries node) ["border-radius"] := by
  unfold cornerEntries
  split
  · exact .bind fun _ _ => .ok (.refl _)
  split
  · refine .bind fun _ _ => ?_
    split
    · exact .bind fun _ _ => .bind fun _ _ => .ok (.refl _)
    · exact .nothing
  · exact .nothing

theorem outline_mentions (node : Node) : Mentions (outlineEntries node) outlineProperties :=
  .bind fun _ _ => .bind fun corners hcorners =>
    .ok (.cons_cons _ (corner_mentions node corners hcorners))

theorem shadow_mentions (node : Node) : Mentions (shadowEntries node) ["box-shadow"] :=
  .bind fun _ _ => .ok (.refl _)

theorem opacity_mentions (node : Node) : Mentions (opacityEntries node) ["opacity"] := by
  unfold opacityEntries
  split
  · exact .nothing
  refine .bind fun _ _ => ?_
  split
  · exact .bind fun _ _ => .ok (.refl _)
  · exact .nothing

theorem ifTruthy_mentions (j : Json) (property : String) (value : Json → Result String) :
    Mentions (ifTruthy j property value) [property] := by
  unfold ifTruthy
  split
  · exact .bind fun _ _ => .ok (.refl _)
  · exact .nothing

theorem ifPresent_mentions (j : Json) (property : String) (value : Json → Result String) :
    Mentions (ifPresent j property value) [property] := by
  unfold ifPresent
  split
  · exact .nothing
  · exact .bind fun _ _ => .ok (.refl _)

theorem lineHeight_mentions (style : TextStyle) : Mentions (lineHeight style) ["line-height"] := by
  unfold lineHeight
  split
  · exact ifTruthy_mentions _ _ _
  · exact ifTruthy_mentions _ _ _

/-- The family of a label, as its style declares it. -/
def family (style : TextStyle) : List (String × String) :=
  if style.fontFamily.truthy then [("font-family", fontFamily style.fontFamily)] else []

/-- The setting of a label: what its style declares beside the family. -/
def setting (style : TextStyle) : Result (List (String × String)) := do
  let size ← ifPresent style.fontSize "font-size" pixels
  let weight ← ifPresent style.fontWeight "font-weight" number
  let height ← lineHeight style
  let spacing ← ifTruthy style.letterSpacing "letter-spacing" pixels
  let alignment ← (style.alignHorizontal.orElse (.str "")).keyword
  return size ++ weight ++ height ++ spacing
    ++ (alignment.bind textAlignment?).toList.map ("text-align", ·)

/-- **A style declares the family and the setting.** -/
theorem typography_some (style : TextStyle) :
    typography (some style) = do return family style ++ (← setting style) := by
  have hfamily : ifTruthy style.fontFamily "font-family" (.ok ∘ fontFamily)
      = .ok (family style) := by
    unfold ifTruthy family
    split <;> rfl
  rw [typography, hfamily]
  simp only [setting, bind_assoc, pure_bind, List.append_assoc]
  rfl

theorem setting_mentions (style : TextStyle) :
    Mentions (setting style)
      ["font-size", "font-weight", "line-height", "letter-spacing", "text-align"] := by
  refine .bind fun size hsize => .bind fun weight hweight => .bind fun height hheight =>
    .bind fun spacing hspacing => .bind fun alignment _ => .ok ?_
  -- the alignment is one property or none
  have halignment : (((alignment.bind textAlignment?).toList.map (("text-align", ·))).map
      Prod.fst).Sublist ["text-align"] := by
    cases alignment.bind textAlignment? with
    | none => exact List.nil_sublist _
    | some word => exact .refl _
  simp only [List.map_append]
  -- the five groups, one behind the other
  exact ((((ifPresent_mentions _ _ _ _ hsize).append (ifPresent_mentions _ _ _ _ hweight)).append
    (lineHeight_mentions style _ hheight)).append (ifTruthy_mentions _ _ _ _ hspacing)).append
    halignment

theorem typography_mentions (style : Option TextStyle) :
    Mentions (typography style)
      ["font-family", "font-size", "font-weight", "line-height", "letter-spacing",
       "text-align"] := by
  cases style with
  | none => exact .nothing
  | some style =>
    -- the family is there or not
    have hfamily : ((family style).map Prod.fst).Sublist ["font-family"] := by
      unfold family
      split
      · exact .refl _
      · exact List.nil_sublist _
    rw [typography_some]
    refine .bind fun rest hrest => .ok ?_
    rw [List.map_append]
    exact hfamily.append (setting_mentions style rest hrest)

theorem text_mentions (node : Node) : Mentions (textEntries node) textProperties := by
  unfold textEntries
  split
  · refine .bind fun face hface => .bind fun _ _ => .ok ?_
    have hgiven := (typography_mentions node.style).given (Entries.given face) (by rw [hface]; rfl)
    rw [List.map_append]
    exact hgiven.append (.refl ["color"])
  · exact .nothing

/-- What follows the surface of a node in its block. -/
def trailingEntries (node : Node) : Result Entries :=
  concat [outlineEntries node, shadowEntries node, opacityEntries node, textEntries node]

/-- What follows the place of a node in its block. -/
def laterEntries (node : Node) : Result Entries :=
  concat [layoutEntries node, surfaceEntries node, outlineEntries node, shadowEntries node,
    opacityEntries node, textEntries node]

theorem trailing_mentions (node : Node) : Mentions (trailingEntries node) trailingProperties := by
  have htext : Mentions (concat [textEntries node]) textProperties := by
    rw [concat_singleton]
    exact text_mentions node
  exact (outline_mentions node).append <| (shadow_mentions node).append <|
    (opacity_mentions node).append htext

theorem later_mentions (node : Node) : Mentions (laterEntries node) laterProperties :=
  (layout_mentions node).append <| (surface_mentions node).append (trailing_mentions node)

/-- All properties that a block may have, in the order in which they are given. -/
def properties (isRoot : Bool) : List String :=
  sizeProperties ++ ("position" :: placeProperties isRoot ++ laterProperties)

theorem position_mentions (node : Node) (parent : Option Node) (isRoot : Bool) :
    Mentions (positionEntries node parent isRoot) ("position" :: placeProperties isRoot) :=
  .given <| .bind fun place hplace =>
    .ok ((placement_mentions node parent isRoot place hplace).cons_cons _)

/-- **The entries of a node name its properties in a fixed order.** -/
theorem entries_mention (node : Node) (parent : Option Node) (isRoot : Bool) :
    Mentions (entries node parent isRoot) (properties isRoot) :=
  (size_mentions node).append ((position_mentions node parent isRoot).append (later_mentions node))

/-! ### The place of a node in its block -/

variable {node : Node} {parent : Option Node} {isRoot : Bool} {block : Declarations}

/-- A block that is finished, taken apart around the place of the node. -/
theorem declarations_eq_ok (h : declarations node parent isRoot = .ok block) :
    ∃ size place later, sizeEntries node = .ok size ∧ positioning node parent isRoot = .ok place
      ∧ laterEntries node = .ok later
      ∧ block = ((Declarations.addAll {} size).addAll (Entries.given place)).addAll later := by
  obtain ⟨all, hentries, rfl⟩ := entries_of_declarations h
  obtain ⟨size, hsize, hafter⟩ := bind_eq_ok hentries
  obtain ⟨rest, hrest, hall⟩ := bind_eq_ok hafter
  obtain ⟨given, hgiven, hmore⟩ := bind_eq_ok hrest
  obtain ⟨later, hlater, hsum⟩ := bind_eq_ok hmore
  obtain rfl : given ++ later = rest := Except.ok.inj hsum
  obtain rfl : size ++ (given ++ later) = all := Except.ok.inj hall
  cases hplace : positioning node parent isRoot with
  -- a place that fails is not added
  | error fault => rw [positionEntries, hplace] at hgiven; cases hgiven
  | ok place =>
    rw [positionEntries, hplace] at hgiven
    obtain rfl : Entries.given place = given := Except.ok.inj hgiven
    refine ⟨size, place, later, hsize, rfl, hlater, ?_⟩
    rw [Declarations.addAll_append, Declarations.addAll_append]

/-- The place of a node: its mode, and what belongs to the mode. -/
theorem positioning_eq_ok {place : List (String × String)}
    (h : positioning node parent isRoot = .ok place) :
    ∃ rest, place = ("position", (positionMode node parent isRoot).name) :: rest
      ∧ placement node parent isRoot = .ok rest := by
  obtain ⟨rest, hrest, hplace⟩ := bind_eq_ok h
  exact ⟨rest, (Except.ok.inj hplace).symm, hrest⟩

/-- The placement of a node at an offset is its offset. -/
theorem placement_of_absolute (absolute : positionMode node parent isRoot = .absolute) :
    placement node parent isRoot = offset node parent := by
  cases isRoot with
  | true => cases absolute
  | false => rw [placement, if_neg (by decide), if_pos absolute]

/-- **The mode of a node is the value of `position` in its block.** -/
theorem value?_position (h : declarations node parent isRoot = .ok block) :
    block.value? "position" = some (positionMode node parent isRoot).name := by
  obtain ⟨size, place, later, -, hplace, hlater, rfl⟩ := declarations_eq_ok h
  obtain ⟨rest, rfl, hrest⟩ := positioning_eq_ok hplace
  -- what is placed after the position is no position
  have unmentioned : "position" ∉ Entries.names (Entries.given rest) := by
    rw [Entries.names_given]
    intro hmem
    have hmem := (placement_mentions node parent isRoot rest hrest).subset hmem
    cases isRoot <;> exact absurd hmem (by decide)
  -- the position is never empty
  have named : (positionMode node parent isRoot).name ≠ "" := by
    cases positionMode node parent isRoot <;> decide
  -- nothing later writes the property
  rw [Declarations.value?_addAll_of_notMem ((later_mentions node).notMem hlater (by decide))]
  exact (Declarations.value?_addAll_of_notMem unmentioned _).trans
    (Declarations.value?_add_self _ _ named)

/-- The words for modes tell them apart. -/
theorem PositionMode.name_inj {a b : PositionMode} (h : a.name = b.name) : a = b := by
  cases a <;> cases b <;> first | rfl | exact absurd h (by decide)

/-- A block declares no property twice. -/
theorem nodup_properties (h : declarations node parent isRoot = .ok block) :
    block.properties.Nodup := by
  obtain ⟨size, place, later, -, -, -, rfl⟩ := declarations_eq_ok h
  have empty : ({} : Declarations).properties.Nodup := .nil
  have sized := Declarations.nodup_properties_addAll empty size
  exact Declarations.nodup_properties_addAll (Declarations.nodup_properties_addAll sized _) later

/-- **The mode of a node is what its block declares as its position**, and nothing else is. -/
theorem position_mem_iff (h : declarations node parent isRoot = .ok block) {mode : PositionMode} :
    ("position", mode.name) ∈ block.toList ↔ mode = positionMode node parent isRoot := by
  rw [← Declarations.value?_eq_some (nodup_properties h), value?_position h, Option.some.injEq]
  exact ⟨fun hname => (PositionMode.name_inj hname).symm, fun hmode => by rw [hmode]⟩

/-- A length is not empty. -/
theorem ne_empty_of_pixels {j : Json} {value : String} (h : pixels j = .ok value) : value ≠ "" := by
  obtain ⟨figure, -, hvalue⟩ := bind_eq_ok h
  obtain rfl : figure ++ "px" = value := Except.ok.inj hvalue
  intro hempty
  have hlength : figure.length + "px".length = 0 := by
    rw [← String.length_append, hempty]
    rfl
  exact absurd (Nat.eq_zero_of_add_eq_zero_left hlength) (by decide)

/-- **The offset of a node in its block.** Where a node is placed at an offset and both it and its
parent have a rectangle, the offset is the difference of the two corners. -/
theorem offset_mem (h : declarations node parent isRoot = .ok block)
    (absolute : positionMode node parent isRoot = .absolute) {box outer : Box}
    (hbox : node.box = some box) (houter : parent.bind (·.box) = some outer) :
    ∃ left top, (do pixels (.num (← difference box.x outer.x))) = .ok left
      ∧ (do pixels (.num (← difference box.y outer.y))) = .ok top
      ∧ ("left", left) ∈ block.toList ∧ ("top", top) ∈ block.toList := by
  have nodup := nodup_properties h
  -- and nothing of the place after it
  obtain ⟨size, place, later, -, hplace, hlater, rfl⟩ := declarations_eq_ok h
  obtain ⟨rest, rfl, hoffset⟩ := positioning_eq_ok hplace
  -- the place of an absolute node is its offset
  rw [placement_of_absolute absolute] at hoffset
  simp only [offset, hbox, houter] at hoffset
  obtain ⟨across, hacross, hoffset⟩ := bind_eq_ok hoffset
  obtain ⟨left, hleft, hoffset⟩ := bind_eq_ok hoffset
  obtain ⟨down, hdown, hoffset⟩ := bind_eq_ok hoffset
  obtain ⟨top, htop, hoffset⟩ := bind_eq_ok hoffset
  obtain rfl : [("left", left), ("top", top)] = rest := Except.ok.inj hoffset
  -- what comes later names neither
  have unnamed : ∀ property ∈ ["left", "top"], property ∉ later.names := by
    intro property hproperty
    refine (later_mentions node).notMem hlater ?_
    revert property
    decide
  refine ⟨left, top, by rw [hacross]; exact hleft, by rw [hdown]; exact htop, ?_, ?_⟩
  -- the left offset is written before the top one
  · rw [← Declarations.value?_eq_some nodup,
      Declarations.value?_addAll_of_notMem (unnamed "left" (by decide))]
    change ((Declarations.add _ "left" (some left)).add "top" (some top)).value? "left" = _
    rw [Declarations.value?_add_of_ne (by decide)]
    exact Declarations.value?_add_self _ _ (ne_empty_of_pixels hleft)
  · rw [← Declarations.value?_eq_some nodup,
      Declarations.value?_addAll_of_notMem (unnamed "top" (by decide))]
    exact Declarations.value?_add_self _ _ (ne_empty_of_pixels htop)

end Style

end Mockup
