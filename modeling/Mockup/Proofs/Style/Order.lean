import Mathlib.Data.List.Perm.Subperm
import Mockup.Proofs.Style.Properties

/-!
# The order of the declarations

A block is built aspect by aspect, and a later aspect may give a value to a property that an earlier
one has declared. The property then keeps its place. So the order of a block is that of the aspects,
whatever is absent: a node names its properties in one fixed order, and the only property that two
aspects of a node name is the colour behind a root.

* `Declarations.properties_addAll_sublist` — **entries add the properties that are new**, in order;
* `Declarations.exists_toList_addAll` — a property that is declared keeps its place;
* `Style.declarationOrder` — the order of a block;
* `Style.Ordered` — what the order says of a block, with what is declared behind a node;
* `Style.block_ordered` — **every block is in order.**
-/

namespace Mockup

/-! ### Entries in order -/

namespace Declarations

/-- Giving a value to a property leaves the properties alone or adds the one at the end. -/
theorem properties_add (block : Declarations) (property : String) (value : Option String) :
    (block.add property value).properties = block.properties
      ∨ property ∉ block.properties
        ∧ (block.add property value).properties = block.properties ++ [property] := by
  cases value with
  -- without a value nothing is declared
  | none => exact .inl rfl
  | some value =>
    -- an empty value counts as none, and any other one is assigned
    rw [add]
    split
    · exact .inl rfl
    · have hassign : (block.set property value).properties
          = if property ∈ block.properties then block.properties
            else block.properties ++ [property] := map_fst_assign property value block.toList
      rw [hassign]
      -- assigning keeps the names when the property is among them, and puts it at the end otherwise
      split
      · exact .inl rfl
      · exact .inr ⟨‹_›, rfl⟩

/-- **Entries add the properties that are new**, in their order and after those that are there. -/
theorem properties_addAll_sublist (entries : Entries) (block : Declarations) :
    (block.addAll entries).properties.Sublist
      (block.properties ++ entries.names.filter (· ∉ block.properties)) := by
  induction entries generalizing block with
  | nil => exact List.sublist_append_left _ _
  | cons entry rest ih =>
    obtain ⟨property, value⟩ := entry
    -- the rest finds either the same properties or one more
    have hrest := ih (block.add property value)
    rw [addAll_cons]
    rw [Entries.names, List.map_cons]
    obtain same | ⟨new, added⟩ := properties_add block property value
    -- nothing was added, so what is new beside the first entry is all that is new
    · rw [same] at hrest
      exact hrest.trans (.append (.refl _) ((List.sublist_cons_self _ _).filter _))
    · -- what is new beside the property is new without it
      have hnew : ((Entries.names rest).filter (· ∉ block.properties ++ [property])).Sublist
          ((Entries.names rest).filter (· ∉ block.properties)) := by
        refine List.monotone_filter_right _ fun name hname => ?_
        simp only [List.mem_append, not_or, decide_eq_true_eq] at hname ⊢
        exact hname.1
      rw [added, List.append_assoc] at hrest
      rw [List.filter_cons_of_pos (by simpa using new)]
      exact hrest.trans (.append (.refl _) (hnew.cons_cons property))

/-- What a block made of entries declares stands in it as the entries name it. -/
theorem properties_addAll_empty_sublist (entries : Entries) :
    (addAll {} entries).properties.Sublist entries.names :=
  (properties_addAll_sublist entries {}).trans List.filter_sublist

/-- A property that is not declared at the front is assigned behind it. -/
theorem assign_append_of_notMem {property : String} {front : List (String × String)}
    (h : property ∉ front.map Prod.fst) (value : String) (back : List (String × String)) :
    assign property value (front ++ back) = front ++ assign property value back := by
  induction front with
  | nil => rfl
  | cons entry rest ih =>
    obtain ⟨name, old⟩ := entry
    obtain ⟨hname, hrest⟩ := List.ne_and_not_mem_of_not_mem_cons h
    rw [List.cons_append, assign, if_neg (Ne.symm hname), ih hrest, List.cons_append]

/-- New properties with values are declared after those that are there. -/
theorem toList_addAll_given {entries : List (String × String)}
    (nodup : (entries.map Prod.fst).Nodup) (given : ∀ entry ∈ entries, entry.2 ≠ "")
    {block : Declarations} (new : ∀ entry ∈ entries, entry.1 ∉ block.properties) :
    (block.addAll (Entries.given entries)).toList = block.toList ++ entries := by
  induction entries generalizing block with
  | nil => exact (List.append_nil _).symm
  | cons entry rest ih =>
    obtain ⟨property, value⟩ := entry
    obtain ⟨absent, nodup⟩ := List.nodup_cons.mp nodup
    obtain ⟨hvalue, given⟩ := List.forall_mem_cons.mp given
    obtain ⟨hproperty, new⟩ := List.forall_mem_cons.mp new
    -- the first entry goes to the end of the block
    have hadd : (block.add property (some value)).toList = block.toList ++ [(property, value)] := by
      have hassign := assign_append_of_notMem hproperty value []
      rw [List.append_nil] at hassign
      rw [add, if_neg hvalue]
      exact hassign
    -- and none of the others has its name
    have hnew : ∀ entry ∈ rest, entry.1 ∉ (block.add property (some value)).properties := by
      intro entry hentry hmem
      rw [properties, hadd, List.map_append, List.mem_append] at hmem
      obtain hmem | hmem := hmem
      · exact new entry hentry hmem
      · exact absent (List.mem_singleton.mp hmem ▸ List.mem_map_of_mem hentry)
    rw [Entries.given, List.map_cons, addAll_cons, ← Entries.given, ih nodup given hnew, hadd,
      List.append_assoc, List.singleton_append]

/-- Where none of some properties is declared, entries for them are all that is declared of them. -/
theorem among_addAll_given {block : Declarations} {names : List String}
    (hblock : block.among names = []) {entries : List (String × String)}
    (hnames : ∀ entry ∈ entries, entry.1 ∈ names) (nodup : (entries.map Prod.fst).Nodup)
    (given : ∀ entry ∈ entries, entry.2 ≠ "") :
    (block.addAll (Entries.given entries)).among names = entries := by
  -- what the block has already is outside of these names
  have new : ∀ entry ∈ entries, entry.1 ∉ block.properties := by
    intro entry hentry hmem
    obtain ⟨declared, hdeclared, hname⟩ := List.mem_map.mp hmem
    have outside := List.filter_eq_nil_iff.mp hblock declared hdeclared
    exact outside (decide_eq_true (hname ▸ hnames entry hentry))
  -- and all that is added is among them
  have hentries : entries.filter (·.1 ∈ names) = entries :=
    List.filter_eq_self.mpr fun entry hentry => decide_eq_true (hnames entry hentry)
  rw [among, toList_addAll_given nodup given new, List.filter_append, ← among, hblock, hentries,
    List.nil_append]

/-- The value of a property is what its first declaration gives. -/
theorem value?_of_toList {block : Declarations} {front back : List (String × String)}
    {property value : String} (h : block.toList = front ++ (property, value) :: back)
    (first : property ∉ front.map Prod.fst) : block.value? property = some value := by
  rw [value?, h]
  clear h
  induction front with
  | nil => exact if_pos rfl
  | cons entry rest ih =>
    obtain ⟨name, old⟩ := entry
    obtain ⟨hname, hrest⟩ := List.ne_and_not_mem_of_not_mem_cons first
    rw [List.cons_append, find?, if_neg (Ne.symm hname), ih hrest]

/-- **A property that is declared keeps its place**, when nothing before it is given a value. -/
theorem exists_toList_addAll {front : List (String × String)} {property : String}
    {entries : Entries} (hfront : ∀ name ∈ entries.names, name ∉ front.map Prod.fst)
    {block : Declarations} {old : String} {back : List (String × String)}
    (h : block.toList = front ++ (property, old) :: back) :
    ∃ value after, (block.addAll entries).toList = front ++ (property, value) :: after := by
  induction entries generalizing block old back with
  | nil => exact ⟨old, back, h⟩
  | cons entry rest ih =>
    obtain ⟨name, value⟩ := entry
    obtain ⟨hname, hrest⟩ := List.forall_mem_cons.mp hfront
    rw [addAll_cons]
    -- each entry leaves what is in front of the property where it is
    cases value with
    | none => exact ih hrest h
    | some value =>
      rw [add]
      split
      · exact ih hrest h
      · have hset : (block.set name value).toList
            = front ++ assign name value ((property, old) :: back) := by
          rw [set, h, assign_append_of_notMem hname]
        rw [assign] at hset
        -- the property itself gets another value, and any other one is behind it
        split at hset
        · exact ih hrest hset
        · exact ih hrest hset

end Declarations

/-- Two names that a list has stand in it as they stand in an order that the list keeps to. -/
theorem pair_sublist_of_sublist {names order : List String} (h : names.Sublist order) {a b : String}
    (distinct : a ≠ b) (pair : order.filter (fun name => name == a || name == b) = [a, b])
    (ha : a ∈ names) (hb : b ∈ names) : [a, b].Sublist names := by
  have hsub : (names.filter fun name => name == a || name == b).Sublist [a, b] :=
    pair ▸ h.filter _
  -- both are left when all other names are taken out
  have hboth : [a, b] ⊆ names.filter fun name => name == a || name == b := by
    intro name hname
    rcases List.mem_cons.mp hname with rfl | hname
    · exact List.mem_filter.mpr ⟨ha, by simp⟩
    · obtain rfl := List.mem_singleton.mp hname
      exact List.mem_filter.mpr ⟨hb, by simp⟩
  have hnodup : [a, b].Nodup := by simp [distinct]
  -- there is room for the two and no more
  have hall := hsub.eq_of_length_le (List.subperm_of_subset hnodup hboth).length_le
  exact hall ▸ List.filter_sublist

namespace Style

/-! ### The order of a block -/

/-- **The order of a block**: the properties that a block may have, each once. -/
def declarationOrder (isRoot : Bool) : List String :=
  ["width", "height", "position"]
    ++ (if isRoot then ["overflow", "background-color"] else ["left", "top"])
    ++ ["display", "flex-direction", "gap", "padding", "align-items", "justify-content",
        "background"]
    ++ (if isRoot then [] else ["background-color"])
    ++ ["border", "border-radius", "box-shadow", "opacity", "font-family", "font-size",
        "font-weight", "line-height", "letter-spacing", "text-align", "color"]

/-- A block declares a colour behind the node right where it clips what leaves the node. -/
def ShowsBehind (block : Declarations) (value : String) : Prop :=
  ∃ before after,
    block.toList = before ++ ("overflow", "hidden") :: ("background-color", value) :: after

/-- **A block in order.** Each property is declared once, in the order of all blocks, and the place
always is. The background and the colour behind a node are declared together for a root only, the
colour first. A label has no background, and a colour behind it only as a root, and then white. A
root shows its own colour where it has one and no fills, and white otherwise, always at the same
place. -/
structure Ordered (node : Node) (isRoot : Bool) (block : Declarations) : Prop where
  nodup : block.properties.Nodup
  ordered : block.properties.Sublist (declarationOrder isRoot)
  placed : "position" ∈ block.properties
  backgrounds : "background" ∈ block.properties → "background-color" ∈ block.properties →
    isRoot = true ∧ ["background-color", "background"].Sublist block.properties
  label : node.isText = true → "background" ∉ block.properties
    ∧ ∀ value, ("background-color", value) ∈ block.toList ↔ isRoot = true ∧ value = "white"
  ownColor : isRoot = true → node.isText = false → node.fills = none →
    ∀ color, node.backgroundColor = some color →
      ∃ value, rgba (some color) .null = .ok value ∧ value ≠ "white" ∧ ShowsBehind block value
  white : isRoot = true →
    node.isText = true ∨ node.fills.isSome = true ∨ node.backgroundColor = none →
      ShowsBehind block "white"

/-! ### The aspects of a block -/

variable {node : Node} {parent : Option Node} {isRoot : Bool} {block : Declarations}

/-- A colour value begins with the name of the notation. -/
theorem toList_of_rgba {color : Color} {opacity : Json} {value : String}
    (h : rgba (some color) opacity = .ok value) : ∃ rest, value.toList = 'r' :: rest := by
  obtain ⟨r, -, h⟩ := bind_eq_ok h
  obtain ⟨g, -, h⟩ := bind_eq_ok h
  obtain ⟨b, -, h⟩ := bind_eq_ok h
  obtain ⟨a, -, h⟩ := bind_eq_ok h
  obtain rfl := Except.ok.inj h
  simp only [String.toList_append, List.append_assoc]
  exact ⟨_, rfl⟩

/-- **What a node says of its surface**: nothing, a background, or a colour behind it. -/
theorem surface_cases {surface : Entries} (h : surfaceEntries node = .ok surface) :
    (surface = [] ∧ (node.isText = true ∨ node.fills = none ∧ node.backgroundColor = none))
      ∨ (∃ value, surface = [("background", value)] ∧ node.isText = false ∧ node.fills.isSome)
      ∨ (∃ color value, surface = [("background-color", some value)] ∧ node.isText = false
        ∧ node.fills = none ∧ node.backgroundColor = some color
        ∧ rgba (some color) .null = .ok value) := by
  unfold surfaceEntries at h
  -- a label has no surface
  cases isText : node.isText with
  | true =>
    rw [isText, if_pos rfl] at h
    exact .inl ⟨(Except.ok.inj h).symm, .inl rfl⟩
  | false =>
    rw [isText, if_neg (by decide)] at h
    -- fills decide, even without any among them
    cases hfills : node.fills with
    | some fills =>
      rw [hfills] at h
      obtain ⟨value, -, h⟩ := bind_eq_ok h
      exact .inr (.inl ⟨value, (Except.ok.inj h).symm, rfl, rfl⟩)
    | none =>
      rw [hfills, if_neg (by decide)] at h
      -- only where there are none does the colour behind the node count
      cases hcolor : node.backgroundColor with
      | none =>
        rw [hcolor] at h
        exact .inl ⟨(Except.ok.inj h).symm, .inr ⟨rfl, rfl⟩⟩
      | some color =>
        rw [hcolor] at h
        obtain ⟨value, hvalue, h⟩ := bind_eq_ok h
        exact .inr (.inr ⟨color, value, (Except.ok.inj h).symm, rfl, rfl, rfl, hvalue⟩)

/-- What follows the place of a node, taken apart around its surface. -/
theorem later_eq_ok {later : Entries} (h : laterEntries node = .ok later) :
    ∃ layout surface trailing, surfaceEntries node = .ok surface
      ∧ later = layout ++ (surface ++ trailing)
      ∧ layout.names.Sublist layoutProperties ∧ trailing.names.Sublist trailingProperties := by
  -- the layout comes first, then the surface, then the rest
  obtain ⟨layout, hlayout, h⟩ := bind_eq_ok h
  obtain ⟨others, hothers, h⟩ := bind_eq_ok h
  obtain rfl := Except.ok.inj h
  obtain ⟨surface, hsurface, hothers⟩ := bind_eq_ok hothers
  obtain ⟨trailing, htrailing, hothers⟩ := bind_eq_ok hothers
  obtain rfl := Except.ok.inj hothers
  exact ⟨layout, surface, trailing, hsurface, rfl, layout_mentions node layout hlayout,
    trailing_mentions node trailing htrailing⟩

/-- What a block declares is named by its size, its place or what follows. -/
theorem names_of_mem (h : declarations node parent isRoot = .ok block) {property : String}
    (hproperty : property ∈ block.properties) :
    property ∈ sizeProperties ++ "position" :: placeProperties isRoot ++ layoutProperties
      ∨ property ∈ trailingProperties
      ∨ ∃ surface, surfaceEntries node = .ok surface ∧ property ∈ surface.names := by
  -- the names of a block are among those of its five parts
  obtain ⟨size, place, later, hsize, hplace, hlater, rfl⟩ := declarations_eq_ok h
  obtain ⟨layout, surface, trailing, hsurface, rfl, hlayout, htrailing⟩ := later_eq_ok hlater
  have hsized := (size_mentions node size hsize).subset
  have hplaced := (position_mentions node parent isRoot (Entries.given place) (by
    rw [positionEntries, hplace]
    rfl)).subset
  rw [← Declarations.addAll_append, ← Declarations.addAll_append] at hproperty
  have hnamed := (Declarations.properties_addAll_empty_sublist _).subset hproperty
  simp only [Entries.names, List.map_append, List.mem_append] at hnamed
  rw [List.mem_append, List.mem_append]
  -- one case for each part
  rcases hnamed with hnamed | hnamed | hnamed | hnamed | hnamed
  · exact .inl (.inl (.inl (hsized hnamed)))
  · exact .inl (.inl (.inr (hplaced hnamed)))
  · exact .inl (.inr (hlayout.subset hnamed))
  · exact .inr (.inr ⟨surface, hsurface, hnamed⟩)
  · exact .inr (.inl (htrailing.subset hnamed))

/-! ### What is behind a root -/

/-- What a block of a root declares before the colour behind it. -/
def rootFront : List String := sizeProperties ++ ["position", "overflow"]

/-- **The block of a root.** Its size comes first, then its place, with a white colour at the end,
and then what gives the colour another value or comes after it. -/
theorem root_eq_ok (h : declarations node parent true = .ok block) :
    ∃ before, ∃ placed : Declarations, ∃ later, laterEntries node = .ok later
      ∧ ((before ++ [("overflow", "hidden")]).map Prod.fst).Sublist rootFront
      ∧ placed.toList = before ++ [("overflow", "hidden"), ("background-color", "white")]
      ∧ block = placed.addAll later := by
  obtain ⟨size, place, later, hsize, hplace, hlater, rfl⟩ := declarations_eq_ok h
  -- the place of a root has three fixed declarations
  obtain rfl : [("position", "relative"), ("overflow", "hidden"), ("background-color", "white")]
    = place := Except.ok.inj hplace
  have hsized : (Declarations.addAll {} size).properties.Sublist sizeProperties :=
    (Declarations.properties_addAll_empty_sublist size).trans (size_mentions node size hsize)
  refine ⟨(Declarations.addAll {} size).toList ++ [("position", "relative")], _, later, hlater,
    ?_, ?_, rfl⟩
  · rw [List.append_assoc, List.map_append]
    exact hsized.append (.refl _)
  · rw [Declarations.toList_addAll_given (by decide) (by decide), List.append_assoc]
    · rfl
    · -- the size declares nothing of the place
      have outside : ∀ entry ∈ [("position", "relative"), ("overflow", "hidden"),
          ("background-color", "white")], entry.1 ∉ sizeProperties := by decide
      exact fun entry hentry hmem => outside entry hentry (hsized.subset hmem)

/-- **The value of the colour behind a root** comes from its surface, or else from its place. -/
theorem value?_behind (h : declarations node parent true = .ok block) :
    ∃ surface, ∃ placed : Declarations, surfaceEntries node = .ok surface
      ∧ placed.value? "background-color" = some "white"
      ∧ block.value? "background-color" = (placed.addAll surface).value? "background-color" := by
  obtain ⟨before, placed, later, hlater, hfront, hplaced, rfl⟩ := root_eq_ok h
  obtain ⟨layout, surface, trailing, hsurface, rfl, hlayout, htrailing⟩ := later_eq_ok hlater
  -- neither the layout nor what trails names the colour, so the surface decides
  have unlaid : "background-color" ∉ layout.names := fun hmem =>
    absurd (hlayout.subset hmem) (by decide)
  have untrailed : "background-color" ∉ trailing.names := fun hmem =>
    absurd (htrailing.subset hmem) (by decide)
  have hwhite : placed.value? "background-color" = some "white" :=
    Declarations.value?_of_toList (by rw [hplaced, List.append_assoc]; rfl) fun hmem =>
      absurd (hfront.subset hmem) (by decide)
  refine ⟨surface, placed.addAll layout, hsurface, ?_, ?_⟩
  · rw [Declarations.value?_addAll_of_notMem unlaid, hwhite]
  · rw [Declarations.addAll_append, Declarations.addAll_append,
      Declarations.value?_addAll_of_notMem untrailed]

/-- A label, a node with fills and a node without a colour are white behind. -/
theorem value?_behind_white (h : declarations node parent true = .ok block)
    (plain : node.isText = true ∨ node.fills.isSome = true ∨ node.backgroundColor = none) :
    block.value? "background-color" = some "white" := by
  have distinct : "background-color" ≠ "background" := by decide
  obtain ⟨surface, placed, hsurface, hwhite, hvalue⟩ := value?_behind h
  rw [hvalue, ← hwhite]
  refine Declarations.value?_addAll_of_notMem ?_ placed
  -- in each case the surface does not name the colour, or the node is not plain
  rcases surface_cases hsurface with
    ⟨rfl, -⟩ | ⟨value, rfl, -⟩ | ⟨color, value, -, notText, hfills, hcolor, -⟩
  · exact List.not_mem_nil
  · exact fun hmem => distinct (List.mem_singleton.mp hmem)
  · rw [notText, hfills, hcolor] at plain
    simp at plain

/-- Any other node shows its own colour. -/
theorem value?_behind_own (h : declarations node parent true = .ok block)
    (notText : node.isText = false) (unfilled : node.fills = none) {color : Color}
    (hcolor : node.backgroundColor = some color) :
    ∃ value, rgba (some color) .null = .ok value ∧ value ≠ "white"
      ∧ block.value? "background-color" = some value := by
  obtain ⟨surface, placed, hsurface, -, hvalue⟩ := value?_behind h
  -- the first two cases are excluded by what is known of the node
  rcases surface_cases hsurface with
    ⟨-, plain⟩ | ⟨-, -, -, filled⟩ | ⟨own, value, rfl, -, -, hown, hrgba⟩
  · rw [notText, hcolor] at plain
    simp at plain
  · rw [unfilled] at filled
    cases filled
  · obtain rfl : color = own := Option.some.inj (hcolor.symm.trans hown)
    obtain ⟨rest, hletters⟩ := toList_of_rgba hrgba
    -- the value of a colour begins with another letter, and with one at all
    have notWhite : value ≠ "white" := by
      rintro rfl
      exact absurd (List.cons.inj hletters).1 (by decide)
    have given : value ≠ "" := by
      rintro rfl
      cases hletters
    exact ⟨value, hrgba, notWhite, hvalue.trans (Declarations.value?_add_self placed _ given)⟩

/-- Whatever that value is, it stands where the white colour was. -/
theorem showsBehind_of_root (h : declarations node parent true = .ok block) {value : String}
    (hvalue : block.value? "background-color" = some value) : ShowsBehind block value := by
  obtain ⟨before, placed, later, hlater, hfront, hplaced, rfl⟩ := root_eq_ok h
  -- nothing that comes later is named in front of the colour
  have hnew : ∀ name ∈ later.names, name ∉ (before ++ [("overflow", "hidden")]).map Prod.fst := by
    have outside : ∀ name ∈ laterProperties, name ∉ rootFront := by decide
    exact fun name hname hmem => outside name ((later_mentions node later hlater).subset hname)
      (hfront.subset hmem)
  have hplaced : placed.toList
      = before ++ [("overflow", "hidden")] ++ ("background-color", "white") :: [] := by
    rw [hplaced, List.append_assoc]
    rfl
  -- so later values replace the colour where it stands
  obtain ⟨found, after, htoList⟩ := Declarations.exists_toList_addAll hnew hplaced
  have hfound := Declarations.value?_of_toList htoList fun hmem =>
    absurd (hfront.subset hmem) (by decide)
  obtain rfl : found = value := Option.some.inj (hfound.symm.trans hvalue)
  exact ⟨before, after, by rw [htoList, List.append_assoc, List.singleton_append]⟩

/-! ### Every block is in order -/

/-- The properties of a block are in order. -/
theorem properties_sublist_order (h : declarations node parent isRoot = .ok block) :
    block.properties.Sublist (declarationOrder isRoot) := by
  cases isRoot with
  | false =>
    -- a node that is no root names no property twice
    obtain ⟨all, hall, rfl⟩ := entries_of_declarations h
    exact (Declarations.properties_addAll_empty_sublist all).trans
      (entries_mention node parent false all hall)
  | true =>
    obtain ⟨before, placed, later, hlater, hfront, hplaced, rfl⟩ := root_eq_ok h
    have hproperties : placed.properties
        = (before ++ [("overflow", "hidden")]).map Prod.fst ++ ["background-color"] := by
      rw [Declarations.properties, hplaced]
      simp
    -- the colour behind a root is there when it is named again
    have hnew : (later.names.filter (· ∉ placed.properties)).Sublist
        (laterProperties.filter (· ≠ "background-color")) := by
      refine (List.monotone_filter_right _ fun name hname => ?_).trans
        ((later_mentions node later hlater).filter _)
      simp only [hproperties, List.mem_append, List.mem_singleton, not_or,
        decide_eq_true_eq] at hname ⊢
      exact hname.2
    have horder : declarationOrder true
        = rootFront ++ ["background-color"] ++ laterProperties.filter (· ≠ "background-color") := by
      decide
    rw [horder]
    refine (Declarations.properties_addAll_sublist later placed).trans (.append ?_ hnew)
    rw [hproperties]
    exact hfront.append (.refl _)

/-- The background is what the surface names, and so is the colour behind a node that is no root. -/
theorem mem_surface_of_mem (h : declarations node parent isRoot = .ok block) {property : String}
    (hproperty : property ∈ block.properties)
    (hsurface : property = "background" ∨ property = "background-color" ∧ isRoot = false) :
    ∃ surface, surfaceEntries node = .ok surface ∧ property ∈ surface.names := by
  have outside :
      property ∉ sizeProperties ++ "position" :: placeProperties isRoot ++ layoutProperties
        ∧ property ∉ trailingProperties := by
    rcases hsurface with rfl | ⟨rfl, rfl⟩
    · cases isRoot <;> decide
    · decide
  exact ((names_of_mem h hproperty).resolve_left outside.1).resolve_left outside.2

/-- A background and a colour behind a node are declared together for a root only. -/
theorem isRoot_of_backgrounds (h : declarations node parent isRoot = .ok block)
    (hbackground : "background" ∈ block.properties)
    (hcolor : "background-color" ∈ block.properties) : isRoot = true := by
  cases isRoot with
  | true => rfl
  | false =>
    -- a surface names one property at most
    -- both are named by the same surface
    have distinct : "background" ≠ "background-color" := by decide
    obtain ⟨surface, hsurface, hbackground⟩ := mem_surface_of_mem h hbackground (.inl rfl)
    obtain ⟨_, hsame, hcolor⟩ := mem_surface_of_mem h hcolor (.inr ⟨rfl, rfl⟩)
    obtain rfl := Except.ok.inj (hsurface.symm.trans hsame)
    rcases surface_cases hsurface with ⟨rfl, -⟩ | ⟨value, rfl, -⟩ | ⟨color, value, rfl, -⟩
    · cases hcolor
    · exact absurd (List.mem_singleton.mp hcolor).symm distinct
    · exact absurd (List.mem_singleton.mp hbackground) distinct

/-- The surface of a label names nothing. -/
theorem surfaceEntries_of_label (isText : node.isText = true) : surfaceEntries node = .ok [] := by
  rw [surfaceEntries, if_pos isText]

/-- A label has no background, and a colour behind it only as a root, and then white. -/
theorem backgrounds_of_label (h : declarations node parent isRoot = .ok block)
    (isText : node.isText = true) :
    "background" ∉ block.properties
      ∧ ∀ value, ("background-color", value) ∈ block.toList ↔ isRoot = true ∧ value = "white" := by
  -- what only the surface names is not named for a label
  have unnamed {property : String}
      (hsurface : property = "background" ∨ property = "background-color" ∧ isRoot = false) :
      property ∉ block.properties := by
    intro hproperty
    obtain ⟨surface, hnone, hmem⟩ := mem_surface_of_mem h hproperty hsurface
    obtain rfl := Except.ok.inj ((surfaceEntries_of_label isText).symm.trans hnone)
    cases hmem
  refine ⟨unnamed (.inl rfl), fun value => ?_⟩
  -- behind a root the white of the place is left
  cases isRoot with
  | false =>
    refine ⟨fun hmem => ?_, fun hroot => Bool.noConfusion hroot.1⟩
    exact absurd (List.mem_map_of_mem hmem) (unnamed (.inr ⟨rfl, rfl⟩))
  | true =>
    rw [← Declarations.value?_eq_some (nodup_properties h), value?_behind_white h (.inl isText),
      Option.some.injEq]
    exact ⟨fun hvalue => ⟨rfl, hvalue.symm⟩, fun hvalue => hvalue.2.symm⟩

/-- **Every block is in order.** Where the declarations of a node can be found at all, they are text
in the order of `declarationOrder`, with what is declared behind a node as `Ordered` says. -/
theorem block_ordered {text : String} (h : Style.block node parent isRoot = .ok text) :
    ∃ block, declarations node parent isRoot = .ok block ∧ text = block.text
      ∧ Ordered node isRoot block := by
  -- one case for each thing that is said of a block
  obtain ⟨block, hblock, htext⟩ := bind_eq_ok h
  have ordered := properties_sublist_order hblock
  refine ⟨block, hblock, (Except.ok.inj htext).symm, ?_⟩
  constructor
  case nodup => exact nodup_properties hblock
  case ordered => exact ordered
  case placed =>
    have placed := (position_mem_iff hblock).mpr rfl
    exact List.mem_map_of_mem placed
  case backgrounds =>
    intro hbackground hcolor
    obtain rfl := isRoot_of_backgrounds hblock hbackground hcolor
    exact ⟨rfl, pair_sublist_of_sublist ordered (by decide) (by decide) hcolor hbackground⟩
  case label => exact backgrounds_of_label hblock
  case ownColor =>
    rintro rfl notText unfilled color hcolor
    obtain ⟨value, hrgba, notWhite, hvalue⟩ := value?_behind_own hblock notText unfilled hcolor
    exact ⟨value, hrgba, notWhite, showsBehind_of_root hblock hvalue⟩
  case white =>
    rintro rfl plain
    exact showsBehind_of_root hblock (value?_behind_white hblock plain)

/-- A board without fills and with a colour of its own, with a stroke and a row of children. -/
def colouredBoard : Node :=
  { id := "1", box := some ⟨.ofInt 0, .ofInt 0, .ofInt 40, .ofInt 30⟩, layout := .horizontal
    strokes := some [{ fill := .solid {} }], strokeWeight := .ofInt 2
    backgroundColor := some { r := .ofInt 1 }, opacity := .ofInt 0 }

/-- Its colour stands where the white of other roots stands. -/
theorem colouredBoard_ordered :
    Style.block colouredBoard none true
      = .ok ("width: 40px; height: 30px; position: relative; overflow: hidden; "
        ++ "background-color: rgba(255, 0, 0, 1); display: flex; flex-direction: row; gap: 0px; "
        ++ "padding: 0px 0px 0px 0px; align-items: start; justify-content: start; "
        ++ "border: 2px solid rgba(0, 0, 0, 1); opacity: 0;")
    ∧ ∃ block, declarations colouredBoard none true = .ok block
      ∧ ("background-color", "rgba(255, 0, 0, 1)") ∈ block.toList
      ∧ Ordered colouredBoard true block := by
  have hblock : Style.block colouredBoard none true
      = .ok ("width: 40px; height: 30px; position: relative; overflow: hidden; "
        ++ "background-color: rgba(255, 0, 0, 1); display: flex; flex-direction: row; gap: 0px; "
        ++ "padding: 0px 0px 0px 0px; align-items: start; justify-content: start; "
        ++ "border: 2px solid rgba(0, 0, 0, 1); opacity: 0;") :=
    eq_ok_of_toOption (by decide +kernel)
  obtain ⟨block, hdeclarations, -, hordered⟩ := block_ordered hblock
  obtain ⟨value, hrgba, -, before, after, htoList⟩ := hordered.ownColor rfl rfl rfl _ rfl
  -- the colour of the board is the red that was computed
  have hred : rgba (some { r := .ofInt 1 }) .null = .ok "rgba(255, 0, 0, 1)" :=
    eq_ok_of_toOption (by decide +kernel)
  obtain rfl : "rgba(255, 0, 0, 1)" = value := Except.ok.inj (hred.symm.trans hrgba)
  refine ⟨hblock, block, hdeclarations, ?_, hordered⟩
  rw [htoList]
  exact List.mem_append_right _ (.tail _ (.head _))

end Style

end Mockup
