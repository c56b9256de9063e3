import Mockup.Proofs.Outcome
import Mockup.Style.Block

/-!
# The entries of a block

A declaration block is built by steps of work, each of which may end in a fault and leave the block
half built. A block that is finished is simpler: every step has given the block a list of entries,
properties with values that may be missing, and the block is what the lists come to one after the
other. This module says which list each step gives.

* `Declarations.value?` — the value that a block has for a property, which it declares once;
* `Declarations.among` — what a block declares of some properties;
* `Styling.Gives` — a step gives the entries that a result holds, or ends with its fault;
* `Style.entries` — **the entries of a node**, aspect by aspect;
* `Style.declarations_eq` — the block of a node is made of its entries.

What a step can do to a property is then a question about the names in one list
(`Declarations.value?_addAll_of_notMem`): a step leaves alone every property that it does not name.
-/

namespace Mockup

/-- The properties that entries name. -/
def Entries.names (entries : Entries) : List String := entries.map Prod.fst

theorem Entries.names_given (entries : List (String × String)) :
    names (given entries) = entries.map Prod.fst := by
  rw [names, given, List.map_map]
  rfl

/-! ### The value of a property -/

namespace Declarations

/-- The value that stands for a property in a list of declarations. -/
def find? (property : String) : List (String × String) → Option String
  | [] => none
  | (name, value) :: rest => if name = property then some value else find? property rest

/-- **The value of a property** in a block. -/
def value? (block : Declarations) (property : String) : Option String :=
  find? property block.toList

theorem find?_assign_self (property value : String) (entries : List (String × String)) :
    find? property (assign property value entries) = some value := by
  induction entries with
  | nil => simp [assign, find?]
  | cons entry rest ih =>
    obtain ⟨name, old⟩ := entry
    by_cases h : name = property
    · simp [assign, find?, h]
    · simp [assign, find?, h, ih]

theorem find?_assign_of_ne {property other : String} (h : other ≠ property) (value : String)
    (entries : List (String × String)) :
    find? other (assign property value entries) = find? other entries := by
  induction entries with
  | nil => simp [assign, find?, Ne.symm h]
  | cons entry rest ih =>
    obtain ⟨name, old⟩ := entry
    -- the entry of the property is replaced, which is not the other
    by_cases hp : name = property
    · subst hp
      simp [assign, find?, Ne.symm h]
    -- this is the other's entry, and it stays
    · by_cases ho : name = other
      · subst ho
        simp [assign, find?, hp]
      · simp [assign, find?, hp, ho, ih]

/-- A property that is given a value has it. -/
theorem value?_add_self (block : Declarations) (property : String) {value : String}
    (h : value ≠ "") : (block.add property (some value)).value? property = some value := by
  rw [add, if_neg h]
  exact find?_assign_self property value block.toList

/-- Giving a value to one property leaves the others alone. -/
theorem value?_add_of_ne {property other : String} (h : other ≠ property) (block : Declarations)
    (value : Option String) : (block.add property value).value? other = block.value? other := by
  cases value with
  | none => rfl
  | some value =>
    rw [add]
    split
    · rfl
    · exact find?_assign_of_ne h value block.toList

theorem addAll_append (block : Declarations) (a b : Entries) :
    block.addAll (a ++ b) = (block.addAll a).addAll b :=
  List.foldl_append

/-- **Frame.** Entries leave alone every property that they do not name. -/
theorem value?_addAll_of_notMem {property : String} {entries : Entries}
    (h : property ∉ entries.names) (block : Declarations) :
    (block.addAll entries).value? property = block.value? property := by
  induction entries generalizing block with
  | nil => rfl
  | cons entry rest ih =>
    rw [Entries.names, List.map_cons, List.mem_cons, not_or] at h
    rw [addAll_cons, ih h.2, value?_add_of_ne h.1]

theorem mem_assign {property value : String} {entries : List (String × String)}
    {entry : String × String} (h : entry ∈ assign property value entries) :
    entry = (property, value) ∨ entry ∈ entries := by
  induction entries with
  | nil => exact .inl (List.mem_singleton.mp h)
  | cons first rest ih =>
    obtain ⟨name, old⟩ := first
    rw [assign] at h
    split at h
    · -- the old value of the property is gone
      rename_i same
      rcases List.mem_cons.mp h with h | h
      · exact .inl (same ▸ h)
      · exact .inr (List.mem_cons_of_mem _ h)
    -- another entry stays, and the property is assigned behind it
    · rcases List.mem_cons.mp h with h | h
      · exact .inr (h ▸ List.mem_cons_self)
      · exact (ih h).imp_right (List.mem_cons_of_mem _)

/-- What a block declares was there or is given to it. -/
theorem mem_addAll {block : Declarations} {entries : Entries} {entry : String × String}
    (h : entry ∈ (block.addAll entries).toList) :
    entry ∈ block.toList ∨ (entry.1, some entry.2) ∈ entries := by
  induction entries generalizing block with
  | nil => exact .inl h
  | cons first rest ih =>
    obtain ⟨property, _ | value⟩ := first
    -- a missing value changes nothing
    · exact (ih h).imp_right (List.mem_cons_of_mem _)
    -- a value is assigned, unless it is empty
    · rcases ih h with h | h
      · dsimp only at h
        rw [add] at h
        split at h
        · exact .inl h
        · rcases mem_assign h with rfl | h
          · exact .inr List.mem_cons_self
          · exact .inl h
      · exact .inr (List.mem_cons_of_mem _ h)

/-- So a block that is made of entries declares what they give. -/
theorem mem_of_mem_addAll_empty {entries : Entries} {entry : String × String}
    (h : entry ∈ (addAll {} entries).toList) : (entry.1, some entry.2) ∈ entries :=
  (mem_addAll h).resolve_left List.not_mem_nil

/-! ### What a block declares of some properties -/

/-- **What a block declares of some properties**, in its order. -/
def among (block : Declarations) (names : List String) : List (String × String) :=
  block.toList.filter (·.1 ∈ names)

/-- A property that is not among them makes no difference. -/
theorem filter_assign_of_notMem {property : String} {names : List String} (h : property ∉ names)
    (value : String) (entries : List (String × String)) :
    (assign property value entries).filter (·.1 ∈ names) = entries.filter (·.1 ∈ names) := by
  induction entries with
  | nil => exact List.filter_cons_of_neg (by simpa using h)
  | cons entry rest ih =>
    obtain ⟨name, old⟩ := entry
    rw [assign]
    split
    · rename_i same
      subst same
      rw [List.filter_cons_of_neg (by simpa using h), List.filter_cons_of_neg (by simpa using h)]
    · rw [List.filter_cons, List.filter_cons, ih]

theorem among_add_of_notMem {property : String} {names : List String} (h : property ∉ names)
    (block : Declarations) (value : Option String) :
    (block.add property value).among names = block.among names := by
  cases value with
  | none => rfl
  | some value =>
    rw [add]
    split
    · rfl
    · exact filter_assign_of_notMem h value block.toList

/-- **Frame.** Entries that name none of the properties make no difference to them. -/
theorem among_addAll_of_disjoint {entries : Entries} {names : List String}
    (h : ∀ name ∈ entries.names, name ∉ names) (block : Declarations) :
    (block.addAll entries).among names = block.among names := by
  induction entries generalizing block with
  | nil => rfl
  | cons entry rest ih =>
    obtain ⟨hentry, hrest⟩ := List.forall_mem_cons.mp h
    rw [addAll_cons, ih hrest, among_add_of_notMem hentry]

/-! ### One declaration for each property -/

theorem nodup_assign (property value : String) {entries : List (String × String)}
    (h : (entries.map Prod.fst).Nodup) : ((assign property value entries).map Prod.fst).Nodup := by
  rw [map_fst_assign]
  -- the property keeps its place, or comes last where there was none
  split
  · exact h
  · rename_i absent
    refine List.nodup_append.mpr ⟨h, List.nodup_cons.mpr ⟨List.not_mem_nil, .nil⟩, ?_⟩
    rintro a ha b hb rfl
    exact absent (List.mem_singleton.mp hb ▸ ha)

/-- **A block declares no property twice**, however it is made. -/
theorem nodup_properties_addAll {block : Declarations} (h : block.properties.Nodup)
    (entries : Entries) : (block.addAll entries).properties.Nodup := by
  induction entries generalizing block with
  | nil => exact h
  | cons entry rest ih =>
    rw [addAll_cons]
    refine ih ?_
    obtain ⟨property, _ | value⟩ := entry
    · exact h
    · rw [add]
      split
      · exact h
      · exact nodup_assign property value h

/-- So the value of a property is the one that it is declared with. -/
theorem value?_eq_some {block : Declarations} (h : block.properties.Nodup)
    {property value : String} :
    block.value? property = some value ↔ (property, value) ∈ block.toList := by
  obtain ⟨entries⟩ := block
  change find? property entries = some value ↔ (property, value) ∈ entries
  change (entries.map Prod.fst).Nodup at h
  induction entries with
  | nil => simp [find?]
  | cons entry rest ih =>
    obtain ⟨name, old⟩ := entry
    obtain ⟨absent, hrest⟩ := List.nodup_cons.mp h
    rw [find?, List.mem_cons, ← ih hrest]
    by_cases hname : name = property
    · -- the property is declared here, so it is not declared again
      subst hname
      rw [if_pos rfl, Option.some.injEq, Prod.mk.injEq]
      have : find? name rest ≠ some value := fun hfound =>
        absent (List.mem_map.mpr ⟨_, (ih hrest).mp hfound, rfl⟩)
      simp [this, eq_comm]
    -- the property is declared further on, if at all
    · rw [if_neg hname]
      simp [Ne.symm hname]

end Declarations

/-! ### Steps that give entries -/

/-- **A step gives entries.** From every block, it adds the entries that a result holds, or ends
with the fault in their place. -/
def Styling.Gives (step : Styling Unit) (result : Result Entries) : Prop :=
  ∀ block : Declarations,
    match result with
    | .ok entries => step.runFrom block = (.ok (), block.addAll entries)
    | .error fault => (step.runFrom block).1 = .error fault

namespace Styling.Gives

theorem nothing : Styling.Gives (pure ()) (.ok []) := fun _ => rfl

theorem declare (property : String) (value : Option String) :
    Styling.Gives (Styling.declare property value) (.ok [(property, value)]) := fun _ => rfl

theorem declareAll (entries : Entries) :
    Styling.Gives (Styling.declareAll entries) (.ok entries) := fun _ => rfl

/-- A step that begins with a result: the fault of the result is the fault of the step. -/
theorem ofResult {α : Type} {next : α → Styling Unit} {entries : α → Result Entries}
    (result : Result α) (h : ∀ a, Styling.Gives (next a) (entries a)) :
    Styling.Gives (Work.ofResult result >>= next) (result >>= entries) := by
  intro block
  rw [Work.runFrom_ofResult_bind]
  cases result with
  | error fault => rfl
  | ok a => exact h a block

/-- A step after a step gives the entries of both. -/
theorem seq {first second : Styling Unit} {a b : Result Entries} (hfirst : Styling.Gives first a)
    (hsecond : Styling.Gives second b) :
    Styling.Gives (first >>= fun _ => second) (do return (← a) ++ (← b)) := by
  intro block
  rw [Work.runFrom_bind]
  cases a with
  | error fault =>
    -- the second step is not reached
    have h := hfirst block
    rcases hrun : first.runFrom block with ⟨outcome, after⟩
    rw [hrun] at h
    obtain rfl : outcome = .error fault := h
    rfl
  -- the second step goes on from the block of the first
  | ok entries =>
    rw [show first.runFrom block = (.ok (), block.addAll entries) from hfirst block]
    -- and fails or adds its own entries
    have h := hsecond (block.addAll entries)
    cases b with
    | error fault => exact h
    | ok more =>
      change second.runFrom (block.addAll entries) = (.ok (), block.addAll (entries ++ more))
      rw [Declarations.addAll_append]
      exact h

/-- A step that gives its entries leaves the block that they come to. -/
theorem finish {step : Styling Unit} {result : Result Entries} (h : Styling.Gives step result)
    (block : Declarations) :
    (match step.runFrom block with
      | (.ok (), block) => .ok block
      | (.error fault, _) => .error fault : Result Declarations)
      = block.addAll <$> result := by
  have hblock := h block
  cases result with
  | ok entries =>
    rw [show step.runFrom block = (.ok (), block.addAll entries) from hblock]
    rfl
  | error fault =>
    rcases hrun : step.runFrom block with ⟨outcome, after⟩
    rw [hrun] at hblock
    obtain rfl : outcome = .error fault := hblock
    rfl

end Styling.Gives

/-! ### The entries of each aspect -/

namespace Style

/-- Width and height. -/
def sizeEntries (node : Node) : Result Entries :=
  match node.box with
  | some box => do
    let width ← pixels box.width
    let height ← pixels box.height
    return [("width", some width), ("height", some height)]
  | none => .ok []

/-- The place of the node. -/
def positionEntries (node : Node) (parent : Option Node) (isRoot : Bool) : Result Entries :=
  Entries.given <$> positioning node parent isRoot

/-- The layout of the children. -/
def layoutEntries (node : Node) : Result Entries :=
  Entries.given <$> if node.hasAutoLayout then flexLayout node else inferredAlignment node

/-- The background. -/
def surfaceEntries (node : Node) : Result Entries :=
  if node.isText then .ok []
  else if node.fills.isSome then do return [("background", ← background node.fills)]
  else match node.backgroundColor with
    | some color => do return [("background-color", some (← rgba (some color) .null))]
    | none => .ok []

/-- Rounded corners. Corners one by one count only when there are four of them. -/
def cornerEntries (node : Node) : Result Entries :=
  if node.cornerRadius.truthy then do
    return [("border-radius", some (← pixels node.cornerRadius))]
  else if node.cornerRadii.truthy then do
    if (← node.cornerRadii.size) = 4 then
      let radii ← (← node.cornerRadii.entries).mapM pixels
      return [("border-radius", some (" ".intercalate radii))]
    else return []
  else .ok []

/-- The border and its corners. -/
def outlineEntries (node : Node) : Result Entries := do
  let edge ← border node.strokes node.strokeWeight
  return ("border", edge) :: (← cornerEntries node)

/-- The shadows. -/
def shadowEntries (node : Node) : Result Entries := do
  return [("box-shadow", ← boxShadow node.effects)]

/-- The opacity, unless it is full. -/
def opacityEntries (node : Node) : Result Entries :=
  if node.opacity.isNull then .ok []
  else do
    if (← node.opacity.operand).lt (.double (.ofRatio false 1 1)) then
      return [("opacity", some (← number node.opacity))]
    else return []

/-- The type face and colour of a label. -/
def textEntries (node : Node) : Result Entries :=
  if node.isText then do
    let face ← typography node.style
    return Entries.given face ++ [("color", ← textColor node.fills)]
  else .ok []

/-- Entries after entries; the first fault is the fault of all. -/
def concat : List (Result Entries) → Result Entries
  | [] => .ok []
  | first :: rest => do return (← first) ++ (← concat rest)

/-- **The entries of a node**, aspect by aspect. -/
def entries (node : Node) (parent : Option Node) (isRoot : Bool) : Result Entries :=
  concat [sizeEntries node, positionEntries node parent isRoot, layoutEntries node,
    surfaceEntries node, outlineEntries node, shadowEntries node, opacityEntries node,
    textEntries node]

theorem concat_singleton (result : Result Entries) : concat [result] = result := by
  cases result with
  | error fault => rfl
  | ok entries => exact congrArg Except.ok (List.append_nil entries)

end Style

/-! ### Every step gives its entries -/

namespace Styling

open Style

/-- A step whose outcome is taken apart gives what the outcome comes to. -/
theorem Gives.congr {step : Styling Unit} {a b : Result Entries} (h : Gives step a) (e : a = b) :
    Gives step b := e ▸ h

theorem size_gives (node : Node) : Gives (size node) (sizeEntries node) := by
  unfold size sizeEntries
  cases node.box with
  | none => exact .nothing
  | some box =>
    refine (Gives.ofResult (pixels box.width) fun width =>
      (Gives.declare "width" (some width)).seq
        (.ofResult (pixels box.height) fun height => .declare "height" (some height))).congr ?_
    dsimp only
    -- a fault of the height ends the step after the width is given, but the entries are the same
    cases pixels box.width <;> cases pixels box.height <;> rfl

theorem position_gives (node : Node) (parent : Option Node) (isRoot : Bool) :
    Gives (position node parent isRoot) (positionEntries node parent isRoot) :=
  .ofResult (positioning node parent isRoot) fun place => .declareAll (.given place)

theorem layout_gives (node : Node) : Gives (layout node) (layoutEntries node) :=
  .ofResult _ fun entries => .declareAll (.given entries)

theorem surface_gives (node : Node) : Gives (surface node) (surfaceEntries node) := by
  unfold surface surfaceEntries
  by_cases isText : node.isText = true
  · rw [if_pos isText, if_pos isText]
    exact .nothing
  rw [if_neg isText, if_neg isText]
  by_cases filled : node.fills.isSome = true
  · rw [if_pos filled, if_pos filled]
    exact .ofResult _ fun value => .declare "background" value
  rw [if_neg filled, if_neg filled]
  cases node.backgroundColor with
  | none => exact .nothing
  | some color => exact .ofResult _ fun value => .declare "background-color" (some value)

theorem corners_gives (node : Node) : Gives (corners node) (cornerEntries node) := by
  unfold corners cornerEntries
  by_cases alike : node.cornerRadius.truthy = true
  · rw [if_pos alike, if_pos alike]
    exact .ofResult _ fun value => .declare "border-radius" (some value)
  rw [if_neg alike, if_neg alike]
  by_cases given : node.cornerRadii.truthy = true
  -- a list of radii, which is four or nothing
  · rw [if_pos given, if_pos given]
    refine .ofResult _ fun count => ?_
    by_cases four : count = 4
    · rw [if_pos four, if_pos four]
      exact .ofResult _ fun radii => .ofResult _ fun values =>
        .declare "border-radius" (some (" ".intercalate values))
    · rw [if_neg four, if_neg four]
      exact .nothing
  · rw [if_neg given, if_neg given]
    exact .nothing

theorem outline_gives (node : Node) : Gives (outline node) (outlineEntries node) :=
  .ofResult _ fun edge => (Gives.declare "border" edge).seq (corners_gives node)

theorem shadows_gives (node : Node) : Gives (shadows node) (shadowEntries node) :=
  .ofResult _ fun value => .declare "box-shadow" value

theorem opacity_gives (node : Node) : Gives (opacity node) (opacityEntries node) := by
  unfold opacity opacityEntries
  by_cases absent : node.opacity.isNull = true
  · rw [if_pos absent, if_pos absent]
    exact .nothing
  rw [if_neg absent, if_neg absent]
  refine .ofResult _ fun value => ?_
  by_cases partly : value.lt (.double (.ofRatio false 1 1)) = true
  · rw [if_pos partly, if_pos partly]
    exact .ofResult _ fun value => .declare "opacity" (some value)
  · rw [if_neg partly, if_neg partly]
    exact .nothing

theorem text_gives (node : Node) : Gives (text node) (textEntries node) := by
  unfold text textEntries
  by_cases isText : node.isText = true
  · rw [if_pos isText, if_pos isText]
    refine .ofResult _ fun face => ?_
    refine ((Gives.declareAll (.given face)).seq
      (.ofResult (textColor node.fills) fun value => .declare "color" value)).congr ?_
    cases textColor node.fills <;> rfl
  · rw [if_neg isText, if_neg isText]
    exact .nothing

/-- **All steps give the entries of the node.** -/
theorem node_gives (node : Node) (parent : Option Node) (isRoot : Bool) :
    Gives (Styling.node node parent isRoot) (entries node parent isRoot) :=
  (size_gives node).seq <| (position_gives node parent isRoot).seq <| (layout_gives node).seq <|
    (surface_gives node).seq <| (outline_gives node).seq <| (shadows_gives node).seq <|
    (opacity_gives node).seq <| (text_gives node).congr (concat_singleton _).symm

end Styling

namespace Style

/-- **The block of a node is made of its entries.** -/
theorem declarations_eq (node : Node) (parent : Option Node) (isRoot : Bool) :
    declarations node parent isRoot
      = Declarations.addAll {} <$> entries node parent isRoot :=
  (Styling.node_gives node parent isRoot).finish {}

/-- A block that is finished is made of the entries of its node. -/
theorem entries_of_declarations {node : Node} {parent : Option Node} {isRoot : Bool}
    {block : Declarations} (h : declarations node parent isRoot = .ok block) :
    ∃ all, entries node parent isRoot = .ok all ∧ block = Declarations.addAll {} all := by
  rw [declarations_eq] at h
  cases hall : entries node parent isRoot with
  | error fault => rw [hall] at h; cases h
  | ok all => rw [hall] at h; exact ⟨all, rfl, (Except.ok.inj h).symm⟩

end Style

end Mockup
