import Mockup.Style.Declarations
import Mockup.Style.Label
import Mockup.Style.Layout

/-!
# The declaration block of a node

The block of a node is built in steps, one for each aspect of the node. A step that fails leaves
what the steps before it, and its own part so far, have built.

* `Styling` — work on a block;
* `Styling.size`, …, `Styling.text` — the steps;
* `Styling.node` — all steps in order;
* `Style.block` — the text of a node's block.
-/

namespace Mockup

/-- Work on a declaration block. -/
abbrev Styling := Work Declarations

namespace Styling

open Style

/-- Gives a property a value that may be missing. -/
def declare (property : String) (value : Option String) : Styling Unit :=
  modify (·.add property value)

/-- Gives values that may be missing to several properties. -/
def declareAll (entries : Entries) : Styling Unit := modify (·.addAll entries)

/-- Width and height. -/
def size (node : Node) : Styling Unit :=
  match node.box with
  | some box => do
    declare "width" (← Work.ofResult (pixels box.width))
    declare "height" (← Work.ofResult (pixels box.height))
  | none => pure ()

/-- The place of the node. -/
def position (node : Node) (parent : Option Node) (isRoot : Bool) : Styling Unit := do
  declareAll (.given (← Work.ofResult (positioning node parent isRoot)))

/-- The layout of the children, of the node's own or inferred from a single label. -/
def layout (node : Node) : Styling Unit := do
  let entries := if node.hasAutoLayout then flexLayout node else inferredAlignment node
  declareAll (.given (← Work.ofResult entries))

/-- The background. The fills of a label are its colour and not its background. -/
def surface (node : Node) : Styling Unit :=
  if node.isText then pure ()
  else if node.fills.isSome then do
    declare "background" (← Work.ofResult (background node.fills))
  else match node.backgroundColor with
    | some color => do declare "background-color" (some (← Work.ofResult (rgba (some color) .null)))
    | none => pure ()

/-- Rounded corners, alike or one by one. -/
def corners (node : Node) : Styling Unit := do
  if node.cornerRadius.truthy then
    declare "border-radius" (some (← Work.ofResult (pixels node.cornerRadius)))
  else if node.cornerRadii.truthy then
    if (← Work.ofResult node.cornerRadii.size) = 4 then
      let radii ← Work.ofResult node.cornerRadii.entries
      let radii ← Work.ofResult (radii.mapM pixels)
      declare "border-radius" (some (" ".intercalate radii))

/-- The border and its corners. -/
def outline (node : Node) : Styling Unit := do
  declare "border" (← Work.ofResult (border node.strokes node.strokeWeight))
  corners node

/-- The shadows. -/
def shadows (node : Node) : Styling Unit := do
  declare "box-shadow" (← Work.ofResult (boxShadow node.effects))

/-- The opacity, unless it is full. -/
def opacity (node : Node) : Styling Unit := do
  unless node.opacity.isNull do
    if (← Work.ofResult node.opacity.operand).lt (.double (.ofRatio false 1 1)) then
      declare "opacity" (some (← Work.ofResult (number node.opacity)))

/-- The type face and colour of a label. -/
def text (node : Node) : Styling Unit := do
  if node.isText then
    declareAll (.given (← Work.ofResult (typography node.style)))
    declare "color" (← Work.ofResult (textColor node.fills))

/-- **All steps.** -/
def node (node : Node) (parent : Option Node) (isRoot : Bool) : Styling Unit := do
  size node
  position node parent isRoot
  layout node
  surface node
  outline node
  shadows node
  opacity node
  text node

end Styling

namespace Style

/-- The declarations of a node. -/
def declarations (node : Node) (parent : Option Node) (isRoot : Bool) : Result Declarations :=
  match (Styling.node node parent isRoot).runFrom {} with
  | (.ok (), block) => .ok block
  | (.error fault, _) => .error fault

/-- **The declaration block of a node**, as text. -/
def block (node : Node) (parent : Option Node) (isRoot : Bool) : Result String :=
  return (← declarations node parent isRoot).text

end Style

end Mockup
