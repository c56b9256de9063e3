import Mockup.Design.Node
import Mockup.Style.Figure

/-!
# Layout: position and flexible boxes

Whether a node is placed at an offset from its parent or flows with its siblings, and how a node
lays out its children.

* `Style.PositionMode`, `Style.positionMode` — how a node is placed;
* `Style.needsContainingBlock` — whether a child of the node is placed at an offset from it;
* `Style.placement`, `Style.positioning` — the declarations of a node's place;
* `Style.flexLayout` — the declarations of a node that lays out its children;
* `Style.inferredAlignment` — those of a container around a single label.
-/

namespace Mockup.Style

/-! ### Alignment words -/

/-- The word for an alignment of children along an axis. -/
def alignment? : String → Option String
  | "MIN" => some "start"
  | "MAX" => some "end"
  | "CENTER" => some "center"
  | "BASELINE" => some "baseline"
  | "STRETCH" => some "stretch"
  | "SPACE_BETWEEN" => some "space-between"
  | _ => none

/-- The word for the vertical alignment of a single label. -/
def verticalAlignment? : String → Option String
  | "TOP" => some "start"
  | "CENTER" => some "center"
  | "BOTTOM" => some "end"
  | _ => none

/-- The word for the horizontal alignment of a single label. -/
def horizontalAlignment? : String → Option String
  | "LEFT" => some "start"
  | "CENTER" => some "center"
  | "RIGHT" => some "end"
  | _ => none

/-- The word that a table has for a value, or another word where it has none. -/
def wordFor (table : String → Option String) (default : String) (j : Json) : Result String := do
  let key ← (j.orElse (.str "")).keyword
  return (key.bind table).getD default

/-- **The alignment of children** along an axis, at the start unless the document says otherwise. -/
def alignment (j : Json) : Result String := wordFor alignment? "start" j

/-! ### Position -/

/-- **How a node is placed**: where it stands but so that offsets are measured from it, at an
offset, or in the flow. -/
inductive PositionMode where
  | relative
  | absolute
  | static
  deriving DecidableEq

/-- The word for a mode. -/
def PositionMode.name : PositionMode → String
  | .relative => "relative"
  | .absolute => "absolute"
  | .static => "static"

/-- **Whether a visible child is placed at an offset** from the node: any child of a node without
automatic layout is, and with it those that are forced to. -/
def needsContainingBlock (node : Node) : Bool :=
  !node.visibleChildren.isEmpty
    && (!node.hasAutoLayout || node.visibleChildren.any (·.forcedAbsolute))

/-- **The mode of a node.** The first rule that applies decides: a root, a forced offset, a place in
the flow of a parent with automatic layout, and otherwise an offset. -/
def positionMode (node : Node) (parent : Option Node) (isRoot : Bool) : PositionMode :=
  if isRoot then .relative
  else if node.forcedAbsolute then .absolute
  else if parent.any (·.hasAutoLayout) then
    if needsContainingBlock node then .relative else .static
  else .absolute

/-- The mode of a node that may be missing, which only a root may be. -/
def positionMode? (node : Option Node) (parent : Option Node) (isRoot : Bool) :
    Result PositionMode :=
  if isRoot then .ok .relative
  else return positionMode (← orFault .absentMember node) parent isRoot

/-- The offset of a node from its parent, when both have a rectangle. -/
def offset (node : Node) (parent : Option Node) : Result (List (String × String)) :=
  match node.box, parent.bind (·.box) with
  | some box, some outer => do
    let left ← pixels (.num (← difference box.x outer.x))
    let top ← pixels (.num (← difference box.y outer.y))
    return [("left", left), ("top", top)]
  | _, _ => .ok []

/-- What belongs to the place of a node beside its mode. A root hides what leaves it and is white; a
node at an offset has the offset. -/
def placement (node : Node) (parent : Option Node) (isRoot : Bool) :
    Result (List (String × String)) :=
  if isRoot then .ok [("overflow", "hidden"), ("background-color", "white")]
  else if positionMode node parent isRoot = .absolute then offset node parent
  else .ok []

/-- **The declarations of a node's place.** -/
def positioning (node : Node) (parent : Option Node) (isRoot : Bool) :
    Result (List (String × String)) :=
  return ("position", (positionMode node parent isRoot).name) :: (← placement node parent isRoot)

/-! ### Flexible boxes -/

/-- A padding or a gap; one that is not given is zero. -/
def gap (j : Json) : Result String := pixels (j.orElse (.ofInt 0))

/-- **The declarations of automatic layout.** -/
def flexLayout (node : Node) : Result (List (String × String)) :=
  if node.hasAutoLayout then do
    let top ← gap node.paddingTop
    let right ← gap node.paddingRight
    let bottom ← gap node.paddingBottom
    let left ← gap node.paddingLeft
    let spacing ← gap node.itemSpacing
    let across ← alignment node.counterAlign
    let along ← alignment node.primaryAlign
    return [("display", "flex"),
      ("flex-direction", if node.layout = .horizontal then "row" else "column"),
      ("gap", spacing),
      ("padding", " ".intercalate [top, right, bottom, left]),
      ("align-items", across),
      ("justify-content", along)]
  else .ok []

/-- The style of the only label among the visible children of a plain container, unless a child is
placed at a forced offset. -/
def soleLabelStyle? (node : Node) : Option TextStyle :=
  if node.isText || node.hasAutoLayout || node.visibleChildren.any (·.forcedAbsolute) then none
  else match node.visibleChildren.filter (·.isText) with
    | [label] => label.style
    | _ => none

/-- **The alignment of a plain container around a single label.** The container aligns its children
as the label aligns its text, in the centre where the label does not say. -/
def inferredAlignment (node : Node) : Result (List (String × String)) :=
  match soleLabelStyle? node with
  | some style =>
    if style.alignHorizontal.truthy || style.alignVertical.truthy then do
      let across ← wordFor verticalAlignment? "center" style.alignVertical
      let along ← wordFor horizontalAlignment? "center" style.alignHorizontal
      return [("display", "flex"), ("align-items", across), ("justify-content", along)]
    else .ok []
  | none => .ok []

end Mockup.Style
