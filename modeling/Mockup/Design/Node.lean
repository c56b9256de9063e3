import Mockup.Design.Paint

/-!
# The document tree

A design document is a tree of nodes: the document, its canvases, and on them frames, groups, shapes
and labels.

* `NodeKind` — the kinds of node;
* `LayoutMode` — whether a node lays out its children in a row or a column;
* `TextStyle` — the type face and setting of a label;
* `Traits` — what a node says of itself;
* `Node` — a node with its children;
* `Node.isText`, `Node.hasAutoLayout`, `Node.visibleChildren` — the questions that layout asks.
-/

namespace Mockup

/-- **The kinds of node.** -/
inductive NodeKind where
  | document
  | canvas
  | frame
  | pageSection
  | group
  | vector
  | booleanOperation
  | star
  | line
  | ellipse
  | regularPolygon
  | rectangle
  | text
  | slice
  | component
  | componentInstance
  | componentSet
  | unknown
  deriving DecidableEq

namespace NodeKind

/-- All kinds. -/
def all : List NodeKind :=
  [.document, .canvas, .frame, .pageSection, .group, .vector, .booleanOperation, .star, .line,
   .ellipse, .regularPolygon, .rectangle, .text, .slice, .component, .componentInstance,
   .componentSet, .unknown]

/-- The name of a kind in a document. -/
def name : NodeKind → String
  | .document => "DOCUMENT"
  | .canvas => "CANVAS"
  | .frame => "FRAME"
  | .pageSection => "SECTION"
  | .group => "GROUP"
  | .vector => "VECTOR"
  | .booleanOperation => "BOOLEAN_OPERATION"
  | .star => "STAR"
  | .line => "LINE"
  | .ellipse => "ELLIPSE"
  | .regularPolygon => "REGULAR_POLYGON"
  | .rectangle => "RECTANGLE"
  | .text => "TEXT"
  | .slice => "SLICE"
  | .component => "COMPONENT"
  | .componentInstance => "INSTANCE"
  | .componentSet => "COMPONENT_SET"
  | .unknown => "UNKNOWN"

/-- The kind that a value names; a value that names none makes the node unknown. -/
def ofJson (j : Json) : NodeKind := (all.find? fun kind => j.isText kind.name).getD .unknown

end NodeKind

/-- **Automatic layout**: none, in a row, or in a column. -/
inductive LayoutMode where
  | none
  | horizontal
  | vertical
  deriving DecidableEq

namespace LayoutMode

/-- The name of a layout in a document. -/
def name : LayoutMode → String
  | .none => "NONE"
  | .horizontal => "HORIZONTAL"
  | .vertical => "VERTICAL"

/-- The layout that a value names; any other value is no automatic layout. -/
def ofJson (j : Json) : LayoutMode :=
  if j.isText "HORIZONTAL" then .horizontal else if j.isText "VERTICAL" then .vertical else .none

end LayoutMode

/-- **The style of a label.** An absent part is `null`. -/
structure TextStyle where
  fontFamily : Json := .null
  fontPostScriptName : Json := .null
  fontWeight : Json := .null
  fontSize : Json := .null
  alignHorizontal : Json := .null
  alignVertical : Json := .null
  letterSpacing : Json := .null
  lineHeightPx : Json := .null
  lineHeightPercent : Json := .null

/-- Reading the style of a label. -/
def TextStyle.ofJson (j : Json) : Result TextStyle :=
  return {
    fontFamily := ← j.member "fontFamily"
    fontPostScriptName := ← j.member "fontPostScriptName"
    fontWeight := ← j.member "fontWeight"
    fontSize := ← j.member "fontSize"
    alignHorizontal := ← j.member "textAlignHorizontal"
    alignVertical := ← j.member "textAlignVertical"
    letterSpacing := ← j.member "letterSpacing"
    lineHeightPx := ← j.member "lineHeightPx"
    lineHeightPercent := ← j.member "lineHeightPercent" }

/-- Reading the style of a node; a value that does not count as given is none. -/
def TextStyle.ofJson? (j : Json) : Result (Option TextStyle) :=
  if j.truthy then some <$> TextStyle.ofJson j else .ok none

/-- **What a node says of itself.** A part that the document leaves out is `null` or none. -/
structure Traits where
  id : String
  name : Json := .str ""
  kind : NodeKind := .frame
  box : Option Box := none
  fills : Option (List Paint) := none
  strokes : Option (List Paint) := none
  strokeWeight : Json := .null
  strokeAlign : Json := .null
  effects : Option (List Effect) := none
  characters : Json := .null
  style : Option TextStyle := none
  layout : LayoutMode := .none
  forcedAbsolute : Bool := false
  primaryAlign : Json := .null
  counterAlign : Json := .null
  paddingLeft : Json := .null
  paddingRight : Json := .null
  paddingTop : Json := .null
  paddingBottom : Json := .null
  itemSpacing : Json := .null
  backgroundColor : Option Color := none
  opacity : Json := .null
  visible : Bool := true
  cornerRadius : Json := .null
  cornerRadii : Json := .null

/-- **A node.** A node without a list of children differs from one with an empty list only when it
is reported. -/
structure Node extends Traits where
  children : Option (List Node) := none

namespace Traits

/-- Whether the node is a label. -/
def isText (t : Traits) : Bool := t.kind = .text

/-- Whether the node lays out its children. -/
def hasAutoLayout (t : Traits) : Bool := t.layout ≠ .none

end Traits

namespace Node

/-- The children; a node without a list of children has none. -/
def childList (node : Node) : List Node := node.children.getD []

/-- The children that are shown. -/
def visibleChildren (node : Node) : List Node := node.childList.filter (·.visible)

@[simp] theorem childList_mk (t : Traits) (children : Option (List Node)) :
    childList ⟨t, children⟩ = children.getD [] := rfl

/-- **Induction on a tree.** What holds of a node when it holds of its children holds of
every node. -/
theorem induction {motive : Node → Prop}
    (step : ∀ (t : Traits) (children : Option (List Node)),
      (∀ child ∈ children.getD [], motive child) → motive ⟨t, children⟩) (node : Node) :
    motive node := by
  refine @Node.rec motive (fun children => ∀ c ∈ children.getD [], motive c)
    (fun nodes => ∀ c ∈ nodes, motive c) step ?_ ?_ ?_ ?_ node
  · simp
  · intro nodes h
    simpa using h
  · simp
  · intro head tail hhead htail c hc
    rcases List.mem_cons.mp hc with rfl | hc
    · exact hhead
    · exact htail c hc

end Node

end Mockup
