import Mockup.Design.Node

/-!
# Reading a document

The tree of a document from its JSON value. Reading follows the fields of a node in a fixed order,
so of several faults in a document always the same one is reported. Entries that are `null` are left
out of every list of children, paints and effects.

* `Node.ofJson` — reading a node with everything below it; `null` in its place is refused.
-/

namespace Mockup

/-- The refusal of `null` in place of a document. -/
def missingDocument : Refusal :=
  .of .invalidInput (.str "Invalid Figma API response: response is null or undefined") .input

/-- Reading what a node says of itself, without the children: first what comes before them in the
order of reading, which cannot fail for an object, then the rest. -/
def Traits.ofJson (j : Json) : Result Traits := do
  let id := (← j.memberOr "id" (.str "")).plain
  let name := (← j.member "name").orElse (.str "")
  let kind := NodeKind.ofJson (← j.member "type")
  let box ← Box.ofJson? (← j.member "absoluteBoundingBox")
  let fills ← (← j.member "fills").mapGiven? Paint.ofJson
  let strokes ← (← j.member "strokes").mapGiven? Paint.ofJson
  let effects ← (← j.member "effects").mapGiven? Effect.ofJson
  let style ← TextStyle.ofJson? (← j.member "style")
  let backgroundColor ← Color.ofJson? (← j.member "backgroundColor")
  return {
    id, name, kind, box, fills, strokes, effects, style, backgroundColor
    strokeWeight := ← j.member "strokeWeight"
    strokeAlign := ← j.member "strokeAlign"
    characters := ← j.member "characters"
    layout := .ofJson (← j.member "layoutMode")
    forcedAbsolute := (← j.member "layoutPositioning").isText "ABSOLUTE"
    primaryAlign := ← j.member "primaryAxisAlignItems"
    counterAlign := ← j.member "counterAxisAlignItems"
    paddingLeft := ← j.member "paddingLeft"
    paddingRight := ← j.member "paddingRight"
    paddingTop := ← j.member "paddingTop"
    paddingBottom := ← j.member "paddingBottom"
    itemSpacing := ← j.member "itemSpacing"
    opacity := ← j.member "opacity"
    visible := ← visibleIn j
    cornerRadius := ← j.member "cornerRadius"
    cornerRadii := ← j.member "rectangleCornerRadii" }

mutual

/-- **Reading a node.** The children are read before the parts of the node that may be faulty. -/
def Node.ofJson : Json → Result Node
  | .null => .error (.refused missingDocument)
  | .obj fields => do
    let children ← childrenField fields
    return ⟨← Traits.ofJson (.obj fields), children⟩
  | _ => .error .absentMember

/-- The children that the fields of a node list. -/
def childrenField : List (String × Json) → Result (Option (List Node))
  | [] => .ok none
  | (name, value) :: rest => if name = "children" then childrenOf value else childrenField rest

/-- The children in a list of children. The names of an object and the characters of a text are no
nodes. -/
def childrenOf : Json → Result (Option (List Node))
  | .null => .ok none
  | .arr items => do return some (← nodesOf items)
  | .obj [] | .str "" => .ok (some [])
  | .obj _ | .str _ => .error .absentMember
  | _ => .error .wrongKind

/-- The nodes of a list of values, without those that are `null`. -/
def nodesOf : List Json → Result (List Node)
  | [] => .ok []
  | .null :: rest => nodesOf rest
  | item :: rest => do
    let node ← Node.ofJson item
    return node :: (← nodesOf rest)

end

end Mockup
