import Mockup.Page.Stylesheet
import Mockup.Style.Block
import Mockup.Text.Markup

/-!
# Emission of a tree

The body of a page is a list of elements: boxes inside boxes, and labels with text. A walk over a
tree yields its elements and collects its rules. A hidden node yields nothing and
is not looked into, and neither are the children of a label. A fault ends the walk; the rules
collected before it stay.

* `Element`, `Element.render` — a box with its content or a label with its text, and the markup;
* `Emission` — work on a stylesheet;
* `Node.emit` — the walk;
* `Node.labelText` — the text of a label.
-/

namespace Mockup

/-! ### Elements of a page -/

/-- **An element**: a box or a label, with the name of its class. -/
inductive Element where
  | box (className : String) (content : List Element)
  | label (className : String) (text : String)

namespace Element

/-- Content between the tags of an element of a given class. -/
def enclose (className content : String) : String :=
  "<div class=\"" ++ className ++ "\">" ++ content ++ "</div>"

mutual

/-- **The markup of an element.** -/
def render : Element → String
  | .box className content => enclose className (renderAll content)
  | .label className text => enclose className (Text.escape text)

/-- The markup of elements one after the other. -/
def renderAll : List Element → String
  | [] => ""
  | element :: rest => render element ++ renderAll rest

end

end Element

/-! ### The walk -/

/-- Work on a stylesheet. -/
abbrev Emission := Work Stylesheet

/-- Adds a rule. -/
def Emission.addRule (rule : Rule) : Emission Unit := modify (· ++ [rule])

/-- **The text of a label**; a label whose characters are not given is empty. -/
def Traits.labelText (t : Traits) : Result String :=
  match t.characters.orElse (.str "") with
  | .str text => .ok text
  | _ => .error .absentMember

mutual

/-- **Emits a node**: its rule, then its text or its children, each child with the node
as parent. -/
def Node.emit (parent : Option Node) (isRoot : Bool) : Node → Emission (List Element)
  | ⟨traits, children⟩ => do
    if traits.visible then
      let node : Node := ⟨traits, children⟩
      let className := Text.className traits.id
      Emission.addRule ⟨className, ← Work.ofResult (Style.block node parent isRoot)⟩
      if traits.isText then
        return [.label className (← Work.ofResult traits.labelText)]
      else
        let content ← match children with
          | none => pure []
          | some children => emitChildren node children
        return [.box className content]
    else return []

/-- Emits the children of a node one after the other. -/
def emitChildren (parent : Node) : List Node → Emission (List Element)
  | [] => return []
  | child :: rest => do
    let first ← child.emit (some parent) false
    return first ++ (← emitChildren parent rest)

end

/-- Emits the artboards of a document, each a root of its own. -/
def emitRoots : List Node → Emission (List (List Element))
  | [] => return []
  | root :: rest => do
    let first ← root.emit (some root) true
    return first :: (← emitRoots rest)

end Mockup
