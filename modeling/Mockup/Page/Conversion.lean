import Mockup.Design.Reading
import Mockup.Page.Emission

/-!
# Conversion of a document

The page body and the stylesheet of a whole document. What is rendered are its artboards, the frames,
sections and components directly on a canvas. Several artboards stand in a box of their own, a single
one stands alone, and a tree without artboards is rendered itself.

* `Node.artboards` — the artboards of a tree, in the order of the document;
* `Conversion` — body and stylesheet;
* `Node.roots` — what is rendered of a tree;
* `convert` — the conversion of a tree;
* `convertDocument` — that of a document as it is given.
-/

namespace Mockup

/-! ### Artboards -/

/-- Whether a node is an artboard when it stands directly on a canvas. -/
def Traits.isArtboard (t : Traits) : Bool :=
  t.kind = .frame || t.kind = .pageSection || t.kind = .component

mutual

/-- **The artboards of a tree.** Canvases are searched for from the top down; below a canvas no
other canvas is looked for. -/
def Node.artboards : Node → List Node
  | ⟨_, none⟩ => []
  | ⟨t, some children⟩ =>
    if t.kind = .canvas then children.filter (·.isArtboard) else artboardsOf children

/-- The artboards of several trees. -/
def artboardsOf : List Node → List Node
  | [] => []
  | child :: rest => child.artboards ++ artboardsOf rest

end

/-! ### Pages -/

/-- **A converted document.** -/
structure Conversion where
  html : String
  css : String
  deriving DecidableEq

/-- The gap between artboards unless another is asked for. -/
def defaultGap : Int := 32

/-- **What is rendered of a tree**: its artboards, or the tree itself when it has none. -/
def Node.roots (root : Node) : List Node :=
  match root.artboards with
  | [] => [root]
  | artboards => artboards

/-- The page of rendered roots and their rules; more than one root is put in a box. -/
def assemble (gap : Int) (fragments : List (List Element)) (rules : Stylesheet) : Conversion :=
  let several := 1 < fragments.length
  let content := fragments.flatten
  let body := if several then [.box Stylesheet.containerClass content] else content
  let sheets := [Stylesheet.base] ++ (if several then [Stylesheet.container gap] else [])
    ++ (if rules.isEmpty then [] else [rules.render])
  ⟨Element.renderAll body, "\n".intercalate sheets⟩

/-- **Converts a tree.** -/
def convert (gap : Int) (root : Node) : Result Conversion :=
  match (emitRoots root.roots).runFrom [] with
  | (.ok fragments, rules) => .ok (assemble gap fragments rules)
  | (.error fault, _) => .error fault

/-- The refusal of a conversion of nothing. -/
def missingRoot : Refusal := .of .invalidInput .null .input

/-- Converts a tree that may be missing. -/
def convert? (gap : Int) (root : Option Node) : Result Conversion :=
  match root with
  | some root => convert gap root
  | none => .error (.refused missingRoot)

/-- Converts a document as it is given. -/
def convertDocument (gap : Int) (document : Json) : Result Conversion := do
  convert gap (← Node.ofJson document)

end Mockup
