/-!
# Text inside markup

Text from a document is put into markup in two places, and each has its own set of characters that
must not stand there as they are.

* `Text.escape` — the text of a label: `&`, `<` and `>` become entities and a line end a break;
* `Text.escapeAttribute` — a title or an attribute: both quotes become entities as well;
* `Text.identifier`, `Text.className` — an identifier as a name of letters, digits, `_` and `-`.
-/

namespace Mockup.Text

/-- Puts a text in place of each occurrence of a character. -/
def replaceChar (c : Char) (replacement : String) (cs : List Char) : List Char :=
  cs.flatMap fun d => if d = c then replacement.toList else [d]

/-- Replacements made one after the other. -/
def replaceEach (table : List (Char × String)) (cs : List Char) : List Char :=
  table.foldl (fun cs entry => replaceChar entry.1 entry.2 cs) cs

/-- What must not stand in the text of a label. The ampersand comes first: the entities put in for
the others have ampersands of their own. -/
def labelEntities : List (Char × String) :=
  [('&', "&amp;"), ('<', "&lt;"), ('>', "&gt;"), ('\n', "<br/>")]

/-- What must not stand in a title or an attribute. -/
def attributeEntities : List (Char × String) :=
  [('&', "&amp;"), ('<', "&lt;"), ('>', "&gt;"), ('"', "&quot;"), ('\'', "&#x27;")]

/-- **The text of a label.** -/
def escape (text : String) : String := .ofList (replaceEach labelEntities text.toList)

/-- **The text of a title or an attribute.** -/
def escapeAttribute (text : String) : String := .ofList (replaceEach attributeEntities text.toList)

/-- Whether a character may stand in a class name. -/
def isNameChar (c : Char) : Bool := c.isAlphanum || c == '_' || c == '-'

/-- **An identifier as a name**: any other character becomes a hyphen. -/
def identifier (text : String) : String :=
  .ofList (text.toList.map fun c => if isNameChar c then c else '-')

/-- The class name of the node with a given identifier. -/
def className (id : String) : String := "node-" ++ identifier id

end Mockup.Text
