import Mockup.Fault
import Mockup.Link.Host
import Mockup.Text.Character
import Mockup.Text.Percent

/-!
# What a link points to

A link to a design names a file by its key and may name a node of it. The key stands in the path,
the node in the query or, failing that, in the fragment. A key alone is a link as well.

* `Link.Target` — a file and a node;
* `Link.fileKey?` — the key in a text;
* `Link.parts` — the query and the fragment of a link;
* `Link.parameters` — the parameters of a query;
* `Link.parse` — the target of a link.
-/

namespace Mockup.Link

open Text

/-- **What a link points to**: the key of a file, and a node of the file. -/
structure Target where
  fileKey : Option String
  nodeId : Option String
  deriving DecidableEq

/-! ### Keys -/

/-- Whether a character may be part of a key. -/
def isKeyChar (c : Char) : Bool := c.isAlphanum

/-- Whether a text is a key alone. A line end after it does not count. -/
def isBareKey (cs : List Char) : Bool :=
  let rest := cs.dropWhile isKeyChar
  (cs.head?.any isKeyChar) && (rest == [] || rest == ['\n'])

/-- The text after a given beginning. -/
def after? (beginning cs : List Char) : Option (List Char) :=
  if beginning.isPrefixOf cs then some (cs.drop beginning.length) else none

/-- The key at the beginning of a text, after the word that announces one. -/
def keyHere? (cs : List Char) : Option (List Char) := do
  let rest ← after? "/file/".toList cs <|> after? "/design/".toList cs
  let key := rest.takeWhile isKeyChar
  if key.isEmpty then none else some key

/-- **The key in a text**: the first one that is announced anywhere in it. -/
def fileKey? : List Char → Option (List Char)
  | [] => none
  | c :: rest => keyHere? (c :: rest) <|> fileKey? rest

/-! ### Parts of a link -/

/-- Whether a character may be part of a scheme. -/
def isSchemeChar (c : Char) : Bool := c.isAlphanum || c == '+' || c == '-' || c == '.'

/-- A link without its scheme. -/
def withoutScheme (cs : List Char) : List Char :=
  match cutAt ':' cs with
  | (scheme, some rest) =>
    if scheme.head?.any Char.isAlpha && scheme.all isSchemeChar then rest else cs
  | _ => cs

/-- Whether a character ends the host of a link. -/
def endsHost (c : Char) : Bool := c == '/' || c == '?' || c == '#'

/-- The host of a link without scheme, which follows two slashes, and the rest. -/
def splitHost : List Char → List Char × List Char
  | '/' :: '/' :: rest =>
    (rest.takeWhile (!endsHost ·), rest.dropWhile (!endsHost ·))
  | cs => ([], cs)

/-- Whether a character is left out of a link wherever it stands. -/
def isDropped (c : Char) : Bool := c == '\t' || c == '\n' || c == '\r'

/-- The host of a link and what follows it. Controls and blanks before the link do not matter. -/
def hostAndRest (cs : List Char) : List Char × List Char :=
  splitHost (withoutScheme ((cs.dropWhile (· ≤ ' ')).filter (!isDropped ·)))

/-- The query and the fragment in what follows the host. -/
def queryAndFragment (cs : List Char) : List Char × List Char :=
  let (rest, fragment) := cutAt '#' cs
  ((cutAt '?' rest).2.getD [], fragment.getD [])

/-- **The query and the fragment of a link**, unless its host is not in order. -/
def parts (cs : List Char) : Result (List Char × List Char) :=
  let (host, rest) := hostAndRest cs
  if isHost host then .ok (queryAndFragment rest) else .error .badValue

/-! ### Parameters -/

/-- A parameter; one without a value is none. -/
def parameter? (cs : List Char) : Option (List Char × List Char) :=
  match cutAt '=' cs with
  | (name, some value) =>
    if value.isEmpty then none else some (Percent.decodeForm name, Percent.decodeForm value)
  | _ => none

/-- **The parameters of a query**, in order. -/
def parameters (query : List Char) : List (List Char × List Char) :=
  (splitAtEach '&' query).filterMap parameter?

/-- The value of the first parameter of a given name. -/
def valueOf? (name : String) (parameters : List (List Char × List Char)) : Option (List Char) :=
  (parameters.find? fun parameter => parameter.1 = name.toList).map (·.2)

/-- A node as the document names it: links write a hyphen for the colon. -/
def nodeName (cs : List Char) : List Char := cs.map fun c => if c = '-' then ':' else c

/-- The node that a query names. -/
def nodeInQuery? (query : List Char) : Option (List Char) :=
  let parameters := parameters (query.filter (· ≠ '\\'))
  (valueOf? "node-id" parameters <|> valueOf? "id" parameters).map nodeName

/-- The node that a fragment names. -/
def nodeInFragment? (fragment : List Char) : Option (List Char) :=
  (valueOf? "node-id" (parameters fragment)).map nodeName

/-- The node that a link names in its query or, failing that, in its fragment. -/
def nodeIn? (queryAndFragment : List Char × List Char) : Option (List Char) :=
  nodeInQuery? queryAndFragment.1 <|> nodeInFragment? queryAndFragment.2

/-- The text of a link. Blanks around it and its escapes do not matter. -/
def unescaped (link : String) : List Char := Percent.decode (trimBlanks link.toList)

/-- **The target of a link.** Blanks around it and its escapes do not matter, and neither do
backslashes in its query. -/
def parse (link : String) : Result Target := do
  let cs := unescaped link
  if isBareKey cs then return ⟨some (.ofList cs), none⟩
  let node := nodeIn? (← parts cs)
  return ⟨(fileKey? cs).map .ofList, node.map .ofList⟩

end Mockup.Link
