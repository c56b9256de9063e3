import Mockup.Web.Endpoint

/-!
# The framework at work

A framework that answers as the one does with which the server runs. It adds pages that describe the
offers, finds the offer of an address, and checks a body field by field.

* `Address.resolve`, `Address.path` — the path of an address, which may be a path alone or a link;
* `Field.read`, `Framework.Standard.check` — the check of one field, and of a body;
* `Framework.Standard.repeated` — what an answer repeats of a value;
* `Framework.Standard.route` — the offer of an address;
* `Framework.standard` — **the framework at work.**
-/

namespace Mockup

open Text

/-! ### Addresses -/

namespace Address

/-- An address without its scheme, which may be empty. -/
def withoutScheme : List Char → List Char
  | ':' :: rest => rest
  | cs => Link.withoutScheme cs

/-- Whether an address has a scheme that is not empty. -/
def hasScheme (cs : List Char) : Bool := cs.head? ≠ some ':' && Link.withoutScheme cs != cs

/-- Whether an address is a whole link, which names the server as well. -/
def hasServer (cs : List Char) : Bool :=
  hasScheme cs && !(Link.splitHost (withoutScheme cs)).1.isEmpty

/-- The names of a path after one more name: a point stays where it is and two points go one up,
unless that would leave the path. -/
def step (names : List (List Char)) (name : List Char) : List (List Char) :=
  if name = ['.'] then names
  else if name = ['.', '.'] then if names = [[]] then names else names.dropLast
  else names ++ [name]

/-- **A path without the names that only move about.** -/
def resolve (path : List Char) : List Char :=
  ['/'].intercalate ((Link.splitAtEach '/' path).foldl step [])

/-- **The path of an address**, without query and fragment. A path alone begins at the top with one
slash. Escapes are read on the way to the server and once more by the server. -/
def path (address : String) : List Char :=
  let cs := address.toList.takeWhile fun c => c ≠ '?' && c ≠ '#'
  let named := (Link.splitHost (withoutScheme cs)).2
  let whole := if hasServer cs then named else '/' :: named.dropWhile (· == '/')
  Percent.decode (Percent.decode (resolve whole))

end Address

/-! ### Bodies -/

/-- **Reading a field** of an object: its value, or the issue with it. -/
def Field.read (field : Field) (members : List (String × Json)) : Except Issue (Option String) :=
  match Json.find? field.name members with
  | none =>
    if field.isOptional then .ok none else .error ⟨["body", field.name], .missing, .obj members⟩
  | some (.str text) =>
    if text.length < field.shortest then .error ⟨["body", field.name], .tooShort, .str text⟩
    else .ok (some text)
  | some value =>
    if field.isOptional && value.isNull then .ok none
    else .error ⟨["body", field.name], .notText, value⟩

namespace Framework.Standard

/-- Reading several fields: all values, or all issues. -/
def readAll (members : List (String × Json)) :
    List Field → Except (List Issue) (List (Option String))
  | [] => .ok []
  | field :: rest =>
    match field.read members, readAll members rest with
    | .ok value, .ok values => .ok (value :: values)
    | .ok _, .error issues => .error issues
    | .error issue, .ok _ => .error [issue]
    | .error issue, .error issues => .error (issue :: issues)

/-- **The check of a body.** -/
def check (fields : List Field) : Json → Except (List Issue) (List (Option String))
  | .obj members => readAll members fields
  | j => .error [⟨["body"], .notObject, j⟩]

/-- The answer to a body that is none, or that is not readable. -/
def unread : Option Json.ReadError → Answer
  | none => ⟨422, .issues [⟨["body"], .missing, .null⟩]⟩
  | some .malformed => ⟨422, .issues [⟨["body"], .notJson, .obj []⟩]⟩
  | some _ => .detail 400 "There was an error parsing the body"

mutual

/-- **A value as an answer repeats it**: fields whose names begin with `_sa` are left out. -/
def repeated : Json → Json
  | .arr items => .arr (repeatedItems items)
  | .obj fields => .obj (repeatedFields fields)
  | j => j

/-- Items as an answer repeats them. -/
def repeatedItems : List Json → List Json
  | [] => []
  | item :: rest => repeated item :: repeatedItems rest

/-- Fields as an answer repeats them. -/
def repeatedFields : List (String × Json) → List (String × Json)
  | [] => []
  | (name, value) :: rest =>
    if "_sa".toList.isPrefixOf name.toList then repeatedFields rest
    else (name, repeated value) :: repeatedFields rest

end

/-! ### Answers and routes -/

/-- The answer when something unforeseen went wrong. -/
def broken : Answer := ⟨500, .text "Internal Server Error"⟩

/-- The answer to a body with issues. It repeats the values that they are about, if it can. -/
def reject (issues : List Issue) : Answer :=
  if issues.all fun issue => Answer.isWritable (repeated issue.input) then ⟨422, .issues issues⟩
  else broken

/-- The answer with a value, if it can be written. -/
def send (status : Nat) (j : Json) : Answer :=
  if Answer.isWritable j then ⟨status, .value j⟩ else broken

/-- A route: an offer, or a page that describes the offers. -/
inductive Route where
  | offer (offered : Offer)
  | description (path : String)

/-- All routes. -/
def routes : List Route :=
  [.description "/openapi.json", .description "/docs", .description "/docs/oauth2-redirect",
   .description "/redoc", .offer .convert, .offer .health]

/-- The path of a route. -/
def Route.path : Route → String
  | offer offered => offered.path
  | description path => path

/-- The methods that a route is asked with. -/
def Route.methods : Route → List String
  | offer offered => [offered.method]
  | description _ => ["GET", "HEAD"]

/-- Whether a path is that of a route. A line end after it does not count. -/
def Route.leadsTo (route : Route) (path : List Char) : Bool :=
  path == route.path.toList || path == route.path.toList ++ ['\n']

/-- The route of exactly this path. -/
def routeAt? (path : List Char) : Option Route := routes.find? (·.leadsTo path)

/-- The route of a path. Slashes at the end do not matter. -/
def routeOf? (path : List Char) : Option Route :=
  routeAt? path <|> routeAt? (path.reverse.dropWhile (· == '/')).reverse

/-- **The offer of an address.** An answer to a request for no content has none; that of a page is not
kept here. -/
def route (method address : String) : Except Answer Offer :=
  let method := method.toUpper
  let other (answer : Answer) : Except Answer Offer :=
    .error (if method = "HEAD" then { answer with content := .text "" } else answer)
  match routeOf? (Address.path address) with
  | none => other (.detail 404 "Not Found")
  | some route =>
    if !route.methods.contains method then other (.detail 405 "Method Not Allowed")
    else match route with
      | .offer offered => .ok offered
      | .description _ => other ⟨200, .text ""⟩

end Framework.Standard

/-- **The framework at work.** -/
def Framework.standard : Framework where
  route := Standard.route
  check := Standard.check
  kindOfOther _ := .notObject
  unread := Standard.unread
  repeated := Standard.repeated
  reject := Standard.reject
  send := Standard.send
  broken := Standard.broken

end Mockup
