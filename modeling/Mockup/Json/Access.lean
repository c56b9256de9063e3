import Mockup.Fault
import Mockup.Number.Written

/-!
# Asking a value for what only some values have

Fields of a document are used without a check beforehand. Each use is one of the questions below,
and a value of another kind answers it with a fault.

* `Json.member`, `Json.memberOr` — a field of an object;
* `Json.entries` — the entries of a container: the items of an array, but also the field names of an
  object and the characters of a text;
* `Json.operand`, `Json.toDouble` — a number for arithmetic, and a number also from a text;
* `Json.keyword` — a key to look up in a table;
* `Json.size` — the number of entries.
-/

namespace Mockup

namespace Json

/-- **A field**, or another value where an object has no such field. -/
def memberOr (j : Json) (name : String) (default : Json) : Result Json :=
  match j with
  | .obj fields => .ok ((find? name fields).getD default)
  | _ => .error .absentMember

/-- **A field**; an absent field is `null`. -/
def member (j : Json) (name : String) : Result Json := j.memberOr name .null

/-- **The entries of a container.** -/
def entries : Json → Result (List Json)
  | .arr items => .ok items
  | .obj fields => .ok (fields.map fun field => .str field.1)
  | .str s => .ok (s.toList.map fun c => .str c.toString)
  | _ => .error .wrongKind

/-- The number of entries of a container. -/
def size : Json → Result Nat
  | .arr items => .ok items.length
  | .obj fields => .ok fields.length
  | .str s => .ok s.length
  | _ => .error .wrongKind

/-- **A number for arithmetic.** -/
def operand (j : Json) : Result Number := orFault .wrongKind j.number?

/-- **A value as a double**: a number, a truth value, or a text that writes a number. -/
def toDouble : Json → Result Binary64
  | .num n => orFault .outOfRange n.toDouble?
  | .bool b => .ok (if b then .ofRatio false 1 1 else .zero)
  | .str s => orFault .badValue (Binary64.ofText? s)
  | _ => .error .wrongKind

/-- **A key for a table of texts.** A scalar that is not a text is a key that no such table has; a
container is not a key. -/
def keyword : Json → Result (Option String)
  | .str s => .ok (some s)
  | .arr _ | .obj _ => .error .wrongKind
  | _ => .ok none

/-- Whether a value is a given text. -/
def isText (text : String) : Json → Bool
  | .str s => s = text
  | _ => false

end Json

end Mockup
