import Mockup.Json.Basic
import Mockup.Number.Written
import Mockup.Text.Encoding

/-!
# Reading JSON text

A machine walks the text once. Its **lexical** part gathers characters into tokens; each finished
token goes at once to the **structural** part, which keeps the containers that are still open. So
the first thing that is wrong in the text decides how the reading fails.

The grammar is that of JSON with three further numbers, `NaN`, `Infinity` and `-Infinity`. Of two
fields of one name in an object the last value counts. An integer may have at most 4300 digits. A
string that writes half of a pair alone is within the grammar, but it is no text that a value of
this library could hold: a text with such a string is read to its end and then refused.

* `Json.Token`, `Json.Parser` — tokens, and the containers still open with what may come next;
* `Json.Lexeme` — the token that is being gathered;
* `Json.read` — the value of a text.
-/

namespace Mockup.Json

open Text

/-- **Why a value is not read**: the text is not of the grammar, it has an integer that is too long,
the bytes are no text at all, or nothing is wrong but that a string has half of a pair alone. -/
inductive ReadError where
  | malformed
  | tooManyDigits
  | undecodable
  | loneHalf
  deriving DecidableEq

/-! ### Tokens and containers -/

/-- The tokens of the grammar; a scalar is a number, a truth value or `null`. -/
inductive Token where
  | openObject
  | closeObject
  | openArray
  | closeArray
  | comma
  | colon
  | string (s : String)
  | scalar (j : Json)

/-- A container that is still open: the items so far, the last one first, or the fields so far with
the name of the field being read. -/
inductive Frame where
  | items (done : List Json)
  | fields (done : List (String × Json)) (name : String)

/-- What may come next. -/
inductive Expected where
  | value
  | valueOrClose
  | name
  | nameOrClose
  | colon
  | commaOrClose
  | nothing
  deriving DecidableEq

/-- The state of the structural part: the open containers, innermost first, what may come next, and
the value when it is complete. -/
structure Parser where
  frames : List Frame := []
  expected : Expected := .value
  result : Json := .null

/-- A value is complete: it goes into the innermost open container. -/
def Parser.complete (value : Json) : List Frame → Parser
  | [] => ⟨[], .nothing, value⟩
  | .items done :: rest => ⟨.items (value :: done) :: rest, .commaOrClose, .null⟩
  | .fields done name :: rest => ⟨.fields (put name value done) name :: rest, .commaOrClose, .null⟩

/-- **One token.** The state after a token, unless the token may not come here. -/
def Parser.accept (p : Parser) (token : Token) : Option Parser :=
  match p.expected, token, p.frames with
  | .value, .openObject, frames | .valueOrClose, .openObject, frames =>
    some ⟨.fields [] "" :: frames, .nameOrClose, .null⟩
  | .value, .openArray, frames | .valueOrClose, .openArray, frames =>
    some ⟨.items [] :: frames, .valueOrClose, .null⟩
  | .value, .string s, frames | .valueOrClose, .string s, frames =>
    some (complete (.str s) frames)
  | .value, .scalar j, frames | .valueOrClose, .scalar j, frames => some (complete j frames)
  | .valueOrClose, .closeArray, .items done :: rest
  | .commaOrClose, .closeArray, .items done :: rest => some (complete (.arr done.reverse) rest)
  | .nameOrClose, .closeObject, .fields done _ :: rest
  | .commaOrClose, .closeObject, .fields done _ :: rest => some (complete (.obj done) rest)
  | .name, .string s, .fields done _ :: rest
  | .nameOrClose, .string s, .fields done _ :: rest =>
    some ⟨.fields done s :: rest, .colon, .null⟩
  | .colon, .colon, frames => some ⟨frames, .value, .null⟩
  | .commaOrClose, .comma, .items done :: rest => some ⟨.items done :: rest, .value, .null⟩
  | .commaOrClose, .comma, .fields done name :: rest =>
    some ⟨.fields done name :: rest, .name, .null⟩
  | _, _, _ => none

/-! ### Scalars and strings -/

/-- The integer part of a number, which is a zero or does not begin with one, and the rest. -/
def splitWhole : List Char → List Char × List Char
  | '0' :: rest => (['0'], rest)
  | cs => Binary64.splitDigits cs

/-- The digits after the point of a number and the rest. A point without digits is no part of
the number. -/
def splitFraction : List Char → List Char × List Char
  | '.' :: rest =>
    let (digits, after) := Binary64.splitDigits rest
    if digits.isEmpty then ([], '.' :: rest) else (digits, after)
  | cs => ([], cs)

/-- The exponent of a number, if there is one, and the rest. A mark without digits is no part of
the number. -/
def splitExponent : List Char → Option Int × List Char
  | [] => (none, [])
  | mark :: rest =>
    let (negative, unsigned) := Binary64.splitSign rest
    let (digits, after) := Binary64.splitDigits unsigned
    if (mark = 'e' ∨ mark = 'E') ∧ !digits.isEmpty then
      (some (Binary64.signed negative (naturalOfDigits digits)), after)
    else (none, mark :: rest)

/-- The value of a number with a given integer part and, in a double, a fraction and an exponent. -/
def numberOf (negative : Bool) (whole fraction : List Char) (exponent : Option Int) :
    Except ReadError Json :=
  if fraction.isEmpty && exponent.isNone then
    if maxDigits < whole.length then .error .tooManyDigits
    else .ok (ofInt (Binary64.signed negative (naturalOfDigits whole)))
  else
    .ok (ofDouble (.ofDecimal negative (naturalOfDigits (whole ++ fraction))
      (exponent.getD 0 - fraction.length)))

/-- **Reading a number**: a sign, an integer part, and with a fraction or an exponent a double. It
is read as far as it goes, and only then there must be nothing after it. -/
def readNumber (cs : List Char) : Except ReadError Json := do
  let (negative, unsigned) := match cs with
    | '-' :: rest => (true, rest)
    | rest => (false, rest)
  let (whole, rest) := splitWhole unsigned
  if whole.isEmpty then throw .malformed
  let (fraction, rest) := splitFraction rest
  let (exponent, rest) := splitExponent rest
  let value ← numberOf negative whole fraction exponent
  if rest.isEmpty then return value else throw .malformed

/-- Reading a word: a named scalar or a number. -/
def readWord (cs : List Char) : Except ReadError Json :=
  let word := String.ofList cs
  if word = "null" then .ok .null
  else if word = "true" then .ok (.bool true)
  else if word = "false" then .ok (.bool false)
  else if word = "NaN" then .ok (ofDouble .nan)
  else if word = "Infinity" then .ok (ofDouble (.infinite false))
  else if word = "-Infinity" then .ok (ofDouble (.infinite true))
  else readNumber cs

/-- The character that a backslash and a letter write. -/
def escaped? : Char → Option Char
  | '"' => some '"'
  | '\\' => some '\\'
  | '/' => some '/'
  | 'b' => some '\x08'
  | 'f' => some '\x0c'
  | 'n' => some '\n'
  | 'r' => some '\r'
  | 't' => some '\t'
  | _ => none

/-! ### The machine -/

/-- The token that is being gathered: none, a word, or a string, possibly within an escape. The
gathered part is held with its end first. -/
inductive Lexeme where
  | none
  | word (cs : List Char)
  | text (points : List Nat)
  | escape (points : List Nat)
  | code (points : List Nat) (value digits : Nat)

/-- The state of the machine; whether a string so far had half of a pair alone is remembered. -/
structure Machine where
  lexeme : Lexeme := .none
  parser : Parser := {}
  halved : Bool := false

/-- Whether a character may separate tokens. -/
def isSeparator (c : Char) : Bool := c == ' ' || c == '\t' || c == '\n' || c == '\r'

/-- Whether a character may be part of a word. -/
def isWordChar (c : Char) : Bool := c.isAlphanum || c == '+' || c == '-' || c == '.'

/-- Hands a token to the structural part. -/
def Parser.take (p : Parser) (token : Token) : Except ReadError Parser :=
  match p.accept token with
  | some next => .ok next
  | none => .error .malformed

/-- Hands the word gathered so far to the structural part. -/
def Parser.takeWord (p : Parser) (gathered : List Char) : Except ReadError Parser := do
  -- where no value may come, the word is not looked at
  unless p.expected = .value ∨ p.expected = .valueOrClose do throw .malformed
  p.take (.scalar (← readWord gathered.reverse))

/-- One character outside a string. -/
def stepBetween (p : Parser) (halved : Bool) (c : Char) : Except ReadError Machine :=
  let token (t : Token) : Except ReadError Machine := do return ⟨.none, ← p.take t, halved⟩
  if isSeparator c then .ok ⟨.none, p, halved⟩
  else if isWordChar c then .ok ⟨.word [c], p, halved⟩
  else match c with
    | '"' => .ok ⟨.text [], p, halved⟩
    | '\x7b' => token .openObject
    | '\x7d' => token .closeObject
    | '[' => token .openArray
    | ']' => token .closeArray
    | ',' => token .comma
    | ':' => token .colon
    | _ => .error .malformed

/-- **One character.** -/
def Machine.step (m : Machine) (c : Char) : Except ReadError Machine :=
  match m.lexeme with
  | .none => stepBetween m.parser m.halved c
  | .word cs =>
    if isWordChar c then .ok { m with lexeme := .word (c :: cs) }
    else do stepBetween (← m.parser.takeWord cs) m.halved c
  | .text points =>
    if c = '"' then do
      let points := joinHalves points.reverse
      return ⟨.none, ← m.parser.take (.string (ofPoints points)), m.halved || points.any isHalf⟩
    else if c = '\\' then .ok { m with lexeme := .escape points }
    else if c.toNat < 0x20 then .error .malformed
    else .ok { m with lexeme := .text (c.toNat :: points) }
  | .escape points =>
    if c = 'u' then .ok { m with lexeme := .code points 0 0 }
    else match escaped? c with
      | some e => .ok { m with lexeme := .text (e.toNat :: points) }
      | none => .error .malformed
  | .code points value digits =>
    match hexValue? c with
    | some h =>
      let value := 16 * value + h
      if digits = 3 then .ok { m with lexeme := .text (value :: points) }
      else .ok { m with lexeme := .code points value (digits + 1) }
    | none => .error .malformed

/-- The value when the text ends. -/
def Machine.finish (m : Machine) : Except ReadError Json := do
  let parser ← match m.lexeme with
    | .none => pure m.parser
    | .word cs => m.parser.takeWord cs
    | _ => throw .malformed
  unless parser.expected = .nothing do throw .malformed
  if m.halved then throw .loneHalf else return parser.result

/-- **Reading a JSON text.** -/
def read (text : String) : Except ReadError Json :=
  text.toList.foldlM Machine.step {} >>= Machine.finish

end Mockup.Json
