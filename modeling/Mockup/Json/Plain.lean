import Mockup.Json.Access
import Mockup.Number.Decimal
import Mockup.Text.Printable

/-!
# The plain text of a value

Identifiers, variant names and font families are used as texts whatever kind of value the document
holds there. A text is its own plain text; `null`, truth values and numbers have their words and
numerals; a container is written with its entries, and the texts inside it are quoted.

* `Json.plain` — the plain text;
* `Json.quoted` — the written form inside a container;
* `Text.quote` — a text in quotes, the characters that are not printable escaped.
-/

namespace Mockup

namespace Text

/-- The hexadecimal digits of a number, filled up with zeros to a width. -/
def hexDigits (width n : Nat) : List Char :=
  let digits := Nat.toDigits 16 n
  List.replicate (width - digits.length) '0' ++ digits

/-- A character inside quotes. -/
def quoteChar (mark c : Char) : List Char :=
  if c = mark ∨ c = '\\' then ['\\', c]
  else if c = '\n' then ['\\', 'n']
  else if c = '\r' then ['\\', 'r']
  else if c = '\t' then ['\\', 't']
  else if isPrintable c then [c]
  else if c.toNat < 0x100 then '\\' :: 'x' :: hexDigits 2 c.toNat
  else if c.toNat < 0x10000 then '\\' :: 'u' :: hexDigits 4 c.toNat
  else '\\' :: 'U' :: hexDigits 8 c.toNat

/-- **A quoted text.** The quotes are single unless the text has single quotes and no
double ones. -/
def quote (text : String) : String :=
  let cs := text.toList
  let mark := if cs.contains '\'' && !cs.contains '"' then '"' else '\''
  String.ofList (mark :: cs.flatMap (quoteChar mark) ++ [mark])

end Text

/-- The numeral of a number: a double keeps its point. -/
def Number.numeral : Number → String
  | .whole z => integerNumeral z
  | .double x => x.numeral

namespace Json

mutual

/-- **The written form of a value inside a container.** -/
def quoted : Json → String
  | .null => "None"
  | .bool b => if b then "True" else "False"
  | .num n => n.numeral
  | .str s => Text.quote s
  | .arr items => "[" ++ ", ".intercalate (quotedItems items) ++ "]"
  | .obj fields => "\x7b" ++ ", ".intercalate (quotedFields fields) ++ "\x7d"

/-- The written forms of the items of an array. -/
def quotedItems : List Json → List String
  | [] => []
  | item :: rest => quoted item :: quotedItems rest

/-- The written forms of the fields of an object. -/
def quotedFields : List (String × Json) → List String
  | [] => []
  | (name, value) :: rest => (Text.quote name ++ ": " ++ quoted value) :: quotedFields rest

end

/-- **The plain text of a value.** -/
def plain : Json → String
  | .str s => s
  | j => j.quoted

@[simp] theorem plain_str (s : String) : plain (.str s) = s := rfl

end Json

end Mockup
