import Mockup.Number.Decimal
import Mockup.Text.Character

/-!
# Numbers written as text

A measurement may arrive as a text. The text may have blanks around it, digits of any script, single
underscores between digits, and may name infinity or the absence of a number.

* `Binary64.ofNumeral?` — a plain numeral: sign, digits, point, exponent;
* `Binary64.ofText?` — a numeral in any of the freer forms above.
-/

namespace Mockup.Binary64

open Text

/-- Splits off a sign; a number without one is positive. -/
def splitSign : List Char → Bool × List Char
  | '-' :: rest => (true, rest)
  | '+' :: rest => (false, rest)
  | cs => (false, cs)

/-- Splits off the plain digits at the front. -/
def splitDigits (cs : List Char) : List Char × List Char :=
  (cs.takeWhile isAsciiDigit, cs.dropWhile isAsciiDigit)

/-- The exponent after the digits of a numeral: none at all, or a mark and an integer. -/
def exponentOf? : List Char → Option Int
  | [] => some 0
  | mark :: rest =>
    let (negative, unsigned) := splitSign rest
    if (mark = 'e' ∨ mark = 'E') ∧ unsigned ≠ [] ∧ unsigned.all isAsciiDigit then
      some (signed negative (naturalOfDigits unsigned))
    else none

/-- The names of the values that have no digits. -/
def named? (negative : Bool) (cs : List Char) : Option Binary64 :=
  let name := String.ofList (cs.map Char.toLower)
  if name = "inf" ∨ name = "infinity" then some (.infinite negative)
  else if name = "nan" then some .nan
  else none

/-- **Reading a numeral**: digits with a point before, among or after them, and an exponent. -/
def unsignedNumeral? (negative : Bool) (cs : List Char) : Option Binary64 := do
  let (whole, rest) := splitDigits cs
  let (fraction, rest) := match rest with
    | '.' :: rest => splitDigits rest
    | rest => ([], rest)
  guard (whole ++ fraction ≠ [])
  let exponent ← exponentOf? rest
  return ofDecimal negative (naturalOfDigits (whole ++ fraction)) (exponent - fraction.length)

/-- Reading a numeral with its sign, or a name. -/
def ofNumeral? (cs : List Char) : Option Binary64 :=
  let (negative, rest) := splitSign cs
  named? negative rest <|> unsignedNumeral? negative rest

/-- Whether a character is a blank around a number: a layout control, the space, or a blank beyond
ASCII. -/
def isMargin (c : Char) : Bool := (c.toNat < 0x1c || 0x1f < c.toNat) && isBlank c

/-- The plain digit for a digit of any script; other characters stay. -/
def plainDigit (c : Char) : Char :=
  match digitValue? c with
  | some value => asciiDigit value
  | none => c

/-- Leaves out underscores that stand between two digits and refuses any other; `before` is the
character in front of the text. -/
def joinGroups? (before : Char) : List Char → Option (List Char)
  | [] => some []
  | '_' :: next :: rest =>
    if isAsciiDigit before ∧ isAsciiDigit next then (joinGroups? next rest).map (next :: ·)
    else none
  | c :: rest => if c = '_' then none else (joinGroups? c rest).map (c :: ·)

/-- **Reading a text as a number.** -/
def ofText? (text : String) : Option Binary64 :=
  joinGroups? ' ' ((trimBoth isMargin text.toList).map plainDigit) >>= ofNumeral?

end Mockup.Binary64
