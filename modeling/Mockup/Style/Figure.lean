import Mockup.Json.Access
import Mockup.Number.Decimal

/-!
# Figures in a stylesheet

How the numbers of a document are written in a stylesheet: rounded to four decimals, without a
fraction when they are whole and without an exponent, and colour channels and percentages rounded to
integers.

* `Style.figure` — a double as a figure;
* `Style.number`, `Style.pixels` — a value of the document as a figure and as a length;
* `Style.halfUp` — the nearest integer, a half going up.
-/

namespace Mockup.Style

/-- **A figure**: rounded to four decimals, a whole number without its fraction. -/
def figure (x : Binary64) : String :=
  let rounded := x.roundPlaces 4
  if rounded.isWhole then rounded.wholeNumeral else rounded.numeral

/-- **A value as a figure.** -/
def number (j : Json) : Result String := return figure (← j.toDouble)

/-- **A value as a length** in pixels. -/
def pixels (j : Json) : Result String := return (← number j) ++ "px"

/-- The double one half. -/
def half : Binary64 := .ofRatio false 1 2

/-- The integer below a double. What is infinite or no number has no integer below it. -/
def integerBelow : Binary64 → Result Int
  | .nan => .error .badValue
  | x => orFault .outOfRange x.floor?

/-- **Rounding half up**: the integer below the sum, as a double, of a number and one half. -/
def halfUp (n : Number) : Result Int := do
  let x ← orFault .outOfRange n.toDouble?
  integerBelow (x.add half)

/-- A value times a whole factor, rounded half up. -/
def scaled (factor : Int) (j : Json) : Result Int := do
  halfUp (← orFault .outOfRange ((← j.operand).mul? (.whole factor)))

/-- The difference of two values. -/
def difference (a b : Json) : Result Number := do
  orFault .outOfRange ((← a.operand).sub? (← b.operand))

end Mockup.Style
