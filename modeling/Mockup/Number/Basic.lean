import Mockup.Number.Binary64

/-!
# Numbers as a document writes them

A document writes a number either as an integer, which is exact at any size, or with a point or an
exponent, which makes it a double. Arithmetic on two integers is exact; as soon as a double takes
part the other number is rounded to a double first, which fails for an integer beyond the range.

* `Number.toDouble?` — rounding to a double;
* `Number.sub?`, `Number.mul?` — arithmetic, `none` when an integer is too large to be rounded;
* `Number.lt` — the order, always exact.
-/

namespace Mockup

/-- **A number**: an exact integer or a double. -/
inductive Number where
  | whole (z : Int)
  | double (x : Binary64)
  deriving DecidableEq

namespace Number

/-- The number as a double, unless it is an integer beyond the range. -/
def toDouble? : Number → Option Binary64
  | .whole z => Binary64.ofInt? z
  | .double x => some x

/-- Whether the number is zero. -/
def isZero : Number → Bool
  | .whole z => z = 0
  | .double x => x.isZero

/-- An operation that is exact on integers and rounds them to doubles beside a double. -/
def combine? (onIntegers : Int → Int → Int) (onDoubles : Binary64 → Binary64 → Binary64) :
    Number → Number → Option Number
  | .whole a, .whole b => some (.whole (onIntegers a b))
  | a, b => return .double (onDoubles (← a.toDouble?) (← b.toDouble?))

/-- The difference. -/
def sub? : Number → Number → Option Number := combine? (· - ·) Binary64.sub

/-- The product. -/
def mul? : Number → Number → Option Number := combine? (· * ·) Binary64.mul

/-- Whether a number lies strictly below another, compared exactly. -/
def lt : Number → Number → Bool
  | .whole a, .whole b => a < b
  | .whole a, .double y => Binary64.intLt a y
  | .double x, .whole b => x.ltInt b
  | .double x, .double y => x.lt y

@[simp] theorem sub?_whole (a b : Int) : sub? (.whole a) (.whole b) = some (.whole (a - b)) := rfl

@[simp] theorem mul?_whole (a b : Int) : mul? (.whole a) (.whole b) = some (.whole (a * b)) := rfl

end Number

end Mockup
