import Mockup.Number.Binary64

/-!
# Decimal numerals and doubles

A decimal numeral `± d · 10 ^ e` is read as the double nearest to it, and a double is written with
the fewest decimal digits that read back as the same double.

* `Binary64.ofDecimal` — reading;
* `Binary64.shortest` — the fewest digits, of several choices the nearest, a tie to the even digit;
* `Binary64.numeral` — the written form: positional for magnitudes from `10 ^ (-4)` up to `10 ^ 16`,
  with an exponent beyond, and with a fraction part even when the number is whole;
* `Binary64.wholeNumeral` — the written form of the integer part, exact at any size.
-/

namespace Mockup

/-- The decimal digits of a natural number. -/
def decimalDigits (n : Nat) : List Char := Nat.toDigits 10 n

/-- The most digits of an integer that is read from a text or told to whoever runs the program. -/
def maxDigits : Nat := 4300

/-- The decimal numeral of an integer. -/
def integerNumeral (z : Int) : String :=
  if z < 0 then "-" ++ toString z.natAbs else toString z.natAbs

namespace Binary64

/-- **Reading a decimal.** The double nearest to `± digits · 10 ^ exponent`. A magnitude of `10 ^
310` and more is beyond the range and one below `10 ^ (-330)` is nearest to zero, so powers of ten
are only computed between them. -/
def ofDecimal (negative : Bool) (digits : Nat) (exponent : Int) : Binary64 :=
  let magnitude := exponent + (toString digits).length
  if digits = 0 ∨ magnitude < -330 then ofQuanta negative 0
  else if 311 < magnitude then .infinite negative
  else if 0 ≤ exponent then ofRatio negative (digits * Nat.pow 10 exponent.toNat) 1
  else ofRatio negative digits (Nat.pow 10 (-exponent).toNat)

/-- The number of decimal digits before the point of `n` quanta, negative when zeros follow the
point: the `e` with `10 ^ (e - 1) ≤ n · 2 ^ (-1074) < 10 ^ e`, for a positive `n`. Multiplying by
`10 ^ 400` first makes the integer part positive without moving its digits. -/
def pointPosition (n : Nat) : Int :=
  (toString (n * Nat.pow 10 400 / unit)).length - 400

/-- The two neighbours of `n` quanta among the multiples of `10 ^ exponent`, as multiples, the
nearer first and of two equally near ones the even one. -/
def neighbours (n : Nat) (exponent : Int) : Nat × Nat :=
  let a := n * Nat.pow 10 (-exponent).toNat
  let b := unit * Nat.pow 10 exponent.toNat
  let below := a / b
  let near := divEven a b
  (near, if near = below then below + 1 else below)

/-- Searches the decimal grids of `places`, `places + 1`, … digits for a numeral that reads back as
`n` quanta, over `remaining` grids. A double is determined by 17 digits. -/
def shortestFrom (n : Nat) (point : Int) (places : Nat) : Nat → Nat × Int
  | 0 => (0, 0)
  | remaining + 1 =>
    let exponent := point - places
    let (near, far) := neighbours n exponent
    let back (digits : Nat) : Bool := ofDecimal false digits exponent = ofQuanta false n
    if back near then (near, exponent)
    else if back far then (far, exponent)
    else shortestFrom n point (places + 1) remaining

/-- **The shortest decimal** `(d, e)` with `d · 10 ^ e` reading back as `n` quanta, for a positive
representable `n`. -/
def shortest (n : Nat) : Nat × Int := shortestFrom n (pointPosition n) 1 17

/-- A list of digits without the zeros at its end. -/
def dropTrailingZeros (digits : List Char) : List Char :=
  (digits.reverse.dropWhile (· == '0')).reverse

/-- The digits of a decimal with a point put after the first `point` of them, filled up with zeros
on either side. -/
def positional (digits : List Char) (point : Int) : List Char :=
  if point ≤ 0 then '0' :: '.' :: (List.replicate (-point).toNat '0' ++ digits)
  else
    let before := digits.take point.toNat
    let after := digits.drop point.toNat
    before ++ List.replicate (point.toNat - before.length) '0'
      ++ '.' :: (if after.isEmpty then ['0'] else after)

/-- The digits of a decimal with the point after the first one and an exponent of at least two
digits. -/
def scientific (digits : List Char) (exponent : Int) : List Char :=
  let written := decimalDigits exponent.natAbs
  digits.take 1 ++ (if digits.length ≤ 1 then [] else '.' :: digits.drop 1)
    ++ 'e' :: (if exponent < 0 then '-' else '+')
    :: (List.replicate (2 - written.length) '0' ++ written)

/-- **The written form of a magnitude** of `n` quanta. -/
def magnitudeNumeral (n : Nat) : List Char :=
  if n = 0 then ['0', '.', '0']
  else
    let (value, exponent) := shortest n
    let written := decimalDigits value
    let digits := dropTrailingZeros written
    let point := exponent + written.length
    if -4 < point ∧ point ≤ 16 then positional digits point
    else scientific digits (point - 1)

/-- **The written form of a double.** -/
def numeral : Binary64 → String
  | .finite s n _ => String.ofList (if s then '-' :: magnitudeNumeral n else magnitudeNumeral n)
  | .infinite s => if s then "-inf" else "inf"
  | .nan => "nan"

/-- The numeral of the integer part, without an exponent and without a negative zero. -/
def wholeNumeral : Binary64 → String
  | .finite s n _ => integerNumeral (signed s (n / unit))
  | x => x.numeral

end Binary64

end Mockup
