/-!
# Double-precision numbers, exactly

A measurement in a design document is a double-precision binary number. A finite one is a whole
number of **quanta**, a quantum being the least positive double, `2 ^ (-1074)`, so sums and
comparisons of doubles are sums and comparisons of integers. What makes a count of quanta a double
is that it fits in 53 significant bits; `Binary64.finite` carries that as a proof, so every value of
the type is a double and every double is a value of the type.

Each operation computes the exact result and rounds it once, to the nearest double and a half to the
one with the even significand.

* `divEven` — a quotient of naturals to the nearest integer, a half to the even neighbour;
* `Binary64.nearest` — a quotient of naturals to the nearest count of quanta with 53 bits;
* `Binary64.ofRatio` — the double nearest to a ratio, infinite beyond the range;
* `Binary64.add`, `Binary64.mul`, `Binary64.sub` — arithmetic with signed zeros and infinities;
* `Binary64.floor?`, `Binary64.roundPlaces` — the integer below, and rounding to decimal places.
-/

namespace Mockup

/-- **Rounded quotient.** `a / b` to the nearest integer, a half going to the even neighbour. -/
def divEven (a b : Nat) : Nat :=
  let quotient := a / b
  let rest := a % b
  if 2 * rest < b then quotient
  else if b < 2 * rest then quotient + 1
  else quotient + quotient % 2

namespace Binary64

/-- The distance, in quanta, between neighbouring doubles around a count of `n` quanta. -/
def spacing (n : Nat) : Nat := Nat.pow 2 (n.log2 - 52)

/-- The number of quanta in one. -/
def unit : Nat := Nat.pow 2 1074

/-- The count of quanta at which the doubles end, `2 ^ 1024`. -/
def limit : Nat := Nat.pow 2 2098

/-- **Representable counts.** A count of quanta is a double when its spacing divides it, which says
that it has at most 53 significant bits, and it lies in the range. -/
def Representable (n : Nat) : Prop := n % spacing n = 0 ∧ n < limit

instance (n : Nat) : Decidable (Representable n) := by
  unfold Representable; infer_instance

end Binary64

/-- **A double-precision number.** A finite one has a sign, also when it is zero, and a
representable count of quanta. -/
inductive Binary64 where
  | finite (negative : Bool) (quanta : Nat) (representable : Binary64.Representable quanta)
  | infinite (negative : Bool)
  | nan
  deriving DecidableEq

namespace Binary64

theorem representable_zero : Representable 0 :=
  ⟨Nat.zero_mod _, by decide +kernel⟩

/-- Positive zero. -/
def zero : Binary64 := .finite false 0 representable_zero

instance : Inhabited Binary64 := ⟨zero⟩

/-! ### Rounding -/

/-- **The nearest count of quanta** to the ratio `a / b` of counts, with at most 53 significant
bits. The integer part of the ratio has the binade of the ratio, and so gives the spacing. -/
def nearest (a b : Nat) : Nat :=
  let gap := spacing (a / b)
  divEven a (b * gap) * gap

/-- The double with a given sign and count of quanta; a count past the range is infinite. -/
def ofQuanta (negative : Bool) (n : Nat) : Binary64 :=
  if h : Representable n then .finite negative n h else .infinite negative

/-- **The double nearest to a ratio** `± a / b` of naturals. -/
def ofRatio (negative : Bool) (a b : Nat) : Binary64 :=
  ofQuanta negative (nearest (a * unit) b)

/-- The double itself, unless it is infinite. -/
def unlessInfinite? : Binary64 → Option Binary64
  | .infinite _ => none
  | x => some x

/-- The double nearest to an integer, unless the integer lies beyond the range. -/
def ofInt? (z : Int) : Option Binary64 := (ofRatio (z < 0) z.natAbs 1).unlessInfinite?

/-! ### Arithmetic -/

/-- The other sign. -/
def neg : Binary64 → Binary64
  | .finite s n h => .finite (!s) n h
  | .infinite s => .infinite (!s)
  | .nan => .nan

/-- A count of quanta with its sign. -/
def signed (negative : Bool) (n : Nat) : Int := if negative then -n else n

/-- The sum. Opposite numbers add up to positive zero; negative zero is a sum of negative zeros
only. -/
def add : Binary64 → Binary64 → Binary64
  | .finite s m _, .finite t n _ =>
    let total := signed s m + signed t n
    if total = 0 then ofQuanta (s && t) 0 else ofQuanta (total < 0) (nearest total.natAbs 1)
  | .infinite s, .infinite t => if s = t then .infinite s else .nan
  | .infinite s, .finite .. => .infinite s
  | .finite .., .infinite t => .infinite t
  | _, _ => .nan

/-- The difference. -/
def sub (x y : Binary64) : Binary64 := x.add y.neg

/-- The product. The sign of a zero product is that of its factors. -/
def mul : Binary64 → Binary64 → Binary64
  | .finite s m _, .finite t n _ => ofQuanta (s != t) (nearest (m * n) unit)
  | .infinite s, .infinite t => .infinite (s != t)
  | .infinite s, .finite t n _ => if n = 0 then .nan else .infinite (s != t)
  | .finite s m _, .infinite t => if m = 0 then .nan else .infinite (s != t)
  | _, _ => .nan

/-! ### Order and integers -/

/-- Whether a double is zero of either sign. -/
def isZero : Binary64 → Bool
  | .finite _ n _ => n = 0
  | _ => false

/-- Whether a double lies strictly below another. Nothing is below or above `nan`. -/
def lt : Binary64 → Binary64 → Bool
  | .finite s m _, .finite t n _ => signed s m < signed t n
  | .infinite s, .infinite t => s && !t
  | .infinite s, .finite .. => s
  | .finite .., .infinite t => !t
  | _, _ => false

/-- Whether a double lies strictly below an integer, compared exactly. -/
def ltInt : Binary64 → Int → Bool
  | .finite s n _, z => signed s n < z * unit
  | .infinite s, _ => s
  | .nan, _ => false

/-- Whether an integer lies strictly below a double, compared exactly. -/
def intLt : Int → Binary64 → Bool
  | z, .finite s n _ => z * unit < signed s n
  | _, .infinite s => !s
  | _, .nan => false

/-- Whether a double is a whole number. -/
def isWhole : Binary64 → Bool
  | .finite _ n _ => n % unit = 0
  | _ => false

/-- **The integer below.** The greatest integer that is not above a finite double. -/
def floor? : Binary64 → Option Int
  | .finite s n _ => some (signed s n / unit)
  | _ => none

/-- **Rounding to decimal places.** The exact value goes to the nearest multiple of
`10 ^ (-places)`, a half to the even one, and that to the nearest double. -/
def roundPlaces (places : Nat) : Binary64 → Binary64
  | .finite s n _ => ofRatio s (divEven (n * Nat.pow 10 places) unit) (Nat.pow 10 places)
  | x => x

end Binary64

end Mockup
