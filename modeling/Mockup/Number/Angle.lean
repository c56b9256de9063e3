import Mockup.Number.Binary64

/-!
# The angle of a direction

A gradient runs from one point to another; its angle is that of the vector between them. The angle
is computed in fixed point, with `2 ^ 192` parts to the unit, by Euler's series

`arctan t = ∑ₙ (2 · 4 ⋯ 2n) / (3 · 5 ⋯ (2n + 1)) · t ^ (2n + 1) / (1 + t ^ 2) ^ (n + 1)`,

whose terms at least halve from one to the next when `0 ≤ t ≤ 1`, and is then rounded to a double
once. An angle below one part counts as zero: a right angle is added to every angle that is used, and
beside that such an angle has no weight.

* `Angle.arctan` — the angle of a slope between zero and one, in fixed point;
* `Angle.radians` — the angle of a vector, between `-π` and `π`;
* `Angle.degrees` — the same in degrees.
-/

namespace Mockup.Angle

/-- The number of fixed-point parts in one. -/
def scale : Nat := Nat.pow 2 192

/-- The sum of `remaining` terms of the series from the given `n`-th term on, for a squared slope
`num / (den - num)`. -/
def series (num den : Nat) : (remaining n term : Nat) → Nat
  | 0, _, _ => 0
  | remaining + 1, n, term =>
    term + series num den remaining (n + 1) (term * (2 * n + 2) * num / ((2 * n + 3) * den))

/-- **The arc tangent** of `rise / run` in fixed point, for `rise ≤ run` and a positive `run`. The
two hundredth term is below one part. -/
def arctan (rise run : Nat) : Nat :=
  let den := rise * rise + run * run
  series (rise * rise) den 200 0 (scale * rise * run / den)

/-- A quarter of the circle constant in fixed point: the angle of the diagonal. -/
def quarterPi : Nat := arctan 1 1

/-- The angle between a vector and the nearer half of the horizontal axis through it, in fixed
point. -/
def elevation (rise run : Nat) : Nat :=
  if rise = 0 then 0
  else if rise ≤ run then arctan rise run
  else 2 * quarterPi - arctan run rise

/-- The angle of a vector given by signs and lengths, the signs counting also for lengths
of zero. -/
def ofLengths (down left : Bool) (rise run : Nat) : Binary64 :=
  let above := elevation rise run
  .ofRatio down (if left then 4 * quarterPi - above else above) scale

/-- Beside an infinite coordinate a finite one counts as zero, and the infinite ones as equal. -/
def atInfinity : Binary64 → Option (Bool × Nat)
  | .finite negative _ _ => some (negative, 0)
  | .infinite negative => some (negative, 1)
  | .nan => none

/-- **The angle of the vector** `(x, y)` in radians. -/
def radians (y x : Binary64) : Binary64 :=
  match y, x with
  | .finite down rise _, .finite left run _ => ofLengths down left rise run
  | y, x =>
    match atInfinity y, atInfinity x with
    | some (down, rise), some (left, run) => ofLengths down left rise run
    | _, _ => .nan

/-- The double nearest to the circle constant. -/
def pi : Binary64 := .ofRatio false (4 * quarterPi) scale

/-- The degrees in one radian: 180 divided by the double `pi`. -/
def degreesPerRadian : Binary64 :=
  match pi with
  | .finite _ n _ => .ofRatio false (180 * Binary64.unit) n
  | x => x

/-- **The angle of the vector** `(x, y)` in degrees. -/
def degrees (y x : Binary64) : Binary64 := (radians y x).mul degreesPerRadian

end Mockup.Angle
