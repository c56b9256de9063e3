import Mockup.Json.Access

/-!
# Colours and positions

The small values that paints, effects and nodes are made of. A document may leave out any part of
them, or give `null` for it, and then the part has its standing value; anything else that it gives
is kept as it is and looked at only when it is drawn.

* `Color`, `Vector`, `Box`, `Stop` — a colour, a point, a rectangle and a stop of a gradient;
* `Color.ofJson`, `Vector.ofJson`, `Box.ofJson?`, `Stop.ofJson` — reading them.
-/

namespace Mockup

namespace Json

/-- The number zero as a part that is left out. -/
def zero : Json := .ofDouble .zero

/-- The number one as a part that is left out. -/
def one : Json := .ofDouble (.ofRatio false 1 1)

/-- A part of a value: the field of a given name, or a standing value where it is absent
or `null`. -/
def part (j : Json) (name : String) (default : Json) : Result Json :=
  return (← j.member name).orDefault default

/-- Reads each entry of a container; a container that does not count as given has none. -/
def mapEntries {α : Type} (f : Json → Result α) (j : Json) : Result (List α) :=
  if j.truthy then do (← j.entries).mapM f else .ok []

/-- Reads each entry that is not `null` of a container; in place of `null` there is no list. -/
def mapGiven? {α : Type} (f : Json → Result α) : Json → Result (Option (List α))
  | .null => .ok none
  | j => do return some (← ((← j.entries).filter (!·.isNull)).mapM f)

end Json

/-- **A colour**: red, green, blue and opacity, normally numbers from zero to one. -/
structure Color where
  r : Json := .zero
  g : Json := .zero
  b : Json := .zero
  a : Json := .one

/-- Reading a colour. -/
def Color.ofJson (j : Json) : Result Color :=
  if j.truthy then
    return ⟨← j.part "r" .zero, ← j.part "g" .zero, ← j.part "b" .zero, ← j.part "a" .one⟩
  else .ok {}

/-- Reading a colour that may be missing: in place of `null` there is none. -/
def Color.ofJson? (j : Json) : Result (Option Color) :=
  if j.isNull then .ok none else some <$> Color.ofJson j

/-- **A point**, or the vector to it. -/
structure Vector where
  x : Json := .zero
  y : Json := .zero

/-- Reading a point. -/
def Vector.ofJson (j : Json) : Result Vector :=
  if j.truthy then return ⟨← j.part "x" .zero, ← j.part "y" .zero⟩ else .ok {}

/-- **A rectangle** in the coordinates of the whole document. -/
structure Box where
  x : Json
  y : Json
  width : Json
  height : Json

/-- Reading a rectangle; a value that does not count as given is none. -/
def Box.ofJson? (j : Json) : Result (Option Box) :=
  if j.truthy then
    return some ⟨← j.part "x" .zero, ← j.part "y" .zero, ← j.part "width" .zero,
      ← j.part "height" .zero⟩
  else .ok none

/-- **A stop of a gradient**: a colour and its place along the gradient. -/
structure Stop where
  position : Json := .zero
  color : Color := {}

/-- Reading a stop. -/
def Stop.ofJson (j : Json) : Result Stop :=
  if j.truthy then return ⟨← j.part "position" .zero, ← Color.ofJson (← j.member "color")⟩
  else .ok {}

end Mockup
