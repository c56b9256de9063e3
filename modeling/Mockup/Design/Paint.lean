import Mockup.Design.Color
import Mockup.Json.Plain

/-!
# Paints and effects

What the surface of a node is painted with, and the shadows and blurs around it. Each variant has
only the parts that make sense for it; a variant that is not known is kept as its name, so that it
still takes its place in a stack.

* `Fill`, `Paint` — the variants of paint, and a paint with its visibility and opacity;
* `Glow`, `Effect` — the variants of effect, and an effect with its visibility;
* `Paint.ofJson`, `Effect.ofJson` — reading them.
-/

namespace Mockup

/-- The variants of paint. A gradient has the points it runs along and its stops. -/
inductive Fill where
  | solid (color : Color)
  | linear (handles : List Vector) (stops : List Stop)
  | radial (handles : List Vector) (stops : List Stop)
  | image (reference scaleMode : Json)
  | unknown (name : String)

/-- **A paint.** -/
structure Paint where
  fill : Fill
  visible : Bool := true
  opacity : Json := .null

/-- The variants of effect. A shadow is cast outside a node or, when it is inset, inside it. -/
inductive Glow where
  | shadow (inset : Bool) (radius : Json) (offset : Vector) (spread : Json) (color : Color)
  | blur (background : Bool) (radius : Json)
  | unknown (name : String)

/-- **An effect.** -/
structure Effect where
  glow : Glow
  visible : Bool := true

/-- Whether a value is shown: only `false` hides it. -/
def visibleIn (j : Json) : Result Bool := do
  match ← j.member "visible" with
  | .bool false => return false
  | _ => return true

/-- The points and stops of a gradient. -/
def gradientOfJson (make : List Vector → List Stop → Fill) (j : Json) : Result Fill :=
  return make (← (← j.member "gradientHandlePositions").mapEntries Vector.ofJson)
    (← (← j.member "gradientStops").mapEntries Stop.ofJson)

/-- Reading the variant of a paint of a given type. -/
def Fill.ofJson (type j : Json) : Result Fill :=
  if type.isText "SOLID" then return .solid (← Color.ofJson (← j.member "color"))
  else if type.isText "GRADIENT_LINEAR" then gradientOfJson .linear j
  else if type.isText "GRADIENT_RADIAL" then gradientOfJson .radial j
  else if type.isText "IMAGE" then return .image (← j.member "imageRef") (← j.member "scaleMode")
  else .ok (.unknown type.plain)

/-- **Reading a paint.** -/
def Paint.ofJson (j : Json) : Result Paint := do
  let type ← j.member "type"
  let visible ← visibleIn j
  let opacity ← j.member "opacity"
  return ⟨← Fill.ofJson type j, visible, opacity⟩

/-- Reading a shadow. -/
def shadowOfJson (inset : Bool) (radius j : Json) : Result Glow :=
  return .shadow inset radius (← Vector.ofJson (← j.member "offset")) (← j.part "spread" .zero)
    (← Color.ofJson (← j.member "color"))

/-- Reading the variant of an effect of a given type. -/
def Glow.ofJson (type radius j : Json) : Result Glow :=
  if type.isText "DROP_SHADOW" then shadowOfJson false radius j
  else if type.isText "INNER_SHADOW" then shadowOfJson true radius j
  else if type.isText "LAYER_BLUR" then .ok (.blur false radius)
  else if type.isText "BACKGROUND_BLUR" then .ok (.blur true radius)
  else .ok (.unknown type.plain)

/-- **Reading an effect.** -/
def Effect.ofJson (j : Json) : Result Effect := do
  let type ← j.member "type"
  let visible ← visibleIn j
  let radius ← j.part "radius" .zero
  return ⟨← Glow.ofJson type radius j, visible⟩

end Mockup
