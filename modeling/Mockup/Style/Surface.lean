import Mockup.Design.Paint
import Mockup.Number.Angle
import Mockup.Style.Figure

/-!
# Surfaces: colours, backgrounds, borders and shadows

The values that the paints and effects of a node give to its rule.

* `Style.rgba` — a colour;
* `Style.topmostVisible` — of a stack of paints, the one that is drawn;
* `Style.background`, `Style.border` — the background and the border of a node;
* `Style.gradientAngle`, `Style.linearGradient` — a gradient from the points it runs along;
* `Style.shadow`, `Style.boxShadow` — one shadow, and all shadows of a node.
-/

namespace Mockup.Style

/-! ### Colours -/

/-- A colour channel from zero to one as an integer up to 255. -/
def channel (j : Json) : Result Int := scaled 255 j

/-- The opacity of a colour: the one given beside it, or its own, or full. -/
def alpha (color : Color) (opacity : Json) : Json :=
  (opacity.orDefault color.a).orDefault (.ofInt 1)

/-- **A colour value**; the absence of a colour is transparent. -/
def rgba (color : Option Color) (opacity : Json) : Result String :=
  match color with
  | none => .ok "transparent"
  | some color => do
    let r ← channel color.r
    let g ← channel color.g
    let b ← channel color.b
    let a ← number (alpha color opacity)
    return "rgba(" ++ integerNumeral r ++ ", " ++ integerNumeral g ++ ", " ++ integerNumeral b
      ++ ", " ++ a ++ ")"

/-! ### Paints -/

/-- **The paint that is drawn**: a stack is listed from the bottom to the top, and hidden paints do
not count. -/
def topmostVisible (paints : Option (List Paint)) : Option Paint :=
  ((paints.getD []).filter (·.visible)).getLast?

/-- The right angle by which a stylesheet turns its gradients: it measures angles from the vertical,
a document from the horizontal. -/
def rightAngle : Binary64 := .ofRatio false 90 1

/-- **The angle of a gradient** between two points, as a stylesheet measures it. -/
def gradientAngle (start finish : Vector) : Result Binary64 := do
  let rise ← difference finish.y start.y
  let run ← difference finish.x start.x
  let rise ← orFault .outOfRange rise.toDouble?
  let run ← orFault .outOfRange run.toDouble?
  return (Angle.degrees rise run).add rightAngle

/-- A stop of a gradient. -/
def stop (s : Stop) : Result String := do
  let color ← rgba (some s.color) .null
  let place ← scaled 100 s.position
  return color ++ " " ++ integerNumeral place ++ "%"

/-- **A linear gradient.** It needs two points to run along and at least one stop. -/
def linearGradient (handles : List Vector) (stops : List Stop) : Result (Option String) :=
  match handles, stops with
  | start :: finish :: _, _ :: _ => do
    let angle ← gradientAngle start finish
    let stops ← stops.mapM stop
    return some ("linear-gradient(" ++ figure angle ++ "deg, " ++ ", ".intercalate stops ++ ")")
  | _, _ => .ok none

/-- The gradient of a fill, for the fills that have points and stops. -/
def gradientOf (fill : Fill) : Result (Option String) :=
  match fill with
  | .linear handles stops | .radial handles stops => linearGradient handles stops
  | _ => .error .absentMember

/-- What stands for an image. -/
def imagePlaceholder : String := "#d9d9d9"

/-- The background that one paint gives; radial gradients and unknown paints give none. -/
def paintValue (paint : Paint) : Result (Option String) :=
  match paint.fill with
  | .solid color => some <$> rgba (some color) paint.opacity
  | .linear handles stops => linearGradient handles stops
  | .image .. => .ok (some imagePlaceholder)
  | .radial .. | .unknown _ => .ok none

/-- **The background of a stack of fills**: that of the topmost visible one. -/
def background (fills : Option (List Paint)) : Result (Option String) :=
  match topmostVisible fills with
  | some paint => paintValue paint
  | none => .ok none

/-- **The border of a stack of strokes**: a positive weight in the colour of the topmost visible
stroke, when that is a plain colour. -/
def border (strokes : Option (List Paint)) (weight : Json) : Result (Option String) := do
  unless weight.truthy do return none
  if (← weight.operand).lt (.whole 0) then return none
  match topmostVisible strokes with
  | some ⟨.solid color, _, opacity⟩ =>
    let width ← pixels weight
    let color ← rgba (some color) opacity
    return some (width ++ " solid " ++ color)
  | _ => return none

/-! ### Shadows -/

/-- **A shadow**; effects that are no shadows have no place to fall. -/
def shadow (effect : Effect) : Result String :=
  match effect.glow with
  | .shadow inset radius offset spread color => do
    let x ← pixels offset.x
    let y ← pixels offset.y
    let radius ← pixels radius
    let spread ← pixels spread
    let color ← rgba (some color) .null
    return (if inset then "inset " else "") ++ " ".intercalate [x, y, radius, spread, color]
  | _ => .error .absentMember

/-- Whether an effect is a shadow that is shown. -/
def isVisibleShadow (effect : Effect) : Bool :=
  match effect.glow with
  | .shadow .. => effect.visible
  | _ => false

/-- **The shadows of a node**: all that are shown, in order. -/
def boxShadow (effects : Option (List Effect)) : Result (Option String) := do
  match ← ((effects.getD []).filter isVisibleShadow).mapM shadow with
  | [] => return none
  | shadows => return some (", ".intercalate shadows)

end Mockup.Style
