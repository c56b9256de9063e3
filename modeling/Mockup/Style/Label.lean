import Mockup.Design.Node
import Mockup.Style.Surface

/-!
# Labels: type face and colour of text

* `Style.typography` — the declarations that the style of a label gives;
* `Style.textColor` — the colour of a label.
-/

namespace Mockup.Style

/-- The word for a horizontal alignment of text. -/
def textAlignment? : String → Option String
  | "LEFT" => some "left"
  | "RIGHT" => some "right"
  | "CENTER" => some "center"
  | "JUSTIFIED" => some "justify"
  | _ => none

/-- A declaration of a value that counts as given, and no declaration otherwise. -/
def ifTruthy (j : Json) (property : String) (value : Json → Result String) :
    Result (List (String × String)) :=
  if j.truthy then return [(property, ← value j)] else .ok []

/-- A declaration of a value that is not `null`, and no declaration otherwise. -/
def ifPresent (j : Json) (property : String) (value : Json → Result String) :
    Result (List (String × String)) :=
  if j.isNull then .ok [] else return [(property, ← value j)]

/-- A value as a percentage. -/
def percent (j : Json) : Result String := return (← number j) ++ "%"

/-- The family of a label in quotes, with the fallback. -/
def fontFamily (j : Json) : String := "'" ++ j.plain ++ "', sans-serif"

/-- The line height of a label; one in pixels wins over one in percent. -/
def lineHeight (style : TextStyle) : Result (List (String × String)) :=
  if style.lineHeightPx.truthy then ifTruthy style.lineHeightPx "line-height" pixels
  else ifTruthy style.lineHeightPercent "line-height" percent

/-- **The declarations of a label's style.** -/
def typography (style : Option TextStyle) : Result (List (String × String)) :=
  match style with
  | none => .ok []
  | some style => do
    let family ← ifTruthy style.fontFamily "font-family" (.ok ∘ fontFamily)
    let size ← ifPresent style.fontSize "font-size" pixels
    let weight ← ifPresent style.fontWeight "font-weight" number
    let lineHeight ← lineHeight style
    let spacing ← ifTruthy style.letterSpacing "letter-spacing" pixels
    let alignment ← (style.alignHorizontal.orElse (.str "")).keyword
    let alignment := (alignment.bind textAlignment?).toList.map ("text-align", ·)
    return family ++ size ++ weight ++ lineHeight ++ spacing ++ alignment

/-- The plain colour of a paint that is shown. -/
def visibleSolid? (paint : Paint) : Option (Color × Json) :=
  match paint with
  | ⟨.solid color, true, opacity⟩ => some (color, opacity)
  | _ => none

/-- **The colour of a label**: that of its first visible plain fill. -/
def textColor (fills : Option (List Paint)) : Result (Option String) :=
  match (fills.getD []).findSome? visibleSolid? with
  | some (color, opacity) => some <$> rgba (some color) opacity
  | none => .ok none

end Mockup.Style
