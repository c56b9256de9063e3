import Mockup.Proofs.Outcome
import Mockup.Style.Label

/-!
# What is drawn of a stack of paints

A node has stacks of paints, listed from the bottom to the top. Its background and its border come
from the paint at the top of what is shown, and from no other: what is below it or hidden is neither
drawn nor looked at, even where it could not be drawn at all. The colour of a label comes from the
other end, from the first plain paint that is shown.

* `Style.topmostVisible_append` — **a stack on a stack**: which of the two decides;
* `Fill.IsBlank`, `Style.paintValue_eq_none_iff` — the fills that give no background;
* `Style.IsWeight`, `Style.border_eq_none_iff` — when strokes give no border;
* `Style.textColor_of_first` — the paint that gives a label its colour;
* `Style.stack_decided` — **one paint decides for the whole stack.**
-/

namespace Mockup

/-- **Fills that give no background**: a radial gradient, an unknown paint, and a linear gradient that
lacks one of its two points or has no stop. -/
def Fill.IsBlank : Fill → Prop
  | .radial .. | .unknown _ => True
  | .linear handles stops => handles.length < 2 ∨ stops = []
  | .solid _ | .image .. => False

/-- Whether a fill is a plain colour. -/
def Fill.IsSolid : Fill → Prop
  | .solid _ => True
  | _ => False

namespace Style

variable {paint : Paint} {paints below above : List Paint}

/-! ### The paint at the top -/

/-- **A stack on a stack**: what is shown of the upper one is drawn, if anything is. -/
theorem topmostVisible_append (below above : List Paint) :
    topmostVisible (some (below ++ above))
      = (topmostVisible (some above)).or (topmostVisible (some below)) := by
  simp only [topmostVisible, Option.getD_some, List.filter_append, List.getLast?_append]

theorem topmostVisible_of_hidden (hidden : ∀ other ∈ paints, other.visible = false) :
    topmostVisible (some paints) = none := by
  have hnone : paints.filter (·.visible) = [] := List.filter_eq_nil_iff.mpr fun other hother =>
    Bool.eq_false_iff.mp (hidden other hother)
  rw [topmostVisible, Option.getD_some, hnone, List.getLast?_nil]

theorem topmostVisible_singleton (shown : paint.visible = true) :
    topmostVisible (some [paint]) = some paint := by
  rw [topmostVisible, Option.getD_some, List.filter_cons_of_pos shown]
  rfl

/-- A paint that is shown with nothing but hidden paints above it is drawn, whatever is below. -/
theorem topmostVisible_of_shown (shown : paint.visible = true)
    (hidden : ∀ other ∈ above, other.visible = false) :
    topmostVisible (some (below ++ paint :: above)) = some paint := by
  rw [← List.singleton_append, topmostVisible_append, topmostVisible_append,
    topmostVisible_of_hidden hidden, topmostVisible_singleton shown]
  rfl

/-! ### Backgrounds and borders -/

section Congr

variable {first second : Option (List Paint)}

theorem background_congr (h : topmostVisible first = topmostVisible second) :
    background first = background second := by
  rw [background, background, h]

theorem border_congr (h : topmostVisible first = topmostVisible second) (weight : Json) :
    border first weight = border second weight := by
  rw [border, border, h]

end Congr

/-- A linear gradient is given unless it lacks a point or has no stop. -/
theorem linearGradient_eq_none_iff {handles : List Vector} {stops : List Stop} :
    linearGradient handles stops = .ok none ↔ handles.length < 2 ∨ stops = [] := by
  unfold linearGradient
  split
  -- two handles and a stop: a gradient, or a fault
  · rename_i start finish more first rest
    constructor
    · intro h
      obtain ⟨angle, -, h⟩ := bind_eq_ok h
      obtain ⟨texts, -, h⟩ := bind_eq_ok h
      cases h
    · rintro (short | empty)
      · exact absurd short (by simp)
      · cases empty
  · rename_i hother
    refine iff_of_true rfl ?_
    -- no handle, one handle, or two without a stop
    rcases handles with _ | ⟨start, _ | ⟨finish, more⟩⟩
    · exact .inl Nat.two_pos
    · exact .inl Nat.one_lt_two
    · cases stops with
      | nil => exact .inr rfl
      | cons first rest => exact absurd rfl (hother start finish more first rest rfl)

/-- **The paints that give no background** are the blank ones. -/
theorem paintValue_eq_none_iff : paintValue paint = .ok none ↔ paint.fill.IsBlank := by
  obtain ⟨fill, visible, opacity⟩ := paint
  cases fill with
  | solid color =>
    refine iff_of_false (fun h => ?_) id
    change some <$> rgba (some color) opacity = .ok none at h
    cases hcolor : rgba (some color) opacity <;> rw [hcolor] at h <;> cases h
  | linear handles stops => exact linearGradient_eq_none_iff
  | radial handles stops => exact iff_of_true rfl trivial
  | image reference scaleMode => exact iff_of_false nofun id
  | unknown name => exact iff_of_true rfl trivial

/-- **Weights of strokes**: numbers, and what counts as no weight. -/
def IsWeight (weight : Json) : Prop := weight.truthy = true → weight.number?.isSome = true

/-- **Where no plain colour is at the top there is no border**, whatever the weight is; a weight that
is none is a fault all the same. -/
theorem border_eq_none_iff {strokes : Option (List Paint)}
    (h : ∀ top, topmostVisible strokes = some top → ¬ top.fill.IsSolid) {weight : Json} :
    border strokes weight = .ok none ↔ IsWeight weight := by
  unfold border
  split
  · rename_i given
    rw [IsWeight, imp_iff_right given]
    cases hnumber : weight.number? with
    -- the weight is no number
    | none =>
      -- the weight is looked at before the paints are
      refine iff_of_false (fun hok => ?_) Bool.false_ne_true
      obtain ⟨n, hoperand, -⟩ := bind_eq_ok hok
      rw [Json.operand, hnumber] at hoperand
      cases hoperand
    | some n =>
      have hoperand : weight.operand = pure n := by
        rw [Json.operand, hnumber]
        rfl
      rw [hoperand, pure_bind]
      refine iff_of_true ?_ rfl
      -- a width of nothing draws nothing, and a solid on top was excluded
      split
      · rfl
      split
      · rename_i color visible opacity htop
        exact absurd trivial (h _ htop)
      · rfl
  -- without a weight there is nothing to draw
  · rename_i absent
    exact iff_of_true rfl fun given => absurd given absent

/-! ### Colours of labels -/

/-- **Plain paints that are shown.** -/
def IsShownSolid (paint : Paint) : Prop := paint.visible = true ∧ paint.fill.IsSolid

theorem visibleSolid?_eq_none_iff : visibleSolid? paint = none ↔ ¬ IsShownSolid paint := by
  obtain ⟨fill, visible, opacity⟩ := paint
  cases fill <;> cases visible <;> simp [visibleSolid?, IsShownSolid, Fill.IsSolid]

theorem findSome?_visibleSolid?_eq_none (unsolid : ∀ other ∈ paints, ¬ IsShownSolid other) :
    paints.findSome? visibleSolid? = none :=
  List.findSome?_eq_none_iff.mpr fun other hother => visibleSolid?_eq_none_iff.mpr (unsolid other hother)

/-- **The first plain paint that is shown** gives a label its colour, whatever comes after it. -/
theorem textColor_of_first (unsolid : ∀ other ∈ below, ¬ IsShownSolid other)
    (solid : IsShownSolid paint) :
    textColor (some (below ++ paint :: above)) = textColor (some [paint]) := by
  have hnone := findSome?_visibleSolid?_eq_none unsolid
  obtain ⟨color, hcolor⟩ := Option.ne_none_iff_exists'.mp fun h =>
    visibleSolid?_eq_none_iff.mp h solid
  simp only [textColor, Option.getD_some, List.findSome?_append, hnone, Option.none_or,
    List.findSome?_cons, hcolor]

theorem textColor_of_none (unsolid : ∀ other ∈ paints, ¬ IsShownSolid other) :
    textColor (some paints) = .ok none := by
  rw [textColor, Option.getD_some, findSome?_visibleSolid?_eq_none unsolid]

/-! ### The paint that decides -/

/-- **One paint decides for the whole stack.** The background and the border are those of the topmost
paint that is shown, with all their faults, whatever is below it and whatever is hidden above it. A
paint at the top that gives no background leaves the node without one, and a paint that is no plain
colour leaves it without a border: nothing below shows through. A stack of hidden paints gives
neither. The colour of a label is decided from the other end, by the first plain paint that is shown.
A weight that is no number is a fault of the border whatever the strokes are. -/
theorem stack_decided :
    (∀ below paint above, paint.visible = true → (∀ other ∈ above, other.visible = false) →
        background (some (below ++ paint :: above)) = background (some [paint])
          ∧ (background (some (below ++ paint :: above)) = .ok none ↔ paint.fill.IsBlank)
          ∧ (∀ weight, border (some (below ++ paint :: above)) weight = border (some [paint]) weight)
          ∧ (¬ paint.fill.IsSolid → ∀ weight,
              border (some (below ++ paint :: above)) weight = .ok none ↔ IsWeight weight))
      ∧ (∀ paints, (∀ other ∈ paints, other.visible = false) →
          background (some paints) = .ok none
            ∧ ∀ weight, border (some paints) weight = .ok none ↔ IsWeight weight)
      ∧ (∀ before paint after, (∀ other ∈ before, ¬ IsShownSolid other) → IsShownSolid paint →
          textColor (some (before ++ paint :: after)) = textColor (some [paint]))
      ∧ ∀ paints, (∀ other ∈ paints, ¬ IsShownSolid other) → textColor (some paints) = .ok none := by
  refine ⟨fun below paint above shown hidden => ?_, fun paints hidden => ?_,
    fun before paint after => textColor_of_first, fun paints => textColor_of_none⟩
  -- the visible paint is the one on top
  · have htop : topmostVisible (some (below ++ paint :: above)) = some paint :=
      topmostVisible_of_shown shown hidden
    -- so it decides as it does alone
    have halone := htop.trans (topmostVisible_singleton shown).symm
    have hvalue : background (some (below ++ paint :: above)) = paintValue paint := by
      rw [background, htop]
    refine ⟨background_congr halone, ?_, border_congr halone, fun unsolid weight => ?_⟩
    -- the fill is the value of that paint
    · rw [hvalue, paintValue_eq_none_iff]
    -- a paint that is not solid draws no border
    · refine border_eq_none_iff fun top h => ?_
      obtain rfl : paint = top := Option.some.inj (htop.symm.trans h)
      exact unsolid
  -- nothing is visible, so nothing is on top
  · have htop : topmostVisible (some paints) = none := topmostVisible_of_hidden hidden
    refine ⟨by rw [background, htop], fun weight => border_eq_none_iff fun top h => ?_⟩
    rw [htop] at h
    cases h

/-- A plain paint that could not be drawn: the red of its colour is no number. -/
def brokenPaint : Paint := { fill := .solid { r := .str "red" } }

/-- A plain black paint. -/
def blackPaint : Paint := { fill := .solid {} }

/-- A radial gradient. -/
def radialPaint : Paint := { fill := .radial [] [] }

/-- A radial gradient on a broken paint and below a hidden one; for a label, black comes first. -/
theorem radialPaint_decides :
    background (some [brokenPaint]) = .error .wrongKind
      ∧ background (some ([brokenPaint] ++ radialPaint :: [{ brokenPaint with visible := false }]))
        = .ok none
      ∧ border (some ([brokenPaint] ++ radialPaint :: [{ brokenPaint with visible := false }]))
        (.ofInt 2) = .ok none
      ∧ background (some [{ brokenPaint with visible := false }]) = .ok none
      ∧ textColor (some ([radialPaint] ++ blackPaint :: [brokenPaint]))
        = .ok (some "rgba(0, 0, 0, 1)") := by
  obtain ⟨hstack, hhidden, hlabel, -⟩ := stack_decided
  -- the broken paint above is hidden
  have hiddenAbove : ∀ other ∈ [{ brokenPaint with visible := false }], other.visible = false :=
    List.forall_mem_singleton.mpr rfl
  obtain ⟨-, hbackground, -, hborder⟩ := hstack [brokenPaint] radialPaint _ rfl hiddenAbove
  refine ⟨rfl, hbackground.mpr trivial, (hborder id (.ofInt 2)).mpr fun _ => rfl,
    (hhidden _ hiddenAbove).1, ?_⟩
  -- the first plain paint of the label is the black one
  refine (hlabel [radialPaint] blackPaint [brokenPaint] ?_ ⟨rfl, trivial⟩).trans ?_
  · exact List.forall_mem_singleton.mpr fun solid => solid.2
  · exact eq_ok_of_toOption (by decide +kernel)

end Style

end Mockup
