import Mockup.Proofs.Design.Refusals
import Mockup.Proofs.Style.Entries

/-!
# Styling refuses nothing

Every aspect of a node asks its parts for numbers and texts, and any of these questions may end in a
fault. None of these faults is a refusal.

* `Style.pixels_unrefused`, `Style.rgba_unrefused`, … — figures, words and colours;
* `Style.sizeEntries_unrefused`, …, `Style.textEntries_unrefused` — each aspect of a node;
* `Style.block_unrefused` — **styling a node refuses nothing.**
-/

namespace Mockup

namespace Style

open Json

/-! ### Figures and words -/

theorem number_unrefused (j : Json) : Unrefused (number j) :=
  j.toDouble_unrefused.andThen fun _ => .ok

theorem pixels_unrefused (j : Json) : Unrefused (pixels j) :=
  (number_unrefused j).andThen fun _ => .ok

theorem integerBelow_unrefused (x : Binary64) : Unrefused (integerBelow x) := by
  unfold integerBelow
  split
  · exact .error rfl
  · exact orFault_unrefused rfl _

theorem halfUp_unrefused (n : Number) : Unrefused (halfUp n) :=
  (orFault_unrefused rfl _).andThen fun _ => integerBelow_unrefused _

theorem scaled_unrefused (factor : Int) (j : Json) : Unrefused (scaled factor j) := by
  refine j.operand_unrefused.andThen fun n => ?_
  exact (orFault_unrefused rfl _).andThen fun product => halfUp_unrefused product

theorem difference_unrefused (a b : Json) : Unrefused (difference a b) := by
  refine a.operand_unrefused.andThen fun m => ?_
  exact b.operand_unrefused.andThen fun n => orFault_unrefused rfl _

theorem wordFor_unrefused (table : String → Option String) (default : String) (j : Json) :
    Unrefused (wordFor table default j) :=
  (keyword_unrefused _).andThen fun _ => .ok

/-! ### Place and layout -/

theorem sizeEntries_unrefused (node : Node) : Unrefused (sizeEntries node) := by
  unfold sizeEntries
  split
  · iterate 2 refine (pixels_unrefused _).andThen fun _ => ?_
    exact .ok
  · exact .ok

theorem offset_unrefused (node : Node) (parent : Option Node) : Unrefused (offset node parent) := by
  unfold offset
  split
  · iterate 2
      refine (difference_unrefused _ _).andThen fun _ => ?_
      refine (pixels_unrefused _).andThen fun _ => ?_
    exact .ok
  · exact .ok

theorem positionEntries_unrefused (node : Node) (parent : Option Node) (isRoot : Bool) :
    Unrefused (positionEntries node parent isRoot) := by
  have hplacement : Unrefused (placement node parent isRoot) := by
    unfold placement
    split
    · exact .ok
    split
    · exact offset_unrefused node parent
    · exact .ok
  have hpositioning : Unrefused (positioning node parent isRoot) :=
    hplacement.andThen fun _ => .ok
  exact hpositioning.map

theorem flexLayout_unrefused (node : Node) : Unrefused (flexLayout node) := by
  unfold flexLayout
  split
  · iterate 5 refine (pixels_unrefused _).andThen fun _ => ?_
    iterate 2 refine (wordFor_unrefused _ _ _).andThen fun _ => ?_
    exact .ok
  · exact .ok

theorem inferredAlignment_unrefused (node : Node) : Unrefused (inferredAlignment node) := by
  unfold inferredAlignment
  split
  · split
    · iterate 2 refine (wordFor_unrefused _ _ _).andThen fun _ => ?_
      exact .ok
    · exact .ok
  · exact .ok

theorem layoutEntries_unrefused (node : Node) : Unrefused (layoutEntries node) := by
  refine Faults.map ?_
  split
  · exact flexLayout_unrefused node
  · exact inferredAlignment_unrefused node

/-! ### Colours, borders and shadows -/

theorem rgba_unrefused (color : Option Color) (opacity : Json) : Unrefused (rgba color opacity) := by
  unfold rgba
  split
  · exact .ok
  · iterate 3 refine (scaled_unrefused _ _).andThen fun _ => ?_
    exact (number_unrefused _).andThen fun _ => .ok

theorem gradientAngle_unrefused (start finish : Vector) :
    Unrefused (gradientAngle start finish) := by
  iterate 2 refine (difference_unrefused _ _).andThen fun _ => ?_
  iterate 2 refine (orFault_unrefused rfl _).andThen fun _ => ?_
  exact .ok

theorem stop_unrefused (s : Stop) : Unrefused (stop s) := by
  refine (rgba_unrefused _ _).andThen fun color => ?_
  exact (scaled_unrefused _ _).andThen fun _ => .ok

theorem linearGradient_unrefused (handles : List Vector) (stops : List Stop) :
    Unrefused (linearGradient handles stops) := by
  unfold linearGradient
  split
  · refine (gradientAngle_unrefused _ _).andThen fun angle => ?_
    exact (Faults.mapM fun s _ => stop_unrefused s).andThen fun _ => .ok
  · exact .ok

theorem paintValue_unrefused (paint : Paint) : Unrefused (paintValue paint) := by
  unfold paintValue
  split
  · exact (rgba_unrefused _ _).map
  · exact linearGradient_unrefused _ _
  · exact .ok
  · exact .ok
  · exact .ok

theorem surfaceEntries_unrefused (node : Node) : Unrefused (surfaceEntries node) := by
  unfold surfaceEntries
  split
  · exact .ok
  split
  · have hbackground : Unrefused (background node.fills) := by
      unfold background
      split
      · exact paintValue_unrefused _
      · exact .ok
    exact hbackground.andThen fun _ => .ok
  split
  · exact (rgba_unrefused _ _).andThen fun _ => .ok
  · exact .ok

theorem border_unrefused (strokes : Option (List Paint)) (weight : Json) :
    Unrefused (border strokes weight) := by
  unfold border
  split
  · -- the weight has to be a number before it is asked whether there is an edge
    refine weight.operand_unrefused.andThen fun n => ?_
    split
    · exact .ok
    split
    · refine (pixels_unrefused weight).andThen fun width => ?_
      exact (rgba_unrefused _ _).andThen fun _ => .ok
    · exact .ok
  · exact .ok

theorem cornerEntries_unrefused (node : Node) : Unrefused (cornerEntries node) := by
  unfold cornerEntries
  split
  · exact (pixels_unrefused _).andThen fun _ => .ok
  split
  · refine (size_unrefused _).andThen fun size => ?_
    split
    · refine (entries_unrefused _).andThen fun radii => ?_
      exact (Faults.mapM fun radius _ => pixels_unrefused radius).andThen fun _ => .ok
    · exact .ok
  · exact .ok

theorem outlineEntries_unrefused (node : Node) : Unrefused (outlineEntries node) := by
  refine (border_unrefused _ _).andThen fun edge => ?_
  exact (cornerEntries_unrefused node).andThen fun _ => .ok

theorem shadow_unrefused (effect : Effect) : Unrefused (shadow effect) := by
  unfold shadow
  split
  · iterate 4 refine (pixels_unrefused _).andThen fun _ => ?_
    exact (rgba_unrefused _ _).andThen fun _ => .ok
  · exact .error rfl

theorem shadowEntries_unrefused (node : Node) : Unrefused (shadowEntries node) := by
  have hshadows : Unrefused (boxShadow node.effects) := by
    refine (Faults.mapM fun effect _ => shadow_unrefused effect).andThen fun shadows => ?_
    split
    · exact .ok
    · exact .ok
  exact hshadows.andThen fun _ => .ok

theorem opacityEntries_unrefused (node : Node) : Unrefused (opacityEntries node) := by
  unfold opacityEntries
  split
  · exact .ok
  · refine (operand_unrefused _).andThen fun opacity => ?_
    split
    · exact (number_unrefused _).andThen fun _ => .ok
    · exact .ok

/-! ### Labels -/

theorem ifTruthy_unrefused {value : Json → Result String} (h : ∀ j, Unrefused (value j)) (j : Json)
    (property : String) : Unrefused (ifTruthy j property value) := by
  unfold ifTruthy
  split
  · exact (h j).andThen fun _ => .ok
  · exact .ok

theorem ifPresent_unrefused {value : Json → Result String} (h : ∀ j, Unrefused (value j)) (j : Json)
    (property : String) : Unrefused (ifPresent j property value) := by
  unfold ifPresent
  split
  · exact .ok
  · exact (h j).andThen fun _ => .ok

theorem lineHeight_unrefused (style : TextStyle) : Unrefused (lineHeight style) := by
  unfold lineHeight
  split
  · exact ifTruthy_unrefused pixels_unrefused _ _
  · exact ifTruthy_unrefused (fun j => (number_unrefused j).andThen fun _ => .ok) _ _

theorem typography_unrefused (style : Option TextStyle) : Unrefused (typography style) := by
  unfold typography
  split
  · exact .ok
  · refine (ifTruthy_unrefused (fun _ => .ok) _ _).andThen fun family => ?_
    refine (ifPresent_unrefused pixels_unrefused _ _).andThen fun size => ?_
    refine (ifPresent_unrefused number_unrefused _ _).andThen fun weight => ?_
    refine (lineHeight_unrefused _).andThen fun lineHeight => ?_
    refine (ifTruthy_unrefused pixels_unrefused _ _).andThen fun spacing => ?_
    exact (keyword_unrefused _).andThen fun _ => .ok

theorem textEntries_unrefused (node : Node) : Unrefused (textEntries node) := by
  unfold textEntries
  split
  · refine (typography_unrefused _).andThen fun face => ?_
    have hcolor : Unrefused (textColor node.fills) := by
      unfold textColor
      split
      · exact (rgba_unrefused _ _).map
      · exact .ok
    exact hcolor.andThen fun _ => .ok
  · exact .ok

/-! ### Blocks -/

theorem concat_unrefused {aspects : List (Result Entries)} (h : ∀ aspect ∈ aspects, Unrefused aspect) :
    Unrefused (concat aspects) := by
  induction aspects with
  | nil => exact .ok
  | cons aspect rest ih =>
    obtain ⟨haspect, hrest⟩ := List.forall_mem_cons.mp h
    refine haspect.andThen fun first => ?_
    exact (ih hrest).andThen fun _ => .ok

/-- **Styling a node refuses nothing.** -/
theorem block_unrefused (node : Node) (parent : Option Node) (isRoot : Bool) :
    Unrefused (block node parent isRoot) := by
  have hentries : Unrefused (entries node parent isRoot) := by
    -- one aspect after the other, as they are written
    refine concat_unrefused ?_
    simp only [List.forall_mem_cons]
    exact ⟨sizeEntries_unrefused node, positionEntries_unrefused node parent isRoot,
      layoutEntries_unrefused node, surfaceEntries_unrefused node, outlineEntries_unrefused node,
      shadowEntries_unrefused node, opacityEntries_unrefused node, textEntries_unrefused node,
      List.forall_mem_nil _⟩
  have hdeclarations : Unrefused (declarations node parent isRoot) := by
    rw [declarations_eq]
    exact hentries.map
  exact hdeclarations.andThen fun _ => .ok

end Style

end Mockup
