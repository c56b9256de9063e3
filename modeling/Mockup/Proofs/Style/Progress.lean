import Mockup.Proofs.Design.Documented
import Mockup.Proofs.Style.Entries

/-!
# Sound nodes have blocks

Every aspect of a node asks its parts for numbers and texts, and any of these questions may end in a
fault. For a sound node in a sound parent none does: measures are numbers that stay in the range of
doubles through all arithmetic that is done with them, and the keys that are looked up are texts.

* `Json.within_of_isMeasure` — a measure lies in a range;
* `Style.pixels_succeeds`, `Style.difference_yields`, `Style.scaled_succeeds` — figures of measures;
* `Style.size_succeeds`, …, `Style.text_succeeds` — each aspect of a sound node;
* `Style.declarations_succeeds` — **a sound node has a block**.
-/

namespace Mockup

open Json

/-! ### Measures and keys -/

/-- **A number in a range**, as a value. -/
def Json.Within (k : Nat) (j : Json) : Prop := ∃ n : Number, j = .num n ∧ n.Within k

/-- A measure lies in a range. -/
theorem Json.within_of_isMeasure {j : Json} (h : j.isMeasure = true) : j.Within 50 := by
  have bound : measureBound ≤ 2 ^ 50 := by decide
  unfold isMeasure at h
  split at h
  · exact ⟨_, rfl, Nat.le_trans (of_decide_eq_true h) bound⟩
  · exact ⟨_, rfl, ⟨Nat.le_trans (of_decide_eq_true h) (Nat.mul_le_mul_right _ bound)⟩⟩
  · cases h

/-- A text is a key. -/
theorem Json.keyword_succeeds {j : Json} (h : j.isString = true) : Succeeds j.keyword := by
  cases j with
  | str s => exact .ok trivial
  | _ => cases h

namespace Style

/-- A number between measures, or between their differences, is rounded to a double. -/
theorem toDouble_succeeds {n : Number} (h : n.Within 51) :
    Succeeds (orFault .outOfRange n.toDouble?) := by
  obtain ⟨x, hx, -⟩ := Number.within_toDouble? (by omega) h
  exact .orFault ⟨x, hx, trivial⟩

theorem number_succeeds {j : Json} (h : j.Within 51) : Succeeds (number j) := by
  obtain ⟨n, rfl, hn⟩ := h
  exact (toDouble_succeeds hn).andThen fun _ => .ok trivial

theorem pixels_succeeds {j : Json} (h : j.Within 51) : Succeeds (pixels j) :=
  (number_succeeds h).andThen fun _ => .ok trivial

/-- A measure has a figure. -/
theorem number_of_isMeasure {j : Json} (h : j.isMeasure = true) : Succeeds (number j) := by
  obtain ⟨n, rfl, hn⟩ := within_of_isMeasure h
  exact number_succeeds ⟨n, rfl, hn.mono (by omega)⟩

/-- A measure has a length. -/
theorem pixels_of_isMeasure {j : Json} (h : j.isMeasure = true) : Succeeds (pixels j) :=
  (number_of_isMeasure h).andThen fun _ => .ok trivial

/-- The difference of two measures stays in the range. -/
theorem difference_yields {a b : Json} (ha : a.isMeasure = true) (hb : b.isMeasure = true) :
    Yields (difference a b) (Number.Within 51) := by
  obtain ⟨m, rfl, hm⟩ := within_of_isMeasure ha
  obtain ⟨n, rfl, hn⟩ := within_of_isMeasure hb
  exact .orFault (Number.within_sub? (by omega) hm hn)

/-- A double in a range has an integer below it. -/
theorem integerBelow_succeeds {k : Nat} {x : Binary64} (h : x.Within k) :
    Succeeds (integerBelow x) := by
  obtain ⟨-⟩ := h
  exact .ok trivial

/-- A number in a range is rounded to an integer. -/
theorem halfUp_succeeds {k : Nat} (hk : k + 1 < 1024) {n : Number} (h : n.Within k) :
    Succeeds (halfUp n) := by
  have hhalf : half.Within 0 := Binary64.within_ofRatio (by omega) Nat.two_pos (by omega) false
  refine (Yields.orFault (Number.within_toDouble? (by omega) h)).bind fun x hx => ?_
  exact integerBelow_succeeds (Binary64.within_add hk hx (hhalf.mono (Nat.zero_le k)))

/-- A measure times a factor is rounded to an integer. -/
theorem scaled_succeeds {factor : Int} (hfactor : factor.natAbs ≤ 2 ^ 8) {j : Json}
    (h : j.isMeasure = true) : Succeeds (scaled factor j) := by
  obtain ⟨n, rfl, hn⟩ := within_of_isMeasure h
  have hwhole : Number.Within 8 (.whole factor) := hfactor
  refine (Yields.orFault (Number.within_mul? (by omega) hn hwhole)).bind fun product hproduct => ?_
  exact halfUp_succeeds (by omega) hproduct

/-- A measure is rounded to a channel. -/
theorem channel_succeeds {j : Json} (h : j.isMeasure = true) : Succeeds (channel j) :=
  scaled_succeeds (by decide) h

/-! ### Size, place and layout -/

variable {node : Node} {t : Traits}

theorem size_succeeds (h : node.toTraits.Sound) : Succeeds (sizeEntries node) := by
  unfold sizeEntries
  split
  · rename_i box hbox
    have hbox := h.box box hbox
    exact (pixels_of_isMeasure hbox.width).andThen fun _ =>
      (pixels_of_isMeasure hbox.height).andThen fun _ => .ok trivial
  · exact .ok trivial

theorem offset_succeeds {parent : Option Node} (h : node.toTraits.Sound)
    (hparent : ∀ p ∈ parent, p.toTraits.Sound) : Succeeds (offset node parent) := by
  unfold offset
  split
  · rename_i box outer hbox houter
    obtain ⟨p, hp, houter⟩ := Option.bind_eq_some_iff.mp houter
    have hbox := h.box box hbox
    have houter := (hparent p hp).box outer houter
    refine (difference_yields hbox.x houter.x).bind fun across hacross => ?_
    refine (pixels_succeeds ⟨across, rfl, hacross⟩).andThen fun _ => ?_
    refine (difference_yields hbox.y houter.y).bind fun down hdown => ?_
    exact (pixels_succeeds ⟨down, rfl, hdown⟩).andThen fun _ => .ok trivial
  · exact .ok trivial

theorem position_succeeds {parent : Option Node} (h : node.toTraits.Sound)
    (hparent : ∀ p ∈ parent, p.toTraits.Sound) (isRoot : Bool) :
    Succeeds (positionEntries node parent isRoot) := by
  have hplacement : Succeeds (placement node parent isRoot) := by
    unfold placement
    split
    · exact .ok trivial
    split
    · exact offset_succeeds h hparent
    · exact .ok trivial
  have hpositioning : Succeeds (positioning node parent isRoot) :=
    hplacement.andThen fun _ => .ok trivial
  exact hpositioning.map fun _ _ => trivial

theorem gap_succeeds {j : Json} (h : isNullOr isMeasure j = true) : Succeeds (gap j) :=
  pixels_of_isMeasure (orElse_of_isNullOr h (by decide))

theorem wordFor_succeeds (table : String → Option String) (default : String) {j : Json}
    (h : isNullOr isString j = true) : Succeeds (wordFor table default j) :=
  (Json.keyword_succeeds (orElse_of_isNullOr h rfl)).andThen fun _ => .ok trivial

theorem flexLayout_succeeds (h : node.toTraits.Sound) : Succeeds (flexLayout node) := by
  unfold flexLayout
  split
  · exact (gap_succeeds h.paddingTop).andThen fun _ => (gap_succeeds h.paddingRight).andThen fun _ =>
      (gap_succeeds h.paddingBottom).andThen fun _ => (gap_succeeds h.paddingLeft).andThen fun _ =>
      (gap_succeeds h.itemSpacing).andThen fun _ =>
      (wordFor_succeeds _ _ h.counterAlign).andThen fun _ =>
      (wordFor_succeeds _ _ h.primaryAlign).andThen fun _ => .ok trivial
  · exact .ok trivial

/-- The style of a sole label is that of a child. -/
theorem sound_of_soleLabelStyle? {node : Node} (h : node.Sound) :
    ∀ style ∈ soleLabelStyle? node, style.Sound := by
  intro style hstyle
  unfold soleLabelStyle? at hstyle
  split at hstyle
  -- what has a layout of its own, or a child placed by hand, infers nothing
  · cases hstyle
  split at hstyle
  · -- the only label among the visible children is a child, and children are sound
    rename_i label hlabel
    have hmem : label ∈ node.childList := by
      have hmem : label ∈ node.visibleChildren.filter (·.isText) := by simp [hlabel]
      exact (List.mem_filter.mp (List.mem_filter.mp hmem).1).1
    obtain ⟨traits, below⟩ := h
    obtain ⟨htraits, -⟩ := below label hmem
    exact htraits.style style hstyle
  -- no label, or several
  · cases hstyle

theorem layout_succeeds (h : node.Sound) : Succeeds (layoutEntries node) := by
  have hlayout : Succeeds (if node.hasAutoLayout then flexLayout node
      else inferredAlignment node) := by
    split
    -- the lengths of a layout are measures
    · obtain ⟨traits, -⟩ := h
      exact flexLayout_succeeds traits
    unfold inferredAlignment
    split
    -- an inferred alignment reads the two words of the label's style
    · rename_i style hstyle
      have hstyle := sound_of_soleLabelStyle? h style hstyle
      split
      · exact (wordFor_succeeds _ _ hstyle.alignVertical).andThen fun _ =>
          (wordFor_succeeds _ _ hstyle.alignHorizontal).andThen fun _ => .ok trivial
      · exact .ok trivial
    · exact .ok trivial
  exact hlayout.map fun _ _ => trivial

/-! ### Colours, backgrounds and borders -/

/-- A sound colour with a sound opacity has a value. -/
theorem rgba_succeeds {color : Color} (h : color.Sound) {opacity : Json}
    (hopacity : isNullOr isMeasure opacity = true) : Succeeds (rgba (some color) opacity) := by
  -- the opacity given beside the colour counts, or its own, which is always there
  have halpha : (alpha color opacity).isMeasure = true := by
    have hgiven := orDefault_of_isNullOr hopacity h.a
    unfold alpha
    generalize opacity.orDefault color.a = given at hgiven ⊢
    cases given with
    | null => cases hgiven
    | _ => exact hgiven
  exact (channel_succeeds h.r).andThen fun _ => (channel_succeeds h.g).andThen fun _ =>
    (channel_succeeds h.b).andThen fun _ => (number_of_isMeasure halpha).andThen fun _ => .ok trivial

theorem stop_succeeds {s : Stop} (h : s.Sound) : Succeeds (stop s) :=
  (rgba_succeeds h.color rfl).andThen fun _ =>
    (scaled_succeeds (by decide) h.position).andThen fun _ => .ok trivial

/-- The angle between two sound points. -/
theorem gradientAngle_succeeds {start finish : Vector} (hstart : start.Sound)
    (hfinish : finish.Sound) : Succeeds (gradientAngle start finish) := by
  refine (difference_yields hfinish.y hstart.y).bind fun rise hrise => ?_
  refine (difference_yields hfinish.x hstart.x).bind fun run hrun => ?_
  exact (toDouble_succeeds hrise).andThen fun _ => (toDouble_succeeds hrun).andThen fun _ =>
    .ok trivial

theorem linearGradient_succeeds {handles : List Vector} {stops : List Stop}
    (hhandles : ∀ v ∈ handles, v.Sound) (hstops : ∀ s ∈ stops, s.Sound) :
    Succeeds (linearGradient handles stops) := by
  unfold linearGradient
  split
  · rename_i start finish _ first rest
    have hstart := hhandles start (.head _)
    have hfinish := hhandles finish (.tail _ (.head _))
    have hread : ∀ s ∈ first :: rest, Succeeds (stop s) := fun s hs => stop_succeeds (hstops s hs)
    exact (gradientAngle_succeeds hstart hfinish).andThen fun _ =>
      (Yields.mapM hread).bind fun _ _ => .ok trivial
  · exact .ok trivial

theorem paintValue_succeeds {paint : Paint} (h : paint.Sound) : Succeeds (paintValue paint) := by
  obtain ⟨fill, visible, opacity⟩ := paint
  obtain ⟨hfill, hopacity⟩ := h
  cases fill with
  | solid color => exact (rgba_succeeds hfill hopacity).map fun _ _ => trivial
  | linear handles stops => exact linearGradient_succeeds hfill.1 hfill.2
  | radial handles stops => exact .ok trivial
  | image reference scaleMode => exact .ok trivial
  | unknown name => exact .ok trivial

/-- The topmost visible paint is one of the paints. -/
theorem mem_of_topmostVisible {paints : Option (List Paint)} {paint : Paint}
    (h : topmostVisible paints = some paint) : paint ∈ paints.getD [] :=
  (List.mem_filter.mp (List.mem_of_getLast? h)).1

theorem surface_succeeds (h : node.toTraits.Sound) : Succeeds (surfaceEntries node) := by
  unfold surfaceEntries
  split
  -- a label has no surface
  · exact .ok trivial
  split
  -- the fills come first
  · have hbackground : Succeeds (background node.fills) := by
      unfold background
      split
      · rename_i paint hpaint
        exact paintValue_succeeds (h.fills paint (mem_of_topmostVisible hpaint))
      · exact .ok trivial
    exact hbackground.andThen fun _ => .ok trivial
  -- without fills the background colour of the file
  split
  · rename_i color hcolor
    exact (rgba_succeeds (h.backgroundColor color hcolor) rfl).andThen fun _ => .ok trivial
  · exact .ok trivial

theorem operand_succeeds {j : Json} (h : j.isMeasure = true) : Succeeds j.operand := by
  obtain ⟨n, rfl, -⟩ := within_of_isMeasure h
  exact .ok trivial

/-- A value that counts as given is of the type of the values given. -/
theorem type_of_truthy {type : Json → Bool} {j : Json} (h : isNullOr type j = true)
    (given : j.truthy = true) : type j = true := by
  rcases isNullOr_cases h with rfl | h
  · cases given
  · exact h

theorem border_succeeds {strokes : Option (List Paint)} {weight : Json}
    (hstrokes : ∀ p ∈ strokes.getD [], p.Sound) (hweight : isNullOr isMeasure weight = true) :
    Succeeds (border strokes weight) := by
  unfold border
  -- a weight that counts is a number, also where there are no strokes
  split
  · rename_i given
    have hweight := type_of_truthy hweight given
    refine (operand_succeeds hweight).andThen fun _ => ?_
    split
    · exact .ok trivial
    split
    -- the paint on top gives the colour
    · rename_i color visible opacity hpaint
      obtain ⟨hcolor, hopacity⟩ := hstrokes _ (mem_of_topmostVisible hpaint)
      exact (pixels_of_isMeasure hweight).andThen fun _ =>
        (rgba_succeeds hcolor hopacity).andThen fun _ => .ok trivial
    · exact .ok trivial
  · exact .ok trivial

theorem corner_succeeds (h : node.toTraits.Sound) : Succeeds (cornerEntries node) := by
  unfold cornerEntries
  split
  · rename_i given
    exact (pixels_of_isMeasure (type_of_truthy h.cornerRadius given)).andThen fun _ =>
      .ok trivial
  split
  -- or a list of them, all numbers, of which four are written
  · rename_i given
    obtain ⟨items, hitems, hmeasures⟩ := items_of_isArrayOf
      (type_of_truthy h.cornerRadii given)
    rw [hitems]
    have hradii : ∀ item ∈ items, Succeeds (pixels item) :=
      fun item hitem => pixels_of_isMeasure (hmeasures item hitem)
    refine Yields.andThen (.ok trivial) fun count => ?_
    split
    · exact Yields.bind (P := (· = items)) (.ok rfl) fun _ hentries =>
        (Yields.mapM (hentries ▸ hradii)).bind fun _ _ => .ok trivial
    · exact .ok trivial
  · exact .ok trivial

theorem outline_succeeds (h : node.toTraits.Sound) : Succeeds (outlineEntries node) :=
  (border_succeeds h.strokes h.strokeWeight).andThen fun _ =>
    (corner_succeeds h).andThen fun _ => .ok trivial

/-! ### Shadows, opacity and text -/

theorem shadow_succeeds {effect : Effect} (h : effect.glow.Sound)
    (isShadow : isVisibleShadow effect = true) : Succeeds (shadow effect) := by
  obtain ⟨glow, visible⟩ := effect
  cases glow with
  | shadow inset radius offset spread color =>
    obtain ⟨hradius, hoffset, hspread, hcolor⟩ := h
    exact (pixels_of_isMeasure hoffset.x).andThen fun _ =>
      (pixels_of_isMeasure hoffset.y).andThen fun _ => (pixels_of_isMeasure hradius).andThen fun _ =>
      (pixels_of_isMeasure hspread).andThen fun _ =>
      (rgba_succeeds hcolor rfl).andThen fun _ => .ok trivial
  | blur background radius => cases isShadow
  | unknown name => cases isShadow

theorem shadows_succeeds (h : node.toTraits.Sound) : Succeeds (shadowEntries node) := by
  have hshadows : ∀ effect ∈ (node.effects.getD []).filter isVisibleShadow,
      Succeeds (shadow effect) := by
    intro effect heffect
    obtain ⟨hmem, isShadow⟩ := List.mem_filter.mp heffect
    exact shadow_succeeds (h.effects effect hmem) isShadow
  have hbox : Succeeds (boxShadow node.effects) := by
    refine (Yields.mapM hshadows).bind fun values _ => ?_
    cases values with
    | nil => exact .ok trivial
    | cons first rest => exact .ok trivial
  exact hbox.andThen fun _ => .ok trivial

theorem opacity_succeeds (h : node.toTraits.Sound) : Succeeds (opacityEntries node) := by
  unfold opacityEntries
  split
  · exact .ok trivial
  rename_i given
  -- an opacity that is there is a number
  have hopacity : node.opacity.isMeasure = true := by
    rcases isNullOr_cases h.opacity with hnull | hopacity
    · rw [hnull] at given
      exact absurd rfl given
    · exact hopacity
  refine (operand_succeeds hopacity).andThen fun _ => ?_
  split
  · exact (number_of_isMeasure hopacity).andThen fun _ => .ok trivial
  · exact .ok trivial

theorem ifTruthy_succeeds {type : Json → Bool} {j : Json} (h : isNullOr type j = true)
    (property : String) {value : Json → Result String}
    (hvalue : type j = true → Succeeds (value j)) : Succeeds (ifTruthy j property value) := by
  unfold ifTruthy
  split
  · exact (hvalue (type_of_truthy h ‹_›)).andThen fun _ => .ok trivial
  · exact .ok trivial

theorem ifPresent_succeeds {type : Json → Bool} {j : Json} (h : isNullOr type j = true)
    (property : String) {value : Json → Result String}
    (hvalue : type j = true → Succeeds (value j)) : Succeeds (ifPresent j property value) := by
  unfold ifPresent
  rcases isNullOr_cases h with rfl | h
  · exact .ok trivial
  split
  · exact .ok trivial
  · exact (hvalue h).andThen fun _ => .ok trivial

theorem lineHeight_succeeds {style : TextStyle} (h : style.Sound) :
    Succeeds (lineHeight style) := by
  unfold lineHeight
  split
  · exact ifTruthy_succeeds h.lineHeightPx _ pixels_of_isMeasure
  · exact ifTruthy_succeeds h.lineHeightPercent _ fun hmeasure =>
      (number_of_isMeasure hmeasure).andThen fun _ => .ok trivial

theorem typography_succeeds {style : Option TextStyle} (h : ∀ s ∈ style, s.Sound) :
    Succeeds (typography style) := by
  cases style with
  | none => exact .ok trivial
  | some style =>
    have h := h style rfl
    -- any value can be a family
    have hfamily : Succeeds (ifTruthy style.fontFamily "font-family" (.ok ∘ fontFamily)) := by
      unfold ifTruthy
      split
      · exact .ok trivial
      · exact .ok trivial
    -- the other properties, in the order of the block
    exact hfamily.andThen fun _ =>
      (ifPresent_succeeds h.fontSize _ pixels_of_isMeasure).andThen fun _ =>
      (ifPresent_succeeds h.fontWeight _ number_of_isMeasure).andThen fun _ =>
      (lineHeight_succeeds h).andThen fun _ =>
      (ifTruthy_succeeds h.letterSpacing _ pixels_of_isMeasure).andThen fun _ =>
      (Json.keyword_succeeds (orElse_of_isNullOr h.alignHorizontal rfl)).andThen fun _ =>
      .ok trivial

theorem textColor_succeeds {fills : Option (List Paint)} (h : ∀ p ∈ fills.getD [], p.Sound) :
    Succeeds (textColor fills) := by
  unfold textColor
  split
  · rename_i color opacity hfound
    -- the colour is found in a paint that is plain and shown
    obtain ⟨⟨fill, visible, own⟩, hmem, hpaint⟩ := List.exists_of_findSome?_eq_some hfound
    obtain ⟨hfill, hopacity⟩ := h _ hmem
    unfold visibleSolid? at hpaint
    split at hpaint
    · rename_i hshape
      obtain ⟨rfl, rfl, rfl⟩ := Paint.mk.inj hshape
      obtain ⟨rfl, rfl⟩ := Prod.mk.inj (Option.some.inj hpaint)
      exact (rgba_succeeds hfill hopacity).map fun _ _ => trivial
    · cases hpaint
  · exact .ok trivial

theorem text_succeeds (h : node.toTraits.Sound) : Succeeds (textEntries node) := by
  unfold textEntries
  split
  · exact (typography_succeeds h.style).andThen fun _ =>
      (textColor_succeeds h.fills).andThen fun _ => .ok trivial
  · exact .ok trivial

/-! ### Blocks -/

/-- Entries after entries are there when each of them is. -/
theorem concat_succeeds {results : List (Result Entries)}
    (h : ∀ result ∈ results, Succeeds result) : Succeeds (concat results) := by
  induction results with
  | nil => exact .ok trivial
  | cons first rest ih =>
    exact (h first (.head _)).andThen fun _ =>
      (ih fun result hresult => h result (.tail _ hresult)).andThen fun _ => .ok trivial

/-- **A sound node has a block**, in every parent that is sound. -/
theorem declarations_succeeds (h : node.Sound) {parent : Option Node}
    (hparent : ∀ p ∈ parent, p.Sound) (isRoot : Bool) :
    Succeeds (declarations node parent isRoot) := by
  -- what is sound as a tree has sound fields
  have traits : ∀ {n : Node}, n.Sound → n.toTraits.Sound := fun hn => by
    obtain ⟨htraits, -⟩ := hn
    exact htraits
  have hentries : Succeeds (entries node parent isRoot) := by
    -- one goal for each aspect, in the order of the block
    refine concat_succeeds ?_
    simp only [List.forall_mem_cons, List.not_mem_nil, false_imp_iff, implies_true, and_true]
    exact ⟨size_succeeds (traits h),
      position_succeeds (traits h) (fun p hp => traits (hparent p hp)) isRoot,
      layout_succeeds h, surface_succeeds (traits h), outline_succeeds (traits h),
      shadows_succeeds (traits h), opacity_succeeds (traits h), text_succeeds (traits h)⟩
  rw [declarations_eq]
  exact hentries.map fun _ _ => trivial

end Style

end Mockup
