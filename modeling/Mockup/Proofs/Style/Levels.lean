import Mockup.Proofs.Outcome
import Mockup.Proofs.Style.HalfUp
import Mockup.Style.Surface

/-!
# Levels of shares

The channels of a colour and the positions of the stops of a gradient are shares of one. They are
written on a scale of whole numbers, a channel from 0 to 255 and a position in percent: the share times
the top of the scale, rounded half up. Both the product and the sum with one half are rounded to doubles,
so a level is not always the nearest one. But each of the steps is monotone, and the ends of the scale
are exact.

* `Json.IsShare` — a number from zero to one;
* `Style.level` — the level of a share, computed as the code of the scale does;
* `Style.level_mono`, `Style.level_natCast` — **it is monotone, and exact at the ends**;
* `Style.scaled_of_share` — shares of any kind are written as their levels;
* `Style.graded_channel_and_stops` — **the range and the order of channels and percentages.**
-/

namespace Mockup

open Binary64

/-- **A share of one**, with its exact value. -/
def Json.IsShare (j : Json) (q : ℚ) : Prop :=
  ∃ n, j.number? = some n ∧ n.value? = some q ∧ 0 ≤ q ∧ q ≤ 1

theorem Json.IsShare.le_one {j : Json} {q : ℚ} (h : j.IsShare q) : q ≤ 1 := by
  obtain ⟨_, -, -, -, le⟩ := h
  exact le

/-! ### Signs -/

namespace Binary64

/-- Only a zero can have a negative sign and a value that is not below zero. -/
theorem eq_zero_of_signed_nonneg {n : ℕ} {negative : Bool} (h : 0 ≤ signed negative n) :
    negative = true → n = 0 := by
  rintro rfl
  have h : 0 ≤ -(n : ℤ) := h
  omega

theorem signed_of_zero {negative : Bool} {n : ℕ} (h : negative = true → n = 0) :
    signed negative n = n := by
  cases negative with
  | false => rfl
  | true =>
    rw [h rfl]
    rfl

end Binary64

namespace Style

/-! ### The level of a share -/

/-- **The level of a share** on a scale: the product is rounded, and so is the sum with one half, before
the integer below is taken. -/
def level (top : ℕ) (q : ℚ) : ℕ :=
  nearest (nearest (⌊q * (unit : ℕ)⌋₊ * (top * unit)) unit + halfUnit) 1 / unit

/-- **A larger share has no lower level.** -/
theorem level_mono (top : ℕ) : Monotone (level top) := by
  intro p q hpq
  have hquanta : ⌊p * (unit : ℕ)⌋₊ ≤ ⌊q * (unit : ℕ)⌋₊ :=
    Nat.floor_mono (mul_le_mul_of_nonneg_right hpq (le_of_lt unit_cast_pos))
  have hproduct := nearest_mono unit_pos (Nat.mul_le_mul_right (top * unit) hquanta)
  exact Nat.div_le_div_right (nearest_mono Nat.one_pos (Nat.add_le_add_right hproduct halfUnit))

/-- **Whole shares have exact levels**, those of nothing and of all among them. -/
theorem level_natCast {top k : ℕ} (h : k * top < 2 ^ 52) : level top k = k * top := by
  have hunit : 0 < unit := unit_pos
  -- an integer has no fraction of a quantum
  have hquanta : ⌊(k : ℚ) * (unit : ℕ)⌋₊ = k * unit := by
    rw [← Nat.cast_mul, Nat.floor_natCast]
  -- the product is an integer again, so it is not rounded
  have hproduct : nearest (k * unit * (top * unit)) unit = k * top * unit := by
    have hspacing := (representable_mul_unit (by omega : k * top ≤ 2 ^ 53)).spacing_dvd
    rw [Nat.mul_comm k unit, Nat.mul_assoc, ← Nat.mul_assoc k]
    exact nearest_mul_left hunit hspacing
  -- an integer and a half is an odd number of halves, of 53 bits at most
  have hsum : nearest (k * top * unit + halfUnit) 1 = k * top * unit + halfUnit := by
    obtain ⟨e, f, -, hhalf, hunit, -⟩ := exists_exponents
    have hhalves : k * top * unit + halfUnit = (2 * (k * top) + 1) * 2 ^ e := by
      rw [hhalf, hunit, two_mul_two_pow e]
      ring
    have hspacing := spacing_mul_two_pow (by omega : 2 * (k * top) + 1 ≤ 2 ^ 53) e
    rw [hhalves]
    exact nearest_one_of_dvd hspacing
  -- the half is cut off
  have hhalf : halfUnit < unit := by
    have := unit_eq_two_mul
    have := halfUnit_pos
    omega
  rw [level, hquanta, hproduct, hsum, Nat.mul_comm _ unit, Nat.mul_add_div hunit,
    Nat.div_eq_of_lt hhalf, Nat.add_zero]

theorem level_le {top : ℕ} (htop : top < 2 ^ 52) {q : ℚ} (hq : q ≤ 1) : level top q ≤ top := by
  rw [← Nat.cast_one] at hq
  calc level top q ≤ level top (1 : ℕ) := level_mono top hq
    _ = top := by rw [level_natCast (by omega), Nat.one_mul]

/-! ### What is written -/

section Scaled

theorem scaled_of_number {factor : Int} {j : Json} {n product : Number} (hj : j.number? = some n)
    (hproduct : n.mul? (.whole factor) = some product) : scaled factor j = halfUp product := by
  rw [scaled, Json.operand, hj]
  change (orFault .outOfRange (n.mul? (.whole factor))) >>= halfUp = _
  rw [hproduct]
  rfl

/-- Beside a double, a whole factor is rounded first. -/
theorem mul?_double_whole {x y : Binary64} {z : Int} (hy : (Number.whole z).toDouble? = some y) :
    (Number.double x).mul? (.whole z) = some (.double (x.mul y)) := by
  have hx : (Number.double x).toDouble? = some x := rfl
  have rounded : (do
      return Number.double (.mul (← (Number.double x).toDouble?) (← (Number.whole z).toDouble?)))
      = some (Number.double (x.mul y)) := by
    rw [hx, hy]
    rfl
  exact rounded

variable {top : ℕ} (htop : top < 2 ^ 52)

include htop

/-- The level of a share that is a double. -/
theorem halfUp_mul {x y : Binary64} {q : ℚ} (hx : x.value? = some q) (nonneg : 0 ≤ q) (le : q ≤ 1)
    (hy : y.IsInteger top) : halfUp (.double (x.mul y)) = .ok (level top q) := by
  obtain ⟨s, n, hn, rfl, rfl⟩ := value?_eq_some hx
  obtain @⟨t, m, hm, _, hfactor⟩ := hy
  -- the signs do not matter: only zeros have a negative one
  have hs : s = true → n = 0 := by
    refine eq_zero_of_signed_nonneg ?_
    rw [le_div_iff₀ unit_cast_pos, zero_mul] at nonneg
    exact_mod_cast nonneg
  -- the factor is no negative number either
  have ht : t = true → m = 0 := by
    refine eq_zero_of_signed_nonneg ?_
    rw [hfactor]
    exact Int.mul_nonneg (Int.natCast_nonneg _) (Int.natCast_nonneg _)
  -- a product with a sign is zero
  have hsign : (s != t) = true → nearest (n * m) unit = 0 := by
    intro hne
    have hzero : n * m = 0 := by
      cases s with
      | true => rw [hs rfl, Nat.zero_mul]
      | false =>
        cases t with
        | true => rw [ht rfl, Nat.mul_zero]
        | false => cases hne
    rw [hzero, nearest_zero]
  -- the count of quanta is what the level is computed from
  have hquanta : ⌊(signed s n : ℚ) / (unit : ℕ) * (unit : ℕ)⌋₊ = n := by
    rw [div_mul_cancel₀ _ (ne_of_gt unit_cast_pos), signed_of_zero hs, Int.cast_natCast,
      Nat.floor_natCast]
  -- a share is no more than one
  have hone : n ≤ unit := by
    rw [signed_of_zero hs, div_le_one unit_cast_pos, Int.cast_natCast] at le
    exact Nat.cast_le.mp le
  have hm' : m = top * unit := by rw [quanta_of_signed hfactor, Int.natAbs_natCast]
  -- neither the product nor the sum leaves the range of doubles
  have hrepresentable : Representable (nearest (n * m) unit) := by
    refine representable_of_dvd (spacing_nearest _ unit_pos) ?_
    refine Nat.lt_of_le_of_lt (?_ : _ ≤ 2 ^ 52 * unit) (two_pow_mul_unit_lt_limit (by decide))
    rw [two_pow_mul_unit]
    refine nearest_le_two_pow unit_pos ?_
    rw [← two_pow_mul_unit, hm']
    exact Nat.mul_le_mul hone (Nat.mul_le_mul_right unit (Nat.le_of_lt htop))
  have hproduct : (Binary64.finite s n hn).mul (.finite t m hm)
      = .finite (s != t) (nearest (n * m) unit) hrepresentable := by
    rw [mul, ofQuanta, dif_pos hrepresentable]
  have hfits := nearest_half_lt_limit (spacing_nearest (n * m) unit_pos) hrepresentable.2 (s != t)
  rw [← signed_false halfUnit] at hfits
  -- the floor of the sum is the level
  rw [halfUp_of_double, hproduct, half_eq, integerBelow_add hfits, signed_of_zero hsign,
    signed_false, ← Int.natCast_add, roundedSum_natCast, ← Int.natCast_ediv, level, hquanta, hm']

/-- **A share is written as its level**, whichever way it is given. -/
theorem scaled_of_share {j : Json} {q : ℚ} (h : j.IsShare q) : scaled top j = .ok (level top q) := by
  obtain ⟨n, hj, hn, nonneg, le⟩ := h
  -- a double times an integer
  cases n with
  | double x =>
    obtain ⟨y, hy, hinteger⟩ := isInteger_ofInt? (by omega : (top : ℤ).natAbs ≤ 2 ^ 53)
    rw [scaled_of_number hj (mul?_double_whole hy)]
    exact halfUp_mul htop hn nonneg le hinteger
  | whole z =>
    -- an integer that is a share is zero or one, and its product is exact
    obtain rfl : (z : ℚ) = q := Option.some.inj hn
    have hlow : 0 ≤ z := by exact_mod_cast nonneg
    have hhigh : z ≤ 1 := by exact_mod_cast le
    obtain ⟨k, rfl⟩ := Int.eq_ofNat_of_zero_le hlow
    have hk : k * top < 2 ^ 52 := by
      calc k * top ≤ 1 * top := Nat.mul_le_mul_right top (by omega)
        _ < 2 ^ 52 := by omega
    have hsmall : |((k * top : ℕ) : ℤ)| ≤ 2 ^ 52 := by
      rw [Nat.abs_cast]
      exact_mod_cast Nat.le_of_lt hk
    rw [scaled_of_number hj (Number.mul?_whole k top), Int.cast_natCast, level_natCast hk,
      ← Int.natCast_mul, halfUp_whole hsmall]

end Scaled

/-! ### Scales -/

/-- **A scale from zero to `top`**: every share has a place on it, a larger share no lower one, and
nothing and all have the ends. -/
structure Graded (grade : Json → Result Int) (top : ℕ) : Prop where
  within : ∀ {j q}, j.IsShare q → ∃ z, grade j = .ok z ∧ 0 ≤ z ∧ z ≤ top
  mono : ∀ {i j p q}, i.IsShare p → j.IsShare q → p ≤ q →
    ∃ y z, grade i = .ok y ∧ grade j = .ok z ∧ y ≤ z
  least : ∀ {j}, j.IsShare 0 → grade j = .ok 0
  greatest : ∀ {j}, j.IsShare 1 → grade j = .ok top

theorem graded_scaled {top : ℕ} (htop : top < 2 ^ 52) : Graded (scaled top) top where
  -- a level is an integer between zero and the top
  within h := ⟨_, scaled_of_share htop h, Int.natCast_nonneg _,
    Int.ofNat_le.mpr (level_le htop h.le_one)⟩
  -- larger shares have larger levels
  mono hi hj hle := ⟨_, _, scaled_of_share htop hi, scaled_of_share htop hj,
    Int.ofNat_le.mpr (level_mono top hle)⟩
  -- no share gives nothing
  least h := by
    have hzero := level_natCast (by omega : 0 * top < 2 ^ 52)
    rw [Nat.cast_zero, Nat.zero_mul] at hzero
    rw [scaled_of_share htop h, hzero]
    rfl
  -- and the whole share the top
  greatest h := by
    have hone := level_natCast (by omega : 1 * top < 2 ^ 52)
    rw [Nat.cast_one, Nat.one_mul] at hone
    rw [scaled_of_share htop h, hone]

/-! ### Colours and gradients -/

/-- A colour as it is written. -/
def colorText (r g b : ℕ) (a : String) : String :=
  "rgba(" ++ integerNumeral r ++ ", " ++ integerNumeral g ++ ", " ++ integerNumeral b ++ ", " ++ a
    ++ ")"

/-- A stop as it is written. -/
def stopText (color : String) (percentage : ℕ) : String :=
  color ++ " " ++ integerNumeral percentage ++ "%"

/-- A gradient as it is written. -/
def gradientText (angle : Binary64) (colors : List String) (percentages : List ℕ) : String :=
  "linear-gradient(" ++ figure angle ++ "deg, "
    ++ ", ".intercalate (List.zipWith stopText colors percentages) ++ ")"

theorem channel_of_share {j : Json} {q : ℚ} (h : j.IsShare q) : channel j = .ok (level 255 q) :=
  scaled_of_share (by decide) h

theorem percentage_of_share {j : Json} {q : ℚ} (h : j.IsShare q) :
    scaled 100 j = .ok (level 100 q) :=
  scaled_of_share (by decide) h

theorem rgba_of_shares {color : Color} {opacity : Json} {r g b : ℚ} {a : String}
    (hr : color.r.IsShare r) (hg : color.g.IsShare g) (hb : color.b.IsShare b)
    (ha : number (alpha color opacity) = .ok a) :
    rgba (some color) opacity = .ok (colorText (level 255 r) (level 255 g) (level 255 b) a) := by
  rw [rgba, channel_of_share hr, channel_of_share hg, channel_of_share hb, ha]
  rfl

/-- The colours of stops, as they are written. -/
def Colored (stops : List Stop) (colors : List String) : Prop :=
  List.Forall₂ (fun s color => rgba (some s.color) .null = .ok color) stops colors

/-- The places of stops. -/
def Placed (stops : List Stop) (places : List ℚ) : Prop :=
  List.Forall₂ (fun s q => s.position.IsShare q) stops places

theorem Placed.le_one {stops : List Stop} {places : List ℚ} (h : Placed stops places) :
    ∀ q ∈ places, q ≤ 1 := by
  induction h with
  | nil => exact List.forall_mem_nil _
  | cons hplace _ ih => exact List.forall_mem_cons.mpr ⟨hplace.le_one, ih⟩

theorem stop_of_share {s : Stop} {color : String} {q : ℚ}
    (hcolor : rgba (some s.color) .null = .ok color) (hplace : s.position.IsShare q) :
    stop s = .ok (stopText color (level 100 q)) := by
  rw [stop, hcolor, percentage_of_share hplace]
  rfl

theorem mapM_stop {stops : List Stop} {colors : List String} {places : List ℚ}
    (hcolors : Colored stops colors) (hplaces : Placed stops places) :
    stops.mapM stop = .ok (List.zipWith stopText colors (places.map (level 100))) := by
  induction hcolors generalizing places with
  | nil =>
    cases hplaces
    rfl
  | cons hcolor _ ih =>
    cases hplaces with
    | cons hplace hplaces =>
      rw [List.mapM_cons, stop_of_share hcolor hplace, ih hplaces]
      rfl

theorem linearGradient_of_shares {start finish : Vector} {handles : List Vector} {stops : List Stop}
    {angle : Binary64} {colors : List String} {places : List ℚ} (hne : stops ≠ [])
    (hangle : gradientAngle start finish = .ok angle) (hcolors : Colored stops colors)
    (hplaces : Placed stops places) :
    linearGradient (start :: finish :: handles) stops
      = .ok (some (gradientText angle colors (places.map (level 100)))) := by
  obtain ⟨first, rest, rfl⟩ := List.exists_cons_of_ne_nil hne
  rw [linearGradient, hangle]
  change (List.mapM stop (first :: rest) >>= _) = _
  rw [mapM_stop hcolors hplaces]
  rfl

/-- **The range and the order of channels and percentages.** A channel is from 0 to 255 and a position
from 0 to 100 percent, both grow with the share, and those are the numbers that are written in a colour
and in a gradient; so stops that are given in order are written in order. -/
theorem graded_channel_and_stops :
    Graded channel 255 ∧ Graded (scaled 100) 100
    ∧ (∀ {color : Color} {opacity : Json} {r g b : ℚ} {a : String},
        color.r.IsShare r → color.g.IsShare g → color.b.IsShare b →
        number (alpha color opacity) = .ok a →
        ∃ x y z : ℕ, (x ≤ 255 ∧ y ≤ 255 ∧ z ≤ 255)
          ∧ (channel color.r = .ok x ∧ channel color.g = .ok y ∧ channel color.b = .ok z)
          ∧ rgba (some color) opacity = .ok (colorText x y z a))
    ∧ (∀ {start finish : Vector} {handles : List Vector} {stops : List Stop} {angle : Binary64}
        {colors : List String} {places : List ℚ},
        stops ≠ [] → gradientAngle start finish = .ok angle → Colored stops colors →
        Placed stops places →
        ∃ percentages : List ℕ,
          List.Forall₂ (fun s percentage => scaled 100 s.position = .ok percentage) stops
            (percentages.map Nat.cast)
          ∧ linearGradient (start :: finish :: handles) stops
            = .ok (some (gradientText angle colors percentages))
          ∧ (∀ percentage ∈ percentages, percentage ≤ 100)
          ∧ (places.Pairwise (· ≤ ·) → percentages.Pairwise (· ≤ ·))) := by
  refine ⟨graded_scaled (by decide), graded_scaled (by decide), ?colors, ?gradients⟩
  case colors =>
    intro color opacity r g b a hr hg hb ha
    -- the three channels are levels of 255
    have hle : ∀ {j : Json} {q : ℚ}, j.IsShare q → level 255 q ≤ 255 :=
      fun h => level_le (by decide) h.le_one
    exact ⟨level 255 r, level 255 g, level 255 b, ⟨hle hr, hle hg, hle hb⟩,
      ⟨channel_of_share hr, channel_of_share hg, channel_of_share hb⟩, rgba_of_shares hr hg hb ha⟩
  case gradients =>
    intro start finish handles stops angle colors places hne hangle hcolors hplaces
    refine ⟨places.map (level 100), ?_, linearGradient_of_shares hne hangle hcolors hplaces, ?_, ?_⟩
    -- each percentage is the level of its place
    · rw [List.map_map, List.forall₂_map_right_iff]
      exact hplaces.imp fun _ _ => percentage_of_share
    -- and no more than a hundred
    · intro percentage hmem
      obtain ⟨q, hq, rfl⟩ := List.mem_map.mp hmem
      exact level_le (by decide) (hplaces.le_one q hq)
    -- the places are in order, so their levels are
    · exact fun hsorted => hsorted.map _ fun _ _ => fun hle => level_mono 100 hle

/-- Stops from black through a half of red to red. -/
def reddening : List Stop :=
  [⟨.ofInt 0, {}⟩, ⟨.ofDouble half, { r := .ofDouble half }⟩, ⟨.ofInt 1, { r := .ofInt 1 }⟩]

theorem placed_reddening : Placed reddening [0, 1 / 2, 1] := by
  have hhalf : half.value? = some (1 / 2) := by
    rw [half_eq, ← value_halfUnit]
    rfl
  have hshare : (Json.ofDouble half).IsShare (1 / 2) :=
    ⟨_, rfl, hhalf, by norm_num, by norm_num⟩
  exact .cons ⟨_, rfl, rfl, by norm_num, by norm_num⟩ (.cons hshare
    (.cons ⟨_, rfl, rfl, by norm_num, by norm_num⟩ .nil))

theorem colored_reddening :
    Colored reddening ["rgba(0, 0, 0, 1)", "rgba(128, 0, 0, 1)", "rgba(255, 0, 0, 1)"] :=
  .cons (eq_ok_of_toOption (by decide +kernel)) (.cons (eq_ok_of_toOption (by decide +kernel))
    (.cons (eq_ok_of_toOption (by decide +kernel)) .nil))

/-- The percentages of a gradient from black through a half of red to red. -/
theorem graded_reddening :
    ∃ percentages : List ℕ,
      linearGradient [{}, { x := .ofInt 1 }] reddening
        = .ok (some (gradientText rightAngle
            ["rgba(0, 0, 0, 1)", "rgba(128, 0, 0, 1)", "rgba(255, 0, 0, 1)"] percentages))
      ∧ percentages.Pairwise (· ≤ ·) := by
  have hangle : gradientAngle {} { x := .ofInt 1 } = .ok rightAngle :=
    eq_ok_of_toOption (by decide +kernel)
  obtain ⟨percentages, -, hprinted, -, horder⟩ := graded_channel_and_stops.2.2.2
    (List.cons_ne_nil _ _) hangle colored_reddening placed_reddening
  exact ⟨percentages, hprinted, horder (by norm_num)⟩

end Style

end Mockup
