import Mockup.Proofs.Number.Numeral
import Mockup.Proofs.Style.Properties

/-!
# The characters of declarations

A document is not checked before it is used, so any text in it may be meant to break out of the
declaration that it ends up in. Almost none ends up in one. What a document says of sizes, places and
colours is printed as figures, and what it says of layout is looked up in tables of fixed words; both
are made of few characters, whatever the document holds. The one exception is the family of a label,
which is written out as it is.

* `Over` — a text over an alphabet;
* `Style.Alphabet` — an alphabet that has the characters of fixed words and those of figures;
* `Style.Alphabet.rgba`, `Style.Alphabet.flexLayout`, … — **what is printed is over every such
  alphabet**, operation by operation;
* `Style.Alphabet.sizeEntries`, …, `Style.Alphabet.setting` — so are the values that each aspect of a
  node gives, all but the family.

The alphabet is left open. How many characters a figure needs is a question about figures only, and
the results here hold for whatever answer one has.
-/

namespace Mockup

/-- **A text over an alphabet.** -/
def Over (allowed : Char → Prop) (text : String) : Prop := ∀ c ∈ text.toList, allowed c

namespace Over

variable {allowed : Char → Prop}

theorem append {a b : String} (ha : Over allowed a) (hb : Over allowed b) :
    Over allowed (a ++ b) := by
  rw [Over, String.toList_append]
  exact List.forall_mem_append.mpr ⟨ha, hb⟩

theorem empty : Over allowed "" := by
  intro c hc
  cases hc

/-- Texts with a separator between them. -/
theorem intercalate {separator : String} (hseparator : Over allowed separator)
    {texts : List String} (h : ∀ text ∈ texts, Over allowed text) :
    Over allowed (separator.intercalate texts) := by
  induction texts with
  | nil =>
    rw [String.intercalate_nil]
    exact empty
  | cons text rest ih =>
    obtain ⟨htext, hrest⟩ := List.forall_mem_cons.mp h
    cases rest with
    | nil =>
      rw [String.intercalate_singleton]
      exact htext
    | cons next others =>
      rw [String.intercalate_cons_cons]
      exact (htext.append hseparator).append (ih hrest)

end Over

/-- Declarations whose values are all over an alphabet. -/
def PairsOver (allowed : Char → Prop) (pairs : List (String × String)) : Prop :=
  ∀ pair ∈ pairs, Over allowed pair.2

/-- A value that, where there is one, is over an alphabet. -/
def ValueOver (allowed : Char → Prop) (value : Option String) : Prop :=
  ∀ text, value = some text → Over allowed text

/-- Entries whose values, where they have one, are over an alphabet. -/
def Entries.ValuesOver (allowed : Char → Prop) (entries : Entries) : Prop :=
  ∀ entry ∈ entries, ValueOver allowed entry.2

section

variable {allowed : Char → Prop}

theorem PairsOver.nil : PairsOver allowed [] := List.forall_mem_nil _

theorem PairsOver.cons {property value : String} {rest : List (String × String)}
    (h : Over allowed value) (hrest : PairsOver allowed rest) :
    PairsOver allowed ((property, value) :: rest) :=
  List.forall_mem_cons.mpr ⟨h, hrest⟩

theorem PairsOver.append {a b : List (String × String)} (ha : PairsOver allowed a)
    (hb : PairsOver allowed b) : PairsOver allowed (a ++ b) :=
  List.forall_mem_append.mpr ⟨ha, hb⟩

theorem PairsOver.given {pairs : List (String × String)} (h : PairsOver allowed pairs) :
    (Entries.given pairs).ValuesOver allowed := by
  intro entry hentry
  obtain ⟨pair, hpair, rfl⟩ := List.mem_map.mp hentry
  rintro _ ⟨⟩
  exact h pair hpair

theorem ValueOver.none : ValueOver allowed none := nofun

theorem ValueOver.some {text : String} (h : Over allowed text) : ValueOver allowed (some text) := by
  rintro _ ⟨⟩
  exact h

theorem Entries.ValuesOver.nil : Entries.ValuesOver allowed [] := List.forall_mem_nil _

theorem Entries.ValuesOver.cons {property : String} {value : Option String} {rest : Entries}
    (h : ValueOver allowed value) (hrest : rest.ValuesOver allowed) :
    Entries.ValuesOver allowed ((property, value) :: rest) :=
  List.forall_mem_cons.mpr ⟨h, hrest⟩

theorem Entries.ValuesOver.append {a b : Entries} (ha : a.ValuesOver allowed)
    (hb : b.ValuesOver allowed) : Entries.ValuesOver allowed (a ++ b) :=
  List.forall_mem_append.mpr ⟨ha, hb⟩

end

namespace Style

/-! ### Words and figures -/

/-- **The characters of fixed words**, of colours and of the punctuation between them. -/
def isMark (c : Char) : Bool :=
  c.isLower || c.isDigit || c ∈ ['#', '%', '(', ')', ',', '.', '-', ' ']

/-- **The fixed words** that values are made of, with the punctuation between them. -/
def fixedWords : List String :=
  [" ", ", ", ")", "%", "px", "deg, ", "rgba(", "transparent", "linear-gradient(", "#d9d9d9",
   " solid ", "inset ", "relative", "absolute", "static", "hidden", "white", "flex", "row",
   "column", "start", "end", "center", "baseline", "stretch", "space-between", "left", "right",
   "justify"]

theorem isMark_of_mem_fixedWords {text : String} (h : text ∈ fixedWords) :
    ∀ c ∈ text.toList, isMark c = true := by
  have hall : fixedWords.all (·.toList.all isMark) = true := by decide +kernel
  exact List.all_eq_true.mp (List.all_eq_true.mp hall text h)

/-- **An alphabet for declarations** has the characters of fixed words and those of figures. -/
structure Alphabet (allowed : Char → Prop) : Prop where
  mark : ∀ c, isMark c = true → allowed c
  figure : ∀ x, Over allowed (figure x)

theorem ifTruthy_over {allowed : Char → Prop} {j : Json} {property : String}
    {value : Json → Result String} (h : Ensures (value j) (Over allowed)) :
    Ensures (ifTruthy j property value) (PairsOver allowed) := by
  unfold ifTruthy
  split
  · exact h.bind fun _ hvalue => .ok (.cons hvalue .nil)
  · exact .ok .nil

theorem ifPresent_over {allowed : Char → Prop} {j : Json} {property : String}
    {value : Json → Result String} (h : Ensures (value j) (Over allowed)) :
    Ensures (ifPresent j property value) (PairsOver allowed) := by
  unfold ifPresent
  split
  · exact .ok .nil
  · exact h.bind fun _ hvalue => .ok (.cons hvalue .nil)

namespace Alphabet

variable {allowed : Char → Prop} (alphabet : Alphabet allowed)

include alphabet

theorem word {text : String} (h : text ∈ fixedWords) : Over allowed text :=
  fun c hc => alphabet.mark c (isMark_of_mem_fixedWords h c hc)

/-- An integer. -/
theorem integer (z : Int) : Over allowed (integerNumeral z) := by
  intro c hc
  refine alphabet.mark c ?_
  rcases isDigit_or_minus_of_mem_integerNumeral c hc with hdigit | rfl
  · simp [isMark, hdigit]
  · rfl

theorem number (j : Json) : Ensures (Style.number j) (Over allowed) :=
  .andThen fun x => .ok (alphabet.figure x)

theorem pixels (j : Json) : Ensures (Style.pixels j) (Over allowed) :=
  (alphabet.number j).bind fun _ h => .ok (h.append (alphabet.word (by simp [fixedWords])))

theorem percent (j : Json) : Ensures (Style.percent j) (Over allowed) :=
  (alphabet.number j).bind fun _ h => .ok (h.append (alphabet.word (by simp [fixedWords])))

theorem blank : Over allowed " " := alphabet.word (by simp [fixedWords])

theorem comma : Over allowed ", " := alphabet.word (by simp [fixedWords])

/-! ### Colours, backgrounds, borders and shadows -/

theorem rgba (color : Option Color) (opacity : Json) :
    Ensures (Style.rgba color opacity) (Over allowed) := by
  -- no colour has a fixed word
  cases color with
  | none => exact .ok (alphabet.word (by simp [fixedWords]))
  | some color =>
    -- the channels are integers, and the alpha value is a number
    refine .andThen fun r => .andThen fun g => .andThen fun b =>
      (alphabet.number _).bind fun a ha => .ok ?_
    have hopen : Over allowed "rgba(" := alphabet.word (by simp [fixedWords])
    have hclose : Over allowed ")" := alphabet.word (by simp [fixedWords])
    exact (((((((hopen.append (alphabet.integer r)).append alphabet.comma).append
      (alphabet.integer g)).append alphabet.comma).append (alphabet.integer b)).append
      alphabet.comma).append ha).append hclose

theorem stop (s : Stop) : Ensures (Style.stop s) (Over allowed) :=
  (alphabet.rgba _ _).bind fun _ hcolor => .andThen fun place => .ok <|
    ((hcolor.append alphabet.blank).append (alphabet.integer place)).append
      (alphabet.word (by simp [fixedWords]))

theorem linearGradient (handles : List Vector) (stops : List Stop) :
    Ensures (Style.linearGradient handles stops) (ValueOver allowed) := by
  unfold Style.linearGradient
  split
  -- the angle and the stops, between fixed words
  · refine .andThen fun angle =>
      (Ensures.mapM fun s _ => alphabet.stop s).bind fun texts htexts => .ok (.some ?_)
    have hopen : Over allowed "linear-gradient(" := alphabet.word (by simp [fixedWords])
    have hdegrees : Over allowed "deg, " := alphabet.word (by simp [fixedWords])
    have hclose : Over allowed ")" := alphabet.word (by simp [fixedWords])
    exact (((hopen.append (alphabet.figure angle)).append hdegrees).append
      (alphabet.comma.intercalate htexts)).append hclose
  · exact .ok .none

theorem paintValue (paint : Paint) : Ensures (Style.paintValue paint) (ValueOver allowed) := by
  unfold Style.paintValue
  split
  · exact (alphabet.rgba _ _).map fun _ h => .some h
  · exact alphabet.linearGradient _ _
  · exact .ok (.some (alphabet.word (by simp [imagePlaceholder, fixedWords])))
  · exact .ok .none
  · exact .ok .none

theorem background (fills : Option (List Paint)) :
    Ensures (Style.background fills) (ValueOver allowed) := by
  unfold Style.background
  split
  · exact alphabet.paintValue _
  · exact .ok .none

theorem border (strokes : Option (List Paint)) (weight : Json) :
    Ensures (Style.border strokes weight) (ValueOver allowed) := by
  unfold Style.border
  split
  -- a width, a fixed word and a colour
  · refine .andThen fun _ => ?_
    split
    · exact .ok .none
    split
    · refine (alphabet.pixels _).bind fun width hwidth =>
        (alphabet.rgba _ _).bind fun color hcolor => .ok (.some ?_)
      exact (hwidth.append (alphabet.word (by simp [fixedWords]))).append hcolor
    · exact .ok .none
  · exact .ok .none

theorem shadow (effect : Effect) : Ensures (Style.shadow effect) (Over allowed) := by
  unfold Style.shadow
  split
  -- four lengths and a colour, with or without the word for an inner one
  · refine (alphabet.pixels _).bind fun x hx => (alphabet.pixels _).bind fun y hy =>
      (alphabet.pixels _).bind fun radius hradius => (alphabet.pixels _).bind fun spread hspread =>
      (alphabet.rgba _ _).bind fun color hcolor => .ok ?_
    refine Over.append ?_ (alphabet.blank.intercalate ?_)
    · split
      · exact alphabet.word (by simp [fixedWords])
      · exact .empty
    · simp only [List.forall_mem_cons]
      exact ⟨hx, hy, hradius, hspread, hcolor, List.forall_mem_nil _⟩
  -- a glow of another kind has no text
  · exact .error

theorem boxShadow (effects : Option (List Effect)) :
    Ensures (Style.boxShadow effects) (ValueOver allowed) := by
  refine (Ensures.mapM fun effect _ => alphabet.shadow effect).bind fun shadows hshadows => ?_
  split
  · exact .ok .none
  · exact .ok (.some (alphabet.comma.intercalate hshadows))

/-! ### Places and layouts -/

/-- A word from a table of fixed words. -/
theorem wordFor {table : String → Option String} {default : String}
    (htable : ∀ key word, table key = some word → word ∈ fixedWords)
    (hdefault : default ∈ fixedWords) (j : Json) :
    Ensures (Style.wordFor table default j) (Over allowed) := by
  refine .andThen fun key => .ok (alphabet.word ?_)
  cases hword : key.bind table with
  | none => exact hdefault
  | some word =>
    obtain ⟨found, -, hfound⟩ := Option.bind_eq_some_iff.mp hword
    exact htable found word hfound

theorem alignment (j : Json) : Ensures (Style.alignment j) (Over allowed) := by
  refine alphabet.wordFor (fun key word hword => ?_) (by simp [fixedWords]) j
  unfold alignment? at hword
  split at hword <;> simp_all [fixedWords]

theorem verticalAlignment (j : Json) :
    Ensures (Style.wordFor verticalAlignment? "center" j) (Over allowed) := by
  refine alphabet.wordFor (fun key word hword => ?_) (by simp [fixedWords]) j
  unfold verticalAlignment? at hword
  split at hword <;> simp_all [fixedWords]

theorem horizontalAlignment (j : Json) :
    Ensures (Style.wordFor horizontalAlignment? "center" j) (Over allowed) := by
  refine alphabet.wordFor (fun key word hword => ?_) (by simp [fixedWords]) j
  unfold horizontalAlignment? at hword
  split at hword <;> simp_all [fixedWords]

theorem positioning (node : Node) (parent : Option Node) (isRoot : Bool) :
    Ensures (Style.positioning node parent isRoot) (PairsOver allowed) := by
  -- the modes are fixed words
  have hmode : ∀ mode : PositionMode, Over allowed mode.name := by
    intro mode
    cases mode <;> exact alphabet.word (by simp [PositionMode.name, fixedWords])
  have hplace : Ensures (placement node parent isRoot) (PairsOver allowed) := by
    unfold placement
    split
    · exact .ok (.cons (alphabet.word (by simp [fixedWords]))
        (.cons (alphabet.word (by simp [fixedWords])) .nil))
    split
    -- an absolute node has two lengths
    · unfold offset
      split
      · exact .andThen fun _ => (alphabet.pixels _).bind fun _ hleft => .andThen fun _ =>
          (alphabet.pixels _).bind fun _ htop => .ok (.cons hleft (.cons htop .nil))
      · exact .ok .nil
    -- any other node has no more than its position
    · exact .ok .nil
  exact hplace.bind fun _ hrest => .ok (.cons (hmode _) hrest)

theorem flexLayout (node : Node) : Ensures (Style.flexLayout node) (PairsOver allowed) := by
  unfold Style.flexLayout
  split
  -- the direction, the spacing, the padding and the two alignments
  · have hdirection : Over allowed (if node.layout = .horizontal then "row" else "column") := by
      split <;> exact alphabet.word (by simp [fixedWords])
    refine (alphabet.pixels _).bind fun top htop => (alphabet.pixels _).bind fun right hright =>
      (alphabet.pixels _).bind fun bottom hbottom => (alphabet.pixels _).bind fun left hleft =>
      (alphabet.pixels _).bind fun spacing hspacing =>
      (alphabet.alignment _).bind fun across hacross =>
      (alphabet.alignment _).bind fun along halong => .ok ?_
    have hpadding : Over allowed (" ".intercalate [top, right, bottom, left]) := by
      refine alphabet.blank.intercalate ?_
      simp only [List.forall_mem_cons]
      exact ⟨htop, hright, hbottom, hleft, List.forall_mem_nil _⟩
    exact .cons (alphabet.word (by simp [fixedWords])) <| .cons hdirection <| .cons hspacing <|
      .cons hpadding <| .cons hacross <| .cons halong .nil
  · exact .ok .nil

theorem inferredAlignment (node : Node) :
    Ensures (Style.inferredAlignment node) (PairsOver allowed) := by
  unfold Style.inferredAlignment
  split
  · split
    · exact (alphabet.verticalAlignment _).bind fun _ hacross =>
        (alphabet.horizontalAlignment _).bind fun _ halong => .ok <|
          .cons (alphabet.word (by simp [fixedWords])) (.cons hacross (.cons halong .nil))
    · exact .ok .nil
  · exact .ok .nil

/-! ### Labels -/

theorem lineHeight (style : TextStyle) : Ensures (Style.lineHeight style) (PairsOver allowed) := by
  unfold Style.lineHeight
  split
  · exact ifTruthy_over (alphabet.pixels _)
  · exact ifTruthy_over (alphabet.percent _)

theorem textColor (fills : Option (List Paint)) :
    Ensures (Style.textColor fills) (ValueOver allowed) := by
  unfold Style.textColor
  split
  · exact (alphabet.rgba _ _).map fun _ h => .some h
  · exact .ok .none

theorem setting (style : TextStyle) : Ensures (Style.setting style) (PairsOver allowed) := by
  -- each property is left out or has a length, a number or a word
  refine (ifPresent_over (alphabet.pixels _)).bind fun size hsize =>
    (ifPresent_over (alphabet.number _)).bind fun weight hweight =>
    (alphabet.lineHeight style).bind fun height hheight =>
    (ifTruthy_over (alphabet.pixels _)).bind fun spacing hspacing =>
    .andThen fun key => .ok ?_
  refine ((((hsize.append hweight).append hheight).append hspacing).append ?_)
  cases hword : key.bind textAlignment? with
  | none => exact .nil
  | some word =>
    obtain ⟨found, -, hfound⟩ := Option.bind_eq_some_iff.mp hword
    -- the alignments of a text are fixed words
    have hmem : word ∈ fixedWords := by
      unfold textAlignment? at hfound
      split at hfound <;> simp_all [fixedWords]
    exact .cons (alphabet.word hmem) .nil

/-! ### Aspect by aspect -/

theorem sizeEntries (node : Node) : Ensures (Style.sizeEntries node) (Entries.ValuesOver allowed) := by
  unfold Style.sizeEntries
  split
  · exact (alphabet.pixels _).bind fun _ hwidth => (alphabet.pixels _).bind fun _ hheight =>
      .ok (.cons (.some hwidth) (.cons (.some hheight) .nil))
  · exact .ok .nil

theorem positionEntries (node : Node) (parent : Option Node) (isRoot : Bool) :
    Ensures (Style.positionEntries node parent isRoot) (Entries.ValuesOver allowed) :=
  (alphabet.positioning node parent isRoot).map fun _ h => h.given

theorem layoutEntries (node : Node) :
    Ensures (Style.layoutEntries node) (Entries.ValuesOver allowed) := by
  unfold Style.layoutEntries
  split
  · exact (alphabet.flexLayout node).map fun _ h => h.given
  · exact (alphabet.inferredAlignment node).map fun _ h => h.given

theorem surfaceEntries (node : Node) :
    Ensures (Style.surfaceEntries node) (Entries.ValuesOver allowed) := by
  unfold Style.surfaceEntries
  split
  · exact .ok .nil
  split
  · exact (alphabet.background _).bind fun _ h => .ok (.cons h .nil)
  split
  · exact (alphabet.rgba _ _).bind fun _ h => .ok (.cons (.some h) .nil)
  · exact .ok .nil

theorem cornerEntries (node : Node) :
    Ensures (Style.cornerEntries node) (Entries.ValuesOver allowed) := by
  unfold Style.cornerEntries
  split
  · exact (alphabet.pixels _).bind fun _ h => .ok (.cons (.some h) .nil)
  split
  · refine .andThen fun _ => ?_
    split
    · refine .andThen fun _ => (Ensures.mapM fun j _ => alphabet.pixels j).bind fun _ h => .ok ?_
      exact .cons (.some (alphabet.blank.intercalate h)) .nil
    · exact .ok .nil
  · exact .ok .nil

theorem outlineEntries (node : Node) :
    Ensures (Style.outlineEntries node) (Entries.ValuesOver allowed) :=
  (alphabet.border _ _).bind fun _ hedge => (alphabet.cornerEntries node).bind fun _ hcorners =>
    .ok (.cons hedge hcorners)

theorem shadowEntries (node : Node) :
    Ensures (Style.shadowEntries node) (Entries.ValuesOver allowed) :=
  (alphabet.boxShadow _).bind fun _ h => .ok (.cons h .nil)

theorem opacityEntries (node : Node) :
    Ensures (Style.opacityEntries node) (Entries.ValuesOver allowed) := by
  unfold Style.opacityEntries
  split
  · exact .ok .nil
  refine .andThen fun _ => ?_
  split
  · exact (alphabet.number _).bind fun _ h => .ok (.cons (.some h) .nil)
  · exact .ok .nil

end Alphabet

end Style

end Mockup
