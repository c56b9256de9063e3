import Mathlib.Data.List.Forall2
import Mockup.Proofs.Page.ContainingBlock
import Mockup.Proofs.Style.ReadBack

/-!
# The stylesheet of a page

A stylesheet has one line for each node of its page, after the lines that every page has. Whoever
reads it cuts it at the newlines. Whether the lines are those of the nodes depends on what the blocks
hold, and the only text of a document that a block holds is the family of a label.

* `Text.lines`, `Text.Unbroken` — the lines of a text, and a text that is one line;
* `lines_css` — the lines of a stylesheet: those that every page has, and those of the rules;
* `Visit.IsWritten` — a line is the rule of a visit, with a sealed block between its braces;
* `stylesheet_intact_iff` — **the lines are those of the nodes exactly when every family on the page
  is harmless.** Nothing else that a document says can break its stylesheet.
-/

namespace Mockup

/-! ### Lines -/

namespace Text

/-- **The lines of a text.** -/
def lines (text : String) : List String := (text.toList.splitOn '\n').map String.ofList

/-- **An unbroken text** has no newline. -/
abbrev Unbroken (text : String) : Prop := Over (· ≠ '\n') text

theorem unbroken_of_notMem {text : String} (h : '\n' ∉ text.toList) : Unbroken text :=
  fun _ hc => ne_of_mem_of_not_mem hc h

/-- An unbroken text is one line. -/
theorem Unbroken.lines_eq {text : String} (h : Unbroken text) : lines text = [text] := by
  have single : '\n' ∉ text.toList := fun hmem => h _ hmem rfl
  rw [lines, List.splitOn_eq_singleton single, List.map_singleton, String.ofList_toList]

theorem lines_append (a b : String) : lines (a ++ "\n" ++ b) = lines a ++ lines b := by
  have hnewline : "\n".toList = ['\n'] := by rfl
  rw [lines, String.toList_append, String.toList_append, hnewline, List.append_assoc,
    List.singleton_append, List.splitOn_append_cons_self, List.map_append]
  rfl

/-- Texts with newlines between them have the lines of each. -/
theorem lines_intercalate {texts : List String} (h : texts ≠ []) :
    lines ("\n".intercalate texts) = texts.flatMap lines := by
  induction texts with
  | nil => exact absurd rfl h
  | cons text rest ih =>
    cases rest with
    | nil => rw [String.intercalate_singleton, List.flatMap_singleton]
    | cons next others =>
      rw [String.intercalate_cons_cons, lines_append, ih (by simp)]
      rfl

end Text

/-- A rule is one line when its selector and its block are unbroken. -/
theorem Rule.lines_braced {selector block : String} (hselector : Text.Unbroken selector)
    (hblock : Text.Unbroken block) :
    Text.lines (Rule.braced selector block) = [Rule.braced selector block] := by
  have hopen : Text.Unbroken " \x7b " := Text.unbroken_of_notMem (by simp)
  have hclose : Text.Unbroken " \x7d" := Text.unbroken_of_notMem (by simp)
  exact Text.Unbroken.lines_eq (((hselector.append hopen).append hblock).append hclose)

namespace Stylesheet

/-- The lines that come before those of the rules. -/
def preamble (gap : Int) (several : Bool) : List String :=
  Text.lines base ++ if several then [container gap] else []

theorem unbroken_gap (gap : Int) : Text.Unbroken (toString gap) := by
  have hnatural : ∀ n : Nat, Text.Unbroken (toString n) := by
    intro n c hc
    rw [Nat.toString_eq_ofList_toDigits, String.toList_ofList] at hc
    rintro rfl
    exact absurd (Nat.isDigit_of_mem_toDigits (by decide) (by decide) hc) (by decide)
  have hminus : Text.Unbroken "-" := Text.unbroken_of_notMem (by simp)
  cases gap with
  | ofNat n => exact hnatural n
  | negSucc n => exact hminus.append (hnatural (n + 1))

/-- The rule of the box around several artboards is one line, whatever the gap. -/
theorem lines_container (gap : Int) : Text.lines (container gap) = [container gap] := by
  have hgap := unbroken_gap gap
  have hselector : Text.Unbroken ("." ++ containerClass) :=
    Text.unbroken_of_notMem (by simp [containerClass])
  have hbefore : Text.Unbroken "display: flex; flex-direction: column; gap: " :=
    Text.unbroken_of_notMem (by simp)
  have hbetween : Text.Unbroken "px; align-items: center; padding: " :=
    Text.unbroken_of_notMem (by simp)
  have hafter : Text.Unbroken "px;" := Text.unbroken_of_notMem (by simp)
  exact Rule.lines_braced hselector ((((hbefore.append hgap).append hbetween).append hgap).append
    hafter)

end Stylesheet

/-- **The lines of a stylesheet**: those that every page has, and those of the rules. -/
theorem lines_css (gap : Int) (fragments : List (List Element)) (rules : Stylesheet) :
    Text.lines (assemble gap fragments rules).css
      = Stylesheet.preamble gap (1 < fragments.length)
        ++ rules.flatMap fun rule => Text.lines rule.render := by
  have hrules : (if rules.isEmpty then [] else [rules.render]).flatMap Text.lines
      = rules.flatMap fun rule => Text.lines rule.render := by
    cases rules with
    | nil => rfl
    -- each rule has lines of its own
    | cons rule rest =>
      rw [if_neg (by simp), List.flatMap_singleton, Stylesheet.render,
        Text.lines_intercalate (by simp), List.flatMap_map]
  rw [assemble]
  dsimp only
  rw [Text.lines_intercalate (by simp), List.flatMap_append, List.flatMap_append, hrules,
    List.flatMap_singleton, Stylesheet.preamble]
  split
  -- the container has a rule when there are several roots
  · rename_i several
    rw [List.flatMap_singleton, Stylesheet.lines_container, if_pos (by simpa using several)]
  · rename_i single
    rw [List.flatMap_nil, if_neg (by simpa using single)]

/-! ### The line of a visit -/

/-- **A line is the rule of a visit**: the class of the node, and between braces its block, which is
sealed. -/
def Visit.IsWritten (v : Visit) (line : String) : Prop :=
  ∃ block, v.declarations = .ok block ∧ block.Sealed
    ∧ line = "." ++ v.className ++ " \x7b " ++ block.text ++ " \x7d"

/-- The family of the node of a visit. -/
def Visit.family? (v : Visit) : Option String := Style.fontFamily? v.node

/-- A visit that has a line has no harmful family. -/
theorem Visit.IsWritten.harmless {v : Visit} {line : String} (h : v.IsWritten line)
    {family : String} (hfamily : v.family? = some family) : Harmless family := by
  obtain ⟨block, hblock, sealed, -⟩ := h
  exact (Style.sealed_iff hblock).mp sealed family hfamily

/-- The rule of a visit without a harmful family is one line, and the line is that of the visit. -/
theorem Visit.isWritten_render {v : Visit} {rule : Rule} (h : v.rule = .ok rule)
    (harmless : ∀ family, v.family? = some family → Harmless family) :
    v.IsWritten rule.render ∧ Text.lines rule.render = [rule.render] := by
  obtain ⟨block, hblock, rfl⟩ := Visit.rule_eq_ok h
  have sealed := (Style.sealed_iff hblock).mpr harmless
  have hdot : Text.Unbroken "." := Text.unbroken_of_notMem (by simp)
  have hclass : Text.Unbroken v.className := by
    rintro c hc rfl
    exact absurd ((isClassName_className v.node.id).2 _ hc) (by decide)
  have htext : Text.Unbroken block.text := fun c hc => (sealed.plain c hc).2.2
  exact ⟨⟨block, hblock, sealed, rfl⟩, Rule.lines_braced (hdot.append hclass) htext⟩

/-- The lines of the rules are those of the visits. -/
theorem forall₂_isWritten {visits : List Visit} {rules : Stylesheet}
    (hrules : rules.map .ok = visits.map Visit.rule)
    (harmless : ∀ v ∈ visits, ∀ family, v.family? = some family → Harmless family) :
    List.Forall₂ Visit.IsWritten visits (rules.flatMap fun rule => Text.lines rule.render) := by
  induction visits generalizing rules with
  | nil =>
    obtain rfl := List.map_eq_nil_iff.mp hrules
    exact .nil
  -- a rule with a harmless family is one line
  | cons v rest ih =>
    obtain ⟨rule, others, rfl, hrule, hothers⟩ := List.map_eq_cons_iff.mp hrules
    obtain ⟨hv, hrest⟩ := List.forall_mem_cons.mp harmless
    obtain ⟨written, single⟩ := Visit.isWritten_render hrule.symm hv
    rw [List.flatMap_cons, single, List.singleton_append]
    exact .cons written (ih hothers hrest)

/-! ### The stylesheet of a document -/

/-- **A stylesheet is intact exactly when every family on its page is harmless.** After the lines
that every page has, the stylesheet of a document has one line for each node that is visited, in
order, with the class of the node and its block, the block sealed, unless the family of a label has a
semicolon, a brace or a newline. -/
theorem stylesheet_intact_iff {gap : Int} {document : Json} {page : Conversion}
    (h : convertDocument gap document = .ok page) :
    ∃ root rest, Node.ofJson document = .ok root
      ∧ Text.lines page.css = Stylesheet.preamble gap (1 < root.roots.length) ++ rest
      ∧ (List.Forall₂ Visit.IsWritten (rootVisits root.roots) rest
          ↔ ∀ v ∈ rootVisits root.roots, ∀ family, v.family? = some family → Harmless family) := by
  obtain ⟨root, hroot, hconvert⟩ := bind_eq_ok h
  obtain ⟨rules, hfollow, rfl⟩ := convert_eq_ok hconvert
  refine ⟨root, rules.flatMap fun rule => Text.lines rule.render, hroot, ?_, ?_, ?_⟩
  -- the preamble has as many lines as the roots ask for
  · rw [lines_css, List.length_map]
  · intro written v hv family hfamily
    -- the visit has its line, at its place among the lines
    obtain ⟨i, hi, rfl⟩ := List.getElem_of_mem hv
    have hline := written.get hi (written.length_eq ▸ hi)
    exact hline.harmless hfamily
  -- without harm every rule is its own line
  · intro harmless
    exact forall₂_isWritten (follow_none hfollow).2 harmless

/-- A document that is one label, of a given family. -/
def labelDocument (family : String) : Json :=
  .obj [("id", .str "1:1"), ("type", .str "TEXT"), ("characters", .str "x"),
    ("style", .obj [("fontFamily", .str family)])]

/-- The label of that document. -/
def familyLabel (family : String) : Node :=
  { id := "1:1", kind := .text, characters := .str "x", style := some { fontFamily := .str family } }

theorem ofJson_labelDocument (family : String) :
    Node.ofJson (labelDocument family) = .ok (familyLabel family) := rfl

/-- The stylesheet of a label with a plain family is intact. -/
theorem plainFamily_intact : ∃ page rest, convertDocument 32 (labelDocument "Inter") = .ok page
    ∧ Text.lines page.css = Stylesheet.preamble 32 false ++ rest
    ∧ List.Forall₂ Visit.IsWritten (rootVisits [familyLabel "Inter"]) rest := by
  have converted : (convertDocument 32 (labelDocument "Inter")).toOption.isSome = true := by
    decide +kernel
  obtain ⟨page, hpage⟩ := exists_ok_of_isSome converted
  obtain ⟨root, rest, hroot, hlines, hintact⟩ := stylesheet_intact_iff hpage
  -- the document is the label
  obtain rfl : familyLabel "Inter" = root :=
    Except.ok.inj ((ofJson_labelDocument "Inter").symm.trans hroot)
  refine ⟨page, rest, hpage, hlines, hintact.mpr fun v hv family hfamily => ?_⟩
  obtain rfl := List.mem_singleton.mp hv
  obtain rfl : "Inter" = family := Option.some.inj hfamily
  -- a family of letters is harmless
  have hall : "Inter".toList.all isHarmless = true := by simp [isHarmless]
  exact List.all_eq_true.mp hall

/-- A family that closes the rule it is written into and brings one of its own. -/
def breakout : String := "A'; \x7d body \x7b display: none; \x7d .x \x7b color: '"

/-- **A family can close its rule.** The stylesheet of the label is converted, and what follows its
preamble is not the rule of the label. -/
theorem breakout_not_intact : ∃ page, convertDocument 32 (labelDocument breakout) = .ok page
    ∧ ∀ rest, Text.lines page.css = Stylesheet.preamble 32 false ++ rest →
      ¬ List.Forall₂ Visit.IsWritten (rootVisits [familyLabel breakout]) rest := by
  have converted : (convertDocument 32 (labelDocument breakout)).toOption.isSome = true := by
    decide +kernel
  obtain ⟨page, hpage⟩ := exists_ok_of_isSome converted
  refine ⟨page, hpage, fun rest _ written => ?_⟩
  -- the line of the rule would have to be one line
  cases written with
  | cons hline _ =>
    have harmless : Harmless breakout := hline.harmless rfl
    have hsemicolon : isHarmless ';' = true := harmless ';' (by simp [breakout])
    cases hsemicolon

end Mockup
