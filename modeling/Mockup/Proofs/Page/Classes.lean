import Mathlib.Data.List.Pairwise
import Mockup.Proofs.Page.Hidden
import Mockup.Proofs.Text.Identifier

/-!
# Rules and the nodes that they match

A stylesheet is tied to a page by class names alone, and a class name is made of an identifier with
its separators replaced. So a rule matches the node that it was made for, and every other node on
the page whose identifier is alike.

* `map_className_shown` — the class names of visits are those of the places that a page shows;
* `classes_distinct_iff` — **the rules of a page have different class names exactly when no two
  identifiers on the page are alike**;
* `places_not_alike` — which is so when identifiers are different and have a single separator.
-/

namespace Mockup

/-- The class names of the visits of a page are those of the places that it shows. -/
theorem map_className_shown (root : Node) :
    (rootVisits root.roots).map Visit.className = root.shown.map Place.className := by
  calc (rootVisits root.roots).map Visit.className
      = ((rootVisits root.roots).map Visit.node).map fun node => Text.className node.id := by
        rw [List.map_map]; rfl
    _ = (root.shown.map Place.node).map fun node => Text.className node.id := by
        rw [map_node_shown]
    _ = root.shown.map Place.className := by rw [List.map_map]; rfl

/-- Two places have one class name exactly when their identifiers are alike. -/
theorem Place.className_eq_iff {p q : Place} :
    p.className = q.className ↔ Text.Alike p.node.id q.node.id :=
  Text.className_eq_iff

/-- **Class names are different exactly when no two identifiers are alike.** -/
theorem nodup_className_iff (places : List Place) :
    (places.map Place.className).Nodup
      ↔ places.Pairwise fun p q => ¬ Text.Alike p.node.id q.node.id := by
  rw [List.Nodup, List.pairwise_map]
  simp only [ne_eq, Place.className_eq_iff]

/-- Identifiers that are different and have a single separator are not alike. -/
theorem places_not_alike {root : Node} {separator : Char}
    (single : ∀ p ∈ root.places, ∀ c ∈ p.node.id.toList, Text.isSeparator c = true → c = separator)
    (different : root.places.Pairwise fun p q => p.node.id ≠ q.node.id) :
    root.places.Pairwise fun p q => ¬ Text.Alike p.node.id q.node.id := by
  refine different.imp_of_mem fun {p q} hp hq hpq halike => hpq ?_
  exact Text.eq_of_alike (single p hp) (single q hq) halike

section Matching

variable {rules : Stylesheet} {places shown : List Place}

/-- Rules with the class names of places, all of them different, match one place each. -/
theorem className_eq_iff_of_nodup (hclasses : rules.map Rule.className = places.map Place.className)
    (nodup : (rules.map Rule.className).Nodup) {i j : Nat} {rule : Rule} {p : Place}
    (hrule : rules[i]? = some rule) (hp : places[j]? = some p) :
    rule.className = p.className ↔ i = j := by
  -- the class name of the rule is at one index, that of the place at the other
  have hi : (rules.map Rule.className)[i]? = some rule.className := by
    rw [List.getElem?_map, hrule, Option.map_some]
  have hj : (rules.map Rule.className)[j]? = some p.className := by
    rw [hclasses, List.getElem?_map, hp, Option.map_some]
  obtain ⟨hlt, -⟩ := List.getElem?_eq_some_iff.mp hi
  constructor
  -- one name at two indices is one index
  · intro same
    exact (List.getElem?_inj hlt nodup).mp (by rw [hi, hj, same])
  -- at one index stands one name
  · rintro rfl
    exact Option.some.inj (hi.symm.trans hj)

/-- The class name of a place is not that of another one when no two identifiers are alike. -/
theorem className_notMem_of_not_alike
    (unlike : places.Pairwise fun p q => ¬ Text.Alike p.node.id q.node.id)
    (hsublist : shown.Sublist places) {p : Place} (hp : p ∈ places) (hidden : p ∉ shown) :
    p.className ∉ shown.map Place.className := by
  intro hmem
  obtain ⟨q, hq, hclass⟩ := List.mem_map.mp hmem
  have hne : q ≠ p := fun heq => hidden (heq ▸ hq)
  have symmetric : Std.Symm fun p q : Place => ¬ Text.Alike p.node.id q.node.id :=
    ⟨fun _ _ hpq hqp => hpq hqp.symm⟩
  exact unlike.forall (hsublist.subset hq) hp hne (Place.className_eq_iff.mp hclass)

end Matching

/-- **What the rules of a page match.** The rules have the class names of the places that the page
shows, in order. These are different exactly when no two identifiers on the page are alike. When no
two identifiers of the whole tree are alike, every rule matches one node, which is the one that it
was made for, and no rule has the class name of a node that the page does not show. -/
theorem classes_distinct_iff {gap : Int} {root : Node} {page : Conversion}
    (h : convert gap root = .ok page) :
    ∃ rules, page = assemble gap (root.roots.map Node.elements) rules
      ∧ rules.map .ok = (rootVisits root.roots).map Visit.rule
      ∧ rules.map Rule.className = root.shown.map Place.className
      ∧ root.shown.Sublist root.places
      ∧ ((rules.map Rule.className).Nodup
          ↔ root.shown.Pairwise fun p q => ¬ Text.Alike p.node.id q.node.id)
      ∧ ((root.places.Pairwise fun p q => ¬ Text.Alike p.node.id q.node.id) →
          (rules.map Rule.className).Nodup
          ∧ (∀ (i j : Nat) (rule : Rule) (p : Place), rules[i]? = some rule →
              root.shown[j]? = some p → (rule.className = p.className ↔ i = j))
          ∧ ∀ p ∈ root.places, p ∉ root.shown → ∀ rule ∈ rules, rule.className ≠ p.className) := by
  obtain ⟨rules, hfollow, hpage⟩ := convert_eq_ok h
  have hrules := (follow_none hfollow).2
  -- the rules are named after the places that are shown
  have hclasses : rules.map Rule.className = root.shown.map Place.className :=
    (map_className_of_rules hrules).trans (map_className_shown root)
  -- names differ when the ids are not alike
  have hdistinct : (rules.map Rule.className).Nodup
      ↔ root.shown.Pairwise fun p q => ¬ Text.Alike p.node.id q.node.id := by
    rw [hclasses, nodup_className_iff]
  have hsublist := shown_sublist_places root
  refine ⟨rules, hpage, hrules, hclasses, hsublist, hdistinct, fun unlike => ?_⟩
  -- what is shown is a part of the places, so it is unlike as well
  have nodup : (rules.map Rule.className).Nodup := hdistinct.mpr (unlike.sublist hsublist)
  refine ⟨nodup, fun i j rule p hrule hp => className_eq_iff_of_nodup hclasses nodup hrule hp, ?_⟩
  -- a hidden place has a name of its own
  intro p hp hidden rule hrule same
  have hmem : rule.className ∈ root.shown.map Place.className :=
    hclasses ▸ List.mem_map_of_mem hrule
  rw [same] at hmem
  exact className_notMem_of_not_alike unlike hsublist hp hidden hmem

/-- A frame with a label, and a hidden label that is not on its page. -/
def numberedFrame : Node :=
  { id := "1:1"
    children := some
      [{ id := "1:2", kind := .text }, { id := "1:3", kind := .text, visible := false }] }

/-- No two of its identifiers are alike: its two rules have different class names, and neither is
that of the hidden label. -/
theorem numberedFrame_classes : ∃ page rules, convert 32 numberedFrame = .ok page
    ∧ page = assemble 32 (numberedFrame.roots.map Node.elements) rules
    ∧ rules.map Rule.className = ["node-1-1", "node-1-2"]
    ∧ ∀ rule ∈ rules, rule.className ≠ "node-1-3" := by
  obtain ⟨page, hpage⟩ := exists_ok_of_isSome
    (show (convert 32 numberedFrame).toOption.isSome = true by decide +kernel)
  obtain ⟨rules, hmade, -, hclasses, -, -, hunlike⟩ := classes_distinct_iff hpage
  obtain ⟨-, -, hhidden⟩ := hunlike (by decide +kernel)
  have hshown : numberedFrame.shown.map Place.className = ["node-1-1", "node-1-2"] := by
    decide +kernel
  refine ⟨page, rules, hpage, hmade, hclasses.trans hshown, ?_⟩
  -- the hidden label is the last of the three places
  refine hhidden ⟨_, [numberedFrame]⟩ (.tail _ (.tail _ (.head _))) fun hmem => ?_
  -- and that label has another name than the two shown
  have habsent : "node-1-3" ∉ numberedFrame.shown.map Place.className := by rw [hshown]; decide
  exact habsent (List.mem_map_of_mem (f := Place.className) hmem)

/-- A frame and a box in it whose identifiers are different and alike. -/
def alikeFrame : Node :=
  { id := "1:1", kind := .frame, children := some [{ id := "1-1", kind := .rectangle }] }

/-- **Different identifiers do not make different rules.** The rule of the frame and that of the box
in it have one class name, so each of them matches both. -/
theorem alikeFrame_same_class :
    (alikeFrame.places.Pairwise fun p q => p.node.id ≠ q.node.id)
      ∧ ∃ page rules, convert 32 alikeFrame = .ok page
        ∧ page = assemble 32 (alikeFrame.roots.map Node.elements) rules
        ∧ rules.map .ok = (rootVisits alikeFrame.roots).map Visit.rule
        ∧ rules.map Rule.className = ["node-1-1", "node-1-1"]
        ∧ ¬ (rules.map Rule.className).Nodup := by
  -- the ids of the frame differ
  refine ⟨by decide +kernel, ?_⟩
  obtain ⟨page, hpage⟩ := exists_ok_of_isSome
    (show (convert 32 alikeFrame).toOption.isSome = true by decide +kernel)
  obtain ⟨rules, hfollow, hmade⟩ := convert_eq_ok hpage
  have hrules := (follow_none hfollow).2
  -- both places are shown under one name
  have hvisits : (rootVisits alikeFrame.roots).map Visit.className = ["node-1-1", "node-1-1"] := by
    decide +kernel
  have hclasses := (map_className_of_rules hrules).trans hvisits
  refine ⟨page, rules, hpage, hmade, hrules, hclasses, ?_⟩
  rw [hclasses]
  decide

end Mockup
