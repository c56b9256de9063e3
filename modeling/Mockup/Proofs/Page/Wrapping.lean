import Mockup.Proofs.Page.Hidden

/-!
# The box around several artboards

Several artboards stand in a box of their own, and the stylesheet has a rule for the box. A single
artboard stands alone. Whether there are several is decided before the walk over them, so artboards
that turn out to be hidden are counted as well. This module says what the count makes of a page, and
when that is what the page shows:

* `Conversion.IsWrapped`, `Conversion.HasContainerRule` — a page that stands in the box, and a
  stylesheet that has its rule;
* `Conversion.WrapsShown` — **the law of the box**: it is there exactly when at least two fragments
  of the page are not empty, and the only fragment that is not empty is the page;
* `isWrapped_assemble_iff`, `hasContainerRule_iff` — what decides is the number of roots;
* `wraps_shown_iff` — **so the law holds exactly for the trees that have no second root, or two that
  are not hidden.**

The classes of nodes begin with another letter than that of the box. So the markup of a node is
never taken for the box, and the rule of a node never for its rule.
-/

namespace Mockup

/-! ### The box -/

/-- **A page stands in the box** for several artboards. -/
def Conversion.IsWrapped (page : Conversion) : Prop :=
  ∃ content, page.html = Element.enclose Stylesheet.containerClass content

/-- **A stylesheet has the rule of the box**, after the rules that every page has. -/
def Conversion.HasContainerRule (page : Conversion) (gap : Int) : Prop :=
  (Stylesheet.base ++ "\n" ++ Stylesheet.container gap).toList <+: page.css.toList

/-- The fragments that show something. -/
def shownFragments (fragments : List String) : List String := fragments.filter (· ≠ "")

/-- **The law of the box**, for the fragments of the roots of a page: the box and its rule are there
exactly when at least two of them show something, and when only one does, the page is that
fragment. -/
structure Conversion.WrapsShown (page : Conversion) (gap : Int) (fragments : List String) :
    Prop where
  wrapped : page.IsWrapped ↔ 2 ≤ (shownFragments fragments).length
  rule : page.HasContainerRule gap ↔ 2 ≤ (shownFragments fragments).length
  alone : ∀ fragment, shownFragments fragments = [fragment] → page.html = fragment

/-! ### Classes of nodes and the class of the box -/

/-- The first letter of the class of a node. -/
theorem toList_className (id : String) :
    ∃ rest, (Text.className id).toList = 'n' :: rest := by
  have hmark : "node-".toList = ['n', 'o', 'd', 'e', '-'] := by rfl
  rw [Text.className, String.toList_append, hmark]
  exact ⟨_, rfl⟩

/-- The first letter of the class of the box. -/
theorem toList_containerClass : ∃ rest, Stylesheet.containerClass.toList = 'a' :: rest :=
  ⟨_, rfl⟩

/-- The markup of a node is not that of the box. -/
theorem enclose_className_ne (id content inner : String) :
    Element.enclose (Text.className id) content
      ≠ Element.enclose Stylesheet.containerClass inner := by
  intro h
  obtain ⟨nodeRest, hnode⟩ := toList_className id
  obtain ⟨boxRest, hbox⟩ := toList_containerClass
  -- the two agree up to the first letter of the class
  have hlists := congrArg String.toList h
  simp only [Element.enclose, String.toList_append, hnode, hbox, List.append_assoc] at hlists
  have hrest := List.append_cancel_left hlists
  rw [List.cons_append, List.cons_append] at hrest
  exact absurd (List.cons.inj hrest).1 (by decide)

/-! ### Fragments -/

/-- The fragment of a node that is not hidden has the class of the node. -/
theorem renderAll_elements_of_visible {node : Node} (visible : node.visible = true) :
    ∃ content, Element.renderAll node.elements
      = Element.enclose (Text.className node.id) content := by
  obtain ⟨t, children⟩ := node
  cases isText : t.isText with
  | true =>
    refine ⟨Text.escape t.shownText, ?_⟩
    rw [elements_of_label visible isText, Element.renderAll, Element.renderAll, Element.render,
      String.append_empty]
  | false =>
    refine ⟨Element.renderAll (elementsOf (children.getD [])), ?_⟩
    rw [elements_of_box visible isText, Element.renderAll, Element.renderAll, Element.render,
      String.append_empty]

theorem renderAll_elements_of_hidden {node : Node} (hidden : node.visible = false) :
    Element.renderAll node.elements = "" := by
  obtain ⟨t, children⟩ := node
  rw [elements_of_hidden hidden, Element.renderAll]

/-- A node shows something exactly when it is not hidden. -/
theorem renderAll_elements_ne_empty_iff (node : Node) :
    Element.renderAll node.elements ≠ "" ↔ node.visible = true := by
  cases visible : node.visible with
  | false => simp [renderAll_elements_of_hidden visible]
  | true =>
    obtain ⟨content, hcontent⟩ := renderAll_elements_of_visible visible
    have hopening : Element.enclose (Text.className node.id) content ≠ "" := by
      intro h
      have hlength := congrArg (fun text : String => text.toList.length) h
      simp [Element.enclose] at hlength
    rw [hcontent]
    exact ⟨fun _ => rfl, fun _ => hopening⟩

/-- The fragments that show something are those of the roots that are not hidden. -/
theorem shownFragments_map_elements (roots : List Node) :
    shownFragments ((roots.map Node.elements).map Element.renderAll)
      = (roots.filter (·.visible)).map fun root => Element.renderAll root.elements := by
  induction roots with
  | nil => rfl
  | cons root rest ih =>
    -- a root shows something exactly when it is visible
    have hroot := renderAll_elements_ne_empty_iff root
    rw [shownFragments] at ih ⊢
    rw [List.map_cons, List.map_cons, List.filter_cons, List.filter_cons, ih]
    cases visible : root.visible with
    | false =>
      -- the empty fragment of a hidden root is left out on both sides
      rw [if_neg (by simp [renderAll_elements_of_hidden visible]), if_neg (by decide)]
    | true =>
      rw [if_pos (by simpa using hroot.mpr visible), if_pos rfl, List.map_cons]

/-- The markup of a single root is its fragment. -/
theorem renderAll_elementsOf_of_single {roots : List Node} {fragment : String}
    (single : ¬ 1 < roots.length)
    (h : shownFragments ((roots.map Node.elements).map Element.renderAll) = [fragment]) :
    Element.renderAll (elementsOf roots) = fragment := by
  rw [shownFragments_map_elements] at h
  -- there is one root at most, and with none there are no fragments
  match roots, single with
  | [], _ => cases h
  | [root], _ =>
    rw [elementsOf, elementsOf, List.append_nil]
    cases visible : root.visible with
    | false => rw [List.filter_cons, if_neg (by simp [visible])] at h; cases h
    | true =>
      rw [List.filter_cons, if_pos visible] at h
      exact (List.cons.inj h).1
  | _ :: _ :: rest, single => exact absurd (by simp) single

/-! ### What the number of roots decides -/

/-- **The page stands in the box exactly when it has several roots.** -/
theorem isWrapped_assemble_iff (gap : Int) (roots : List Node) (rules : Stylesheet) :
    (assemble gap (roots.map Node.elements) rules).IsWrapped ↔ 1 < roots.length := by
  rw [Conversion.IsWrapped, html_assemble, pageElements]
  constructor
  -- a page without a container is empty or begins as its only root does
  · rintro ⟨inner, hinner⟩
    by_contra single
    rw [if_neg single] at hinner
    rcases roots with _ | ⟨root, _ | ⟨next, rest⟩⟩
    -- nothing is shorter than a container
    · have hlength := congrArg (fun text : String => text.toList.length) hinner
      simp [elementsOf, Element.renderAll, Element.enclose] at hlength
    · rw [elementsOf, elementsOf, List.append_nil] at hinner
      -- neither is the fragment of a hidden root
      cases visible : root.visible with
      | false =>
        rw [renderAll_elements_of_hidden visible] at hinner
        have hlength := congrArg (fun text : String => text.toList.length) hinner
        simp [Element.enclose] at hlength
      -- and the class of a visible root is not that of the container
      | true =>
        obtain ⟨content, hcontent⟩ := renderAll_elements_of_visible visible
        exact enclose_className_ne root.id content inner (hcontent.symm.trans hinner)
    · exact single (by simp)
  -- several roots are put into the container
  · intro several
    refine ⟨Element.renderAll (elementsOf roots), ?_⟩
    rw [if_pos several, Element.renderAll, Element.renderAll, Element.render, String.append_empty]

/-- A rule begins with the class that it is about. -/
theorem toList_render_cons (rule : Rule) (rest : Stylesheet) :
    ∃ tail, (Stylesheet.render (rule :: rest)).toList = '.' :: rule.className.toList ++ tail := by
  have hdot : ".".toList = ['.'] := by rfl
  -- the text of a rule begins with its selector
  have hrule : ∃ tail, rule.render.toList = '.' :: rule.className.toList ++ tail := by
    rw [Rule.render, Rule.braced, String.toList_append, String.toList_append, String.toList_append,
      String.toList_append, hdot]
    simp only [List.append_assoc, List.cons_append, List.nil_append]
    exact ⟨_, rfl⟩
  obtain ⟨tail, htail⟩ := hrule
  rw [Stylesheet.render, List.map_cons]
  -- either the rule is the last one or others follow
  cases rest with
  | nil => exact ⟨tail, by rw [List.map_nil, String.intercalate_singleton, htail]⟩
  | cons next others =>
    rw [List.map_cons, String.intercalate_cons_cons, String.toList_append, String.toList_append,
      htail, List.append_assoc, List.append_assoc]
    exact ⟨_, rfl⟩

/-- The rule of the box does not stand where the rule of a node stands. -/
theorem not_container_prefix_render (gap : Int) {rule : Rule} {id : String}
    (h : rule.className = Text.className id) (rest : Stylesheet) :
    ¬ (Stylesheet.container gap).toList <+: (Stylesheet.render (rule :: rest)).toList := by
  rintro ⟨after, hafter⟩
  have hdot : ".".toList = ['.'] := by rfl
  obtain ⟨tail, htail⟩ := toList_render_cons rule rest
  obtain ⟨nodeRest, hnode⟩ := toList_className id
  -- a class of a node and that of the container differ from the sixth letter on
  obtain ⟨boxRest, hbox⟩ := toList_containerClass
  -- after the dot, one selector goes on as the class of the box and the other as that of a node
  rw [htail, h, hnode, Stylesheet.container, Rule.braced, String.toList_append,
    String.toList_append, String.toList_append, String.toList_append, hdot, hbox] at hafter
  simp only [List.cons_append, List.nil_append] at hafter
  have hletters := (List.cons.inj (List.cons.inj hafter).2).1
  exact absurd hletters (by decide)

/-- What comes after the first of several texts. -/
theorem prefix_intercalate_cons_cons (first line next : String) (others : List String) :
    (first ++ "\n" ++ line).toList <+: ("\n".intercalate (first :: next :: others)).toList
      ↔ line.toList <+: ("\n".intercalate (next :: others)).toList := by
  rw [String.intercalate_cons_cons, String.toList_append (s := first ++ "\n"),
    String.toList_append (s := first ++ "\n")]
  exact List.prefix_append_right_inj _

/-- **The stylesheet has the rule of the box exactly when the page has several roots.** -/
theorem hasContainerRule_iff (gap : Int) {roots : List Node} {rules : Stylesheet}
    (h : rules.map .ok = (rootVisits roots).map Visit.rule) :
    (assemble gap (roots.map Node.elements) rules).HasContainerRule gap ↔ 1 < roots.length := by
  rw [Conversion.HasContainerRule, assemble]
  dsimp only
  rw [List.length_map]
  -- with several roots the rule of the container is in front of the others
  by_cases several : 1 < roots.length
  · rw [if_pos (by simpa using several), List.append_assoc, List.singleton_append,
      List.singleton_append, prefix_intercalate_cons_cons]
    refine ⟨fun _ => several, fun _ => ?_⟩
    cases rules with
    | nil => exact ⟨[], by simp⟩
    | cons rule rest =>
      rw [if_neg (by simp), String.intercalate_cons_cons, String.toList_append,
        String.toList_append, List.append_assoc]
      exact List.prefix_append _ _
  -- with one root the first rule, if there is any, is that of a node
  · rw [if_neg (by simpa using several), List.append_nil, List.singleton_append]
    refine ⟨fun hprefix => absurd hprefix ?_, fun h => absurd h several⟩
    cases rules with
    | nil =>
      -- there is nothing after the rules that every page has
      intro hprefix
      have newline : "\n".toList.length = 1 := by decide
      have hlength := hprefix.length_le
      rw [if_pos List.isEmpty_nil, String.intercalate_singleton, String.toList_append,
        String.toList_append, List.length_append, List.length_append] at hlength
      omega
    | cons rule rest =>
      obtain ⟨v, others, -, hclass, -⟩ := List.map_eq_cons_iff.mp (map_className_of_rules h).symm
      rw [if_neg (by simp), prefix_intercalate_cons_cons, String.intercalate_singleton]
      exact not_container_prefix_render gap hclass.symm rest

/-! ### The law -/

/-- **The law of the box holds exactly for the trees that do not hide it.** What the walk yields is
one fragment for each root. The page stands in the box, and its stylesheet has the rule of the box,
exactly when there are several roots, hidden or not. So the law holds unless there are several roots
and fewer than two of them are not hidden. -/
theorem wraps_shown_iff {gap : Int} {root : Node} {page : Conversion}
    (h : convert gap root = .ok page) :
    ∃ fragments rules, (emitRoots root.roots).runFrom [] = (.ok fragments, rules)
      ∧ fragments.length = root.roots.length
      ∧ (page.IsWrapped ↔ 1 < root.roots.length)
      ∧ (page.HasContainerRule gap ↔ 1 < root.roots.length)
      ∧ (page.WrapsShown gap (fragments.map Element.renderAll)
          ↔ (1 < root.roots.length → 2 ≤ (root.roots.filter (·.visible)).length)) := by
  obtain ⟨rules, hfollow, rfl⟩ := convert_eq_ok h
  have hwrapped := isWrapped_assemble_iff gap root.roots rules
  have hrule := hasContainerRule_iff gap (follow_none hfollow).2
  -- a fragment shows something for each visible root
  have hshown : (shownFragments ((root.roots.map Node.elements).map Element.renderAll)).length
      = (root.roots.filter (·.visible)).length := by
    rw [shownFragments_map_elements, List.length_map]
  have hfew : (root.roots.filter (·.visible)).length ≤ root.roots.length :=
    List.length_filter_le _ _
  refine ⟨root.roots.map Node.elements, rules, ?_, List.length_map _, hwrapped, hrule, ?_, ?_⟩
  · rw [emitRoots_follows, hfollow]
    rfl
  -- what is wrapped has two visible roots at least, by the law
  · intro law several
    have hcount := law.wrapped.mp (hwrapped.mpr several)
    rwa [hshown] at hcount
  -- conversely the numbers of roots and of visible ones ask for the same
  · intro unhidden
    have hcount : 1 < root.roots.length ↔ 2 ≤ (root.roots.filter (·.visible)).length :=
      ⟨unhidden, fun two => by omega⟩
    refine ⟨?_, ?_, ?_⟩
    · rw [hwrapped, hshown, hcount]
    · rw [hrule, hshown, hcount]
    · intro fragment hfragment
      have hone := congrArg List.length hfragment
      rw [hshown, List.length_singleton] at hone
      -- only one fragment shows something, so there is one root and the page is its fragment
      have single : ¬ 1 < root.roots.length := fun several => by
        have htwo := unhidden several
        omega
      rw [html_assemble, pageElements, if_neg single]
      exact renderAll_elementsOf_of_single single hfragment

/-- A canvas with three artboards, one of them hidden. -/
def twoShown : Node :=
  { id := "0:1", kind := .canvas, children := some [
    { id := "1:1" }, { id := "1:2", visible := false }, { id := "1:3", kind := .component }] }

/-- Two of its artboards show something, so they stand in the box. -/
theorem twoShown_wraps : ∃ page, convert 32 twoShown = .ok page
    ∧ page.html = "<div class=\"artboards-container\"><div class=\"node-1-1\"></div>"
      ++ "<div class=\"node-1-3\"></div></div>"
    ∧ ∃ fragments rules, (emitRoots twoShown.roots).runFrom [] = (.ok fragments, rules)
      ∧ fragments.map Element.renderAll
        = ["<div class=\"node-1-1\"></div>", "", "<div class=\"node-1-3\"></div>"]
      ∧ page.WrapsShown 32 (fragments.map Element.renderAll) := by
  -- the page and the fragments of the document are computed
  have converted : ((convert 32 twoShown).toOption.map Conversion.html)
      = some ("<div class=\"artboards-container\"><div class=\"node-1-1\"></div>"
        ++ "<div class=\"node-1-3\"></div></div>") := by decide +kernel
  have walked : (((emitRoots twoShown.roots).runFrom []).1.toOption.map (·.map Element.renderAll))
      = some ["<div class=\"node-1-1\"></div>", "", "<div class=\"node-1-3\"></div>"] := by
    decide +kernel
  obtain ⟨page, hpage, hhtml⟩ := Option.map_eq_some_iff.mp converted
  obtain ⟨fragments, rules, hrun, -, -, -, hlaw⟩ := wraps_shown_iff (eq_ok_of_toOption hpage)
  rw [hrun] at walked
  refine ⟨page, eq_ok_of_toOption hpage, hhtml, fragments, rules, hrun,
    Option.some.inj walked, hlaw.mpr fun _ => ?_⟩
  decide +kernel

/-- A canvas with two artboards, one of them hidden. -/
def oneShown : Node :=
  { id := "0:1", kind := .canvas, children := some [{ id := "1:1" }, { id := "1:2", visible := false }] }

/-- **A hidden artboard is counted.** One fragment shows something, and the page is not that
fragment: it stands in the box. -/
theorem oneShown_wrapped : ∃ page, convert 32 oneShown = .ok page
    ∧ page.html = "<div class=\"artboards-container\"><div class=\"node-1-1\"></div></div>"
    ∧ ∃ fragments rules, (emitRoots oneShown.roots).runFrom [] = (.ok fragments, rules)
      ∧ shownFragments (fragments.map Element.renderAll) = ["<div class=\"node-1-1\"></div>"]
      ∧ page.IsWrapped ∧ ¬ page.WrapsShown 32 (fragments.map Element.renderAll) := by
  -- again computed: the page has a container, and one fragment shows something
  have converted : ((convert 32 oneShown).toOption.map Conversion.html)
      = some "<div class=\"artboards-container\"><div class=\"node-1-1\"></div></div>" := by
    decide +kernel
  have walked : (((emitRoots oneShown.roots).runFrom []).1.toOption.map
      fun fragments => shownFragments (fragments.map Element.renderAll))
      = some ["<div class=\"node-1-1\"></div>"] := by decide +kernel
  obtain ⟨page, hpage, hhtml⟩ := Option.map_eq_some_iff.mp converted
  obtain ⟨fragments, hfragments, hshown⟩ := Option.map_eq_some_iff.mp walked
  refine ⟨page, eq_ok_of_toOption hpage, hhtml, fragments, _,
    Prod.ext (eq_ok_of_toOption hfragments) rfl, hshown, ⟨"<div class=\"node-1-1\"></div>", hhtml⟩, ?_⟩
  -- by the law, the page would be the fragment
  intro law
  have halone := law.alone _ hshown
  rw [hhtml] at halone
  exact absurd halone (by decide)

end Mockup
