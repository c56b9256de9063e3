import Mockup.Page.Emission
import Mockup.Proofs.Outcome
import Mockup.Proofs.Page.Markup

/-!
# What a walk visits

`Node.emit` is a walk that builds elements, collects rules and may be ended by a fault at any depth.
This module separates the three. Which nodes are visited, with which parent, is a plain list
(`Node.visits`). What a visit adds, and what ends it, concerns that visit alone (`Visit.rule`,
`Visit.fault?`). What the walk yields when nothing ends it is a plain tree (`Node.elements`).

* `follow` — the first fault of a list of visits, and the rules up to it;
* `Emission.Follows` — a piece of the walk adds what a list of visits adds and ends as it ends;
* `Node.emit_follows` — **the walk follows its visits**.

`Emission.Follows` is the invariant of the walk: it composes, the lists of visits one after the
other, so the recursion of the walk becomes that of the list. Everything else about emission is read
off the list of visits, without looking at the walk again.
-/

namespace Mockup

/-! ### Visits -/

/-- **A visit**: a node, the node that it is placed in, and whether it is a root of the page. -/
structure Visit where
  node : Node
  parent : Option Node
  isRoot : Bool

namespace Visit

/-- The class that is given to the node. -/
def className (v : Visit) : String := Text.className v.node.id

/-- **The rule of a visit.** -/
def rule (v : Visit) : Result Rule :=
  return ⟨v.className, ← Style.block v.node v.parent v.isRoot⟩

/-- The rules that a visit adds: its own, unless that is faulty. -/
def ownRules (v : Visit) : Stylesheet :=
  match v.rule with
  | .ok rule => [rule]
  | .error _ => []

/-- What is wrong with the text of the node, if it is a label. -/
def textFault? (v : Visit) : Option Fault :=
  if v.node.isText then
    match v.node.labelText with
    | .ok _ => none
    | .error fault => some fault
  else none

/-- **What ends a visit**: a fault of its rule or, after that, of its text. -/
def fault? (v : Visit) : Option Fault :=
  match v.rule with
  | .ok _ => v.textFault?
  | .error fault => some fault

end Visit

mutual

/-- **The visits of a walk**, in order. Neither a hidden node nor what is below it is visited, and
neither is what is below a label. -/
def Node.visits (parent : Option Node) (isRoot : Bool) : Node → List Visit
  | ⟨t, children⟩ =>
    if t.visible then
      ⟨⟨t, children⟩, parent, isRoot⟩ ::
        if t.isText then []
        else match children with
          | none => []
          | some children => childVisits ⟨t, children⟩ children
    else []

/-- The visits of the children of a node. -/
def childVisits (parent : Node) : List Node → List Visit
  | [] => []
  | child :: rest => child.visits (some parent) false ++ childVisits parent rest

end

/-- The visits of the roots of a page, each its own parent. -/
def rootVisits (roots : List Node) : List Visit :=
  roots.flatMap fun root => root.visits (some root) true

/-- A walk over several trees that walks over one after the other is made of the walks over each. -/
theorem eq_flatMap_of_cons {α β : Type} {one : α → List β} {all : List α → List β}
    (nil : all [] = []) (cons : ∀ a rest, all (a :: rest) = one a ++ all rest) (items : List α) :
    all items = items.flatMap one := by
  induction items with
  | nil => exact nil
  | cons a rest ih => rw [cons, ih, List.flatMap_cons]

theorem childVisits_eq_flatMap (parent : Node) (children : List Node) :
    childVisits parent children = children.flatMap fun child => child.visits (some parent) false :=
  eq_flatMap_of_cons rfl (fun _ _ => rfl) children

/-- The visits of a node that is shown and is no label: its own, and those of its children. -/
theorem visits_of_box {t : Traits} (visible : t.visible = true) (notText : t.isText = false)
    (children : Option (List Node)) (parent : Option Node) (isRoot : Bool) :
    Node.visits parent isRoot ⟨t, children⟩
      = ⟨⟨t, children⟩, parent, isRoot⟩ :: childVisits ⟨t, children⟩ (children.getD []) := by
  cases children <;> simp [Node.visits, visible, notText, childVisits]

/-- The visits of a label that is shown. -/
theorem visits_of_label {t : Traits} (visible : t.visible = true) (isText : t.isText = true)
    (children : Option (List Node)) (parent : Option Node) (isRoot : Bool) :
    Node.visits parent isRoot ⟨t, children⟩ = [⟨⟨t, children⟩, parent, isRoot⟩] := by
  cases children <;> rw [Node.visits, if_pos visible, if_pos isText]

/-- A hidden node is not visited. -/
theorem visits_of_hidden {t : Traits} (hidden : t.visible = false)
    (children : Option (List Node)) (parent : Option Node) (isRoot : Bool) :
    Node.visits parent isRoot ⟨t, children⟩ = [] := by
  cases children <;> rw [Node.visits, if_neg (by simp [hidden])]

/-! ### Following visits -/

/-- **What a list of visits comes to**: the first fault, if any, and the rules added up to it. -/
def follow : List Visit → Option Fault × Stylesheet
  | [] => (none, [])
  | v :: rest =>
    match v.fault? with
    | some fault => (some fault, v.ownRules)
    | none => ((follow rest).1, v.ownRules ++ (follow rest).2)

/-- An outcome: a fault if there is one, and a value otherwise. -/
def outcome {α : Type} (fault : Option Fault) (a : α) : Result α :=
  match fault with
  | some fault => .error fault
  | none => .ok a

/-- Visits after visits: a fault of the first ones is the fault of all. -/
theorem follow_append (a b : List Visit) :
    follow (a ++ b) = match follow a with
      | (some fault, rules) => (some fault, rules)
      | (none, rules) => ((follow b).1, rules ++ (follow b).2) := by
  -- on the first list: a fault in it ends the walk before the second one
  induction a with
  | nil => rfl
  | cons v rest ih =>
    rw [List.cons_append, follow, follow, ih]
    cases v.fault? with
    | some fault => rfl
    | none =>
      -- the rest of the first list is without fault, or its fault hides the second list
      rcases follow rest with ⟨_ | fault, rules⟩
      · simp [List.append_assoc]
      · rfl

/-- Without a fault, every visit has its rule and the rules are all added. -/
theorem follow_none {visits : List Visit} {rules : Stylesheet} (h : follow visits = (none, rules)) :
    (∀ v ∈ visits, v.fault? = none) ∧ rules.map .ok = visits.map Visit.rule := by
  induction visits generalizing rules with
  | nil =>
    obtain rfl : [] = rules := congrArg Prod.snd h
    exact ⟨fun v hv => absurd hv List.not_mem_nil, rfl⟩
  | cons v rest ih =>
    rcases hrest : follow rest with ⟨first, later⟩
    rw [follow, hrest] at h
    cases hv : v.fault? with
    -- this visit would end the walk
    | some fault => rw [hv] at h; cases h
    | none =>
      rw [hv] at h
      obtain ⟨rfl, rfl⟩ := Prod.mk.inj h
      obtain ⟨hfaults, hrules⟩ := ih hrest
      refine ⟨List.forall_mem_cons.mpr ⟨hv, hfaults⟩, ?_⟩
      -- a visit without a fault has a rule
      cases hrule : v.rule with
      | error fault => simp [Visit.fault?, hrule] at hv
      | ok rule => simp [Visit.ownRules, hrule, hrules]

/-- With a fault, it is that of a visit; the rules are those of the visits before it and
its own. -/
theorem follow_some {visits : List Visit} {fault : Fault} {rules : Stylesheet}
    (h : follow visits = (some fault, rules)) :
    ∃ before failing after earlier, visits = before ++ failing :: after
      ∧ (∀ v ∈ before, v.fault? = none) ∧ failing.fault? = some fault
      ∧ earlier.map .ok = before.map Visit.rule ∧ rules = earlier ++ failing.ownRules := by
  induction visits generalizing rules with
  -- without visits there is no fault
  | nil => cases h
  | cons v rest ih =>
    rcases hrest : follow rest with ⟨first, later⟩
    rw [follow, hrest] at h
    cases hv : v.fault? with
    | some first =>
      -- this visit is the first faulty one
      rw [hv] at h
      obtain ⟨hfault, rfl⟩ := Prod.mk.inj h
      refine ⟨[], v, rest, [], rfl, fun u hu => absurd hu List.not_mem_nil, ?_, rfl, rfl⟩
      rw [hv, hfault]
    | none =>
      -- the first faulty one is further on, and the rule of this one comes before its rules
      rw [hv] at h
      obtain ⟨rfl, rfl⟩ := Prod.mk.inj h
      obtain ⟨before, failing, after, earlier, rfl, hbefore, hfailing, hearlier, rfl⟩ := ih hrest
      cases hrule : v.rule with
      | error fault => simp [Visit.fault?, hrule] at hv
      | ok rule =>
        refine ⟨v :: before, failing, after, rule :: earlier, rfl,
          List.forall_mem_cons.mpr ⟨hv, hbefore⟩, hfailing, by simp [hrule, hearlier], ?_⟩
        rw [Visit.ownRules, hrule]
        rfl

/-! ### What is built -/

/-- The text that a label shows: its characters, where they are a text. -/
def Traits.shownText (t : Traits) : String :=
  match t.characters with
  | .str text => text
  | _ => ""

theorem shownText_of_labelText {t : Traits} {text : String} (h : t.labelText = .ok text) :
    text = t.shownText := by
  unfold Traits.labelText Json.orElse at h
  unfold Traits.shownText
  -- characters that count as given are a text, or the label has none
  by_cases given : t.characters.truthy = true
  · rw [if_pos given] at h
    cases hc : t.characters with
    | str s => rw [hc] at h; exact (Except.ok.inj h).symm
    | _ => rw [hc] at h; cases h
  -- otherwise the label shows nothing
  · rw [if_neg given] at h
    obtain rfl : "" = text := Except.ok.inj h
    -- which is what empty characters and no characters come to as well
    cases hc : t.characters with
    | str s =>
      rw [hc] at given
      have hs : s = "" := by simpa [Json.truthy] using given
      exact hs.symm
    | _ => rfl

mutual

/-- **The elements of a node**, when nothing ends the walk. -/
def Node.elements : Node → List Element
  | ⟨t, children⟩ =>
    if t.visible then
      [if t.isText then .label (Text.className t.id) t.shownText
       else .box (Text.className t.id) (match children with
         | none => []
         | some children => elementsOf children)]
    else []

/-- The elements of nodes one after the other. -/
def elementsOf : List Node → List Element
  | [] => []
  | node :: rest => node.elements ++ elementsOf rest

end

theorem elements_of_box {t : Traits} (visible : t.visible = true) (notText : t.isText = false)
    (children : Option (List Node)) :
    Node.elements ⟨t, children⟩ = [.box (Text.className t.id) (elementsOf (children.getD []))] := by
  cases children <;> simp [Node.elements, visible, notText, elementsOf]

theorem elements_of_label {t : Traits} (visible : t.visible = true) (isText : t.isText = true)
    (children : Option (List Node)) :
    Node.elements ⟨t, children⟩ = [.label (Text.className t.id) t.shownText] := by
  cases children <;> rw [Node.elements, if_pos visible, if_pos isText]

theorem elements_of_hidden {t : Traits} (hidden : t.visible = false)
    (children : Option (List Node)) : Node.elements ⟨t, children⟩ = [] := by
  cases children <;> rw [Node.elements, if_neg (by simp [hidden])]

/-! ### The walk follows its visits -/

/-- **A piece of the walk follows a list of visits**: from every stylesheet it adds the rules that
the visits add, and ends with a value or a fault as they do. -/
def Emission.Follows {α : Type} (work : Emission α) (visits : List Visit) (a : α) : Prop :=
  ∀ start : Stylesheet,
    work.runFrom start = (outcome (follow visits).1 a, start ++ (follow visits).2)

namespace Emission.Follows

variable {α β : Type}

theorem pure (a : α) : Emission.Follows (Pure.pure a) [] a := by
  intro start
  simp [follow, outcome]

/-- Pieces of the walk follow their visits one after the other. -/
theorem bind {work : Emission α} {next : α → Emission β} {visits more : List Visit} {a : α} {b : β}
    (first : Emission.Follows work visits a) (second : Emission.Follows (next a) more b) :
    Emission.Follows (work >>= next) (visits ++ more) b := by
  intro start
  rw [Work.runFrom_bind, first start, follow_append]
  rcases follow visits with ⟨_ | fault, rules⟩
  · simp only [outcome]
    rw [second (start ++ rules), List.append_assoc]
    rfl
  · rfl

/-- A value made of the value of a piece of the walk. -/
theorem map {work : Emission α} {visits : List Visit} {a : α} (first : Emission.Follows work visits a)
    (f : α → β) : Emission.Follows (do return f (← work)) visits (f a) := by
  have h : Emission.Follows (work >>= fun a => Pure.pure (f a)) (visits ++ []) (f a) :=
    first.bind (pure (f a))
  rwa [List.append_nil] at h

end Emission.Follows

/-- The work that adds the rule of a visit. -/
def Visit.addRule (v : Visit) : Emission Unit := do
  Emission.addRule ⟨v.className, ← Work.ofResult (Style.block v.node v.parent v.isRoot)⟩

theorem emit_of_box {t : Traits} (visible : t.visible = true) (notText : t.isText = false)
    (children : Option (List Node)) (parent : Option Node) (isRoot : Bool) :
    Node.emit parent isRoot ⟨t, children⟩ = do
      Visit.addRule ⟨⟨t, children⟩, parent, isRoot⟩
      return [.box (Text.className t.id) (← emitChildren ⟨t, children⟩ (children.getD []))] := by
  rw [Node.emit, if_pos visible, Visit.addRule, bind_assoc]
  refine bind_congr fun block => bind_congr fun _ => ?_
  rw [if_neg (by simp [notText])]
  cases children <;> rfl

theorem emit_of_label {t : Traits} (visible : t.visible = true) (isText : t.isText = true)
    (children : Option (List Node)) (parent : Option Node) (isRoot : Bool) :
    Node.emit parent isRoot ⟨t, children⟩ = do
      Visit.addRule ⟨⟨t, children⟩, parent, isRoot⟩
      return [.label (Text.className t.id) (← Work.ofResult t.labelText)] := by
  rw [Node.emit, if_pos visible, Visit.addRule, bind_assoc]
  refine bind_congr fun block => bind_congr fun _ => ?_
  rw [if_pos isText]

theorem emit_of_hidden {t : Traits} (hidden : t.visible = false)
    (children : Option (List Node)) (parent : Option Node) (isRoot : Bool) :
    Node.emit parent isRoot ⟨t, children⟩ = pure [] := by
  rw [Node.emit, if_neg (by simp [hidden])]

/-- Adding the rule of a visit, run from a stylesheet. -/
theorem Visit.runFrom_addRule (v : Visit) (start : Stylesheet) :
    v.addRule.runFrom start = match v.rule with
      | .ok rule => (.ok (), start ++ [rule])
      | .error fault => (.error fault, start) := by
  rw [Visit.addRule, Work.runFrom_ofResult_bind, Visit.rule]
  cases Style.block v.node v.parent v.isRoot <;> rfl

/-- The visit of a node that is no label: its rule. -/
theorem follows_of_box {v : Visit} (notText : v.node.isText = false) :
    Emission.Follows v.addRule [v] () := by
  intro start
  rw [Visit.runFrom_addRule, follow, Visit.fault?, Visit.textFault?, Visit.ownRules]
  cases v.rule with
  | error fault => simp [outcome]
  | ok rule => simp [notText, follow, outcome]

/-- The visit of a label: its rule and its text. -/
theorem follows_of_label {v : Visit} (isText : v.node.isText = true) :
    Emission.Follows (do
      v.addRule
      return [Element.label v.className (← Work.ofResult v.node.labelText)])
      [v] [.label v.className v.node.shownText] := by
  -- the visit is that of the rule, and then of the text
  intro start
  rw [Work.runFrom_bind, Visit.runFrom_addRule, follow, Visit.fault?, Visit.textFault?,
    Visit.ownRules]
  cases v.rule with
  -- without a rule the text is not asked for
  | error fault => simp [outcome]
  | ok rule =>
    -- the rule is added before the text is asked for, so it stays when the text is faulty
    simp only [Work.runFrom_ofResult_bind, isText]
    cases htext : v.node.labelText with
    | error fault => rfl
    | ok text =>
      rw [shownText_of_labelText htext]
      rfl

theorem emitChildren_follows (parent : Node) {children : List Node}
    (h : ∀ child ∈ children, ∀ parent isRoot,
      Emission.Follows (child.emit parent isRoot) (child.visits parent isRoot) child.elements) :
    Emission.Follows (emitChildren parent children) (childVisits parent children)
      (elementsOf children) := by
  induction children with
  | nil => exact .pure []
  | cons child rest ih =>
    have hchild := h child List.mem_cons_self (some parent) false
    have hrest := ih fun c hc => h c (List.mem_cons_of_mem _ hc)
    rw [emitChildren, childVisits, elementsOf]
    exact hchild.bind (hrest.map (child.elements ++ ·))

/-- **The walk follows its visits.** -/
theorem Node.emit_follows (node : Node) : ∀ (parent : Option Node) (isRoot : Bool),
    Emission.Follows (node.emit parent isRoot) (node.visits parent isRoot) node.elements := by
  induction node using Node.induction with
  | step t children ih =>
    intro parent isRoot
    -- the walk, its visits and its elements make the same three cases
    cases visible : t.visible with
    -- a hidden node is not entered
    | false =>
      rw [emit_of_hidden visible, visits_of_hidden visible, elements_of_hidden visible]
      exact .pure []
    | true =>
      cases isText : t.isText with
      -- a label is its own visit
      | true =>
        rw [emit_of_label visible isText, visits_of_label visible isText,
          elements_of_label visible isText]
        exact follows_of_label isText
      | false =>
        -- a box is visited before its children
        rw [emit_of_box visible isText, visits_of_box visible isText,
          elements_of_box visible isText, ← List.singleton_append]
        exact (follows_of_box isText).bind
          ((emitChildren_follows ⟨t, children⟩ ih).map fun content =>
            [Element.box (Text.className t.id) content])

/-- The walk over the roots of a page follows the visits of each. -/
theorem emitRoots_follows (roots : List Node) :
    Emission.Follows (emitRoots roots) (rootVisits roots) (roots.map Node.elements) := by
  induction roots with
  | nil => exact .pure []
  | cons root rest ih =>
    rw [emitRoots, rootVisits, List.flatMap_cons, List.map_cons]
    exact (root.emit_follows (some root) true).bind (ih.map (root.elements :: ·))

/-! ### Classes -/

/-- The class of a node is the name of a class, whatever its identifier. -/
theorem isClassName_className (id : String) : IsClassName (Text.className id).toList := by
  have hid : ∀ c ∈ (Text.identifier id).toList, Text.isNameChar c = true := by
    intro c hc
    rw [Text.identifier, String.toList_ofList] at hc
    obtain ⟨d, -, rfl⟩ := List.mem_map.mp hc
    -- a character that names do not have is replaced by one that they have
    split
    · assumption
    · decide
  -- the mark at the front is made of such characters too
  have hmark : "node-".toList = ['n', 'o', 'd', 'e', '-'] := by rfl
  rw [Text.className, String.toList_append, hmark]
  refine ⟨by simp, fun c hc => ?_⟩
  rcases List.mem_append.mp hc with hc | hc
  · have hmark : ['n', 'o', 'd', 'e', '-'].all Text.isNameChar = true := by decide
    exact List.all_eq_true.mp hmark c hc
  · exact hid c hc

/-- The elements of a node have the classes of its visits. -/
theorem classNamesOf_elements (node : Node) : ∀ (parent : Option Node) (isRoot : Bool),
    Element.classNamesOf node.elements = (node.visits parent isRoot).map Visit.className := by
  induction node using Node.induction with
  | step t children ih =>
    intro parent isRoot
    cases visible : t.visible with
    -- nothing is left of a hidden node, neither a visit nor an element
    | false => rw [visits_of_hidden visible, elements_of_hidden visible]; rfl
    | true =>
      cases isText : t.isText with
      | true => rw [visits_of_label visible isText, elements_of_label visible isText]; rfl
      | false =>
        -- over any part of the children, so that the induction is on the part
        have hchildren : ∀ nodes : List Node, (∀ c ∈ nodes, c ∈ children.getD []) →
            Element.classNamesOf (elementsOf nodes)
              = (childVisits ⟨t, children⟩ nodes).map Visit.className := by
          intro nodes
          induction nodes with
          | nil => intro _; rfl
          | cons child rest ihrest =>
            intro hmem
            rw [elementsOf, childVisits, Element.classNamesOf_append, List.map_append,
              ih child (hmem child List.mem_cons_self) (some ⟨t, children⟩) false,
              ihrest fun c hc => hmem c (List.mem_cons_of_mem _ hc)]
        -- the class of the box comes first on both sides
        rw [visits_of_box visible isText, elements_of_box visible isText, List.map_cons,
          ← hchildren (children.getD []) fun _ hc => hc, Element.classNamesOf, Element.classNames,
          Element.classNamesOf, List.append_nil]
        rfl

/-- The classes of the elements of a node are names. -/
theorem isClassName_of_mem_elements (node : Node) :
    ∀ name ∈ Element.classNamesOf node.elements, IsClassName name.toList := by
  intro name hname
  rw [classNamesOf_elements node none false] at hname
  obtain ⟨v, -, rfl⟩ := List.mem_map.mp hname
  exact isClassName_className _

/-! ### What emission appends -/

/-- **Emission appends the rules of its visits.** It changes nothing that was there. When it
succeeds, no visit is faulty, the rules added are those of the visits, and the class attributes of
the markup are their classes, all in order. When it fails, it is with the fault of the first faulty
visit: the rules added are those of the visits before, and the rule of that visit as well exactly
when it is the text that is faulty. -/
theorem emit_appends_visits (node : Node) (parent : Option Node) (isRoot : Bool)
    (start : Stylesheet) :
    match (node.emit parent isRoot).runFrom start with
    | (.ok elements, rules) =>
      ∃ appended, rules = start ++ appended
        ∧ (∀ v ∈ node.visits parent isRoot, v.fault? = none)
        ∧ appended.map .ok = (node.visits parent isRoot).map Visit.rule
        ∧ Token.classNames? (Element.renderAll elements)
          = some ((node.visits parent isRoot).map Visit.className)
    | (.error fault, rules) =>
      ∃ before failing after earlier, node.visits parent isRoot = before ++ failing :: after
        ∧ (∀ v ∈ before, v.fault? = none)
        ∧ earlier.map .ok = before.map Visit.rule
        ∧ (failing.rule = .error fault ∧ rules = start ++ earlier
          ∨ ∃ own, failing.rule = .ok own ∧ failing.textFault? = some fault
            ∧ rules = start ++ earlier ++ [own]) := by
  rw [node.emit_follows parent isRoot start]
  rcases hfollow : follow (node.visits parent isRoot) with ⟨_ | fault, rules⟩
  · -- no visit is faulty: what is left are the classes, which the markup is read back to
    obtain ⟨hfaults, hrules⟩ := follow_none hfollow
    refine ⟨rules, rfl, hfaults, hrules, ?_⟩
    rw [← classNamesOf_elements node parent isRoot]
    exact Element.classNames?_renderAll (isClassName_of_mem_elements node)
  -- the first faulty visit, with those before it
  · obtain ⟨before, failing, after, earlier, hsplit, hbefore, hfailing, hearlier, rfl⟩ :=
      follow_some hfollow
    refine ⟨before, failing, after, earlier, hsplit, hbefore, hearlier, ?_⟩
    -- what is faulty of the visit is its rule or, when it has one, its text
    rw [Visit.fault?] at hfailing
    rw [Visit.ownRules]
    cases hrule : failing.rule with
    -- without a rule nothing of the visit is in the stylesheet
    | error first =>
      rw [hrule] at hfailing
      exact .inl ⟨congrArg _ (Option.some.inj hfailing), by rw [List.append_nil]⟩
    | ok own =>
      -- with one, the rule was added before the text failed
      rw [hrule] at hfailing
      exact .inr ⟨own, rfl, hfailing, by rw [List.append_assoc]⟩

end Mockup
