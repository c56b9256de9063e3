import Mockup.Proofs.Page.Reach

/-!
# A page, read back

What a conversion writes can be read back to the nodes that it shows, whatever their identifiers and
texts are. The page is read by `Markup.read?`, which knows of tags and nothing of documents, and
what it reads is compared with the tree that was converted:

* `Node.ShownBy` — a division shows a node: its class is that of the node, and its content shows
  the children, or decodes to the characters if the node is a label;
* `ShownByAll` — divisions one after the other show nodes one after the other, hidden ones left out;
* `convert_reads_back` — the page of a tree is read as divisions that show its roots.

The comparison never mentions `Element` or `Text.escape`: a text that looks like a tag or an entity
would be read as one if it were not encoded.
-/

namespace Mockup

/-! ### Divisions that show nodes -/

mutual

/-- **A division shows a node.** Its class is that of the node. If the node is a label, there are no
divisions inside, and the source of the content decodes to the characters of the label; otherwise the
content shows the children. -/
def Node.ShownBy : Node → Markup → Prop
  | ⟨t, children⟩, piece =>
    ∃ content, piece = .division (Text.className t.id) content ∧
      if t.isText then
        (∀ inner ∈ content, ∀ name within, inner ≠ .division name within)
          ∧ Text.decode (Markup.source content) = t.shownText.toList
      else match children with
        | none => content = []
        | some children => ShownByAll children content

/-- **Divisions show nodes**, one division for each node that is not hidden, in the same order. -/
def ShownByAll : List Node → List Markup → Prop
  | [], pieces => pieces = []
  | node :: rest, pieces =>
    if node.visible then
      ∃ piece later, pieces = piece :: later ∧ node.ShownBy piece ∧ ShownByAll rest later
    else ShownByAll rest pieces

end

/-- No piece of a label is a division. -/
theorem not_division_of_mem_label {cs : List Char} {piece : Markup}
    (h : piece ∈ cs.flatMap Markup.ofLabelChar) (name : String) (within : List Markup) :
    piece ≠ .division name within := by
  obtain ⟨c, -, hc⟩ := List.mem_flatMap.mp h
  rintro rfl
  unfold Markup.ofLabelChar at hc
  split at hc
  · simp at hc
  · simp at hc

/-- Nodes are shown one after the other when each that is not hidden is shown by its element. -/
theorem shownByAll_elementsOf {nodes : List Node}
    (h : ∀ node ∈ nodes, node.visible = true →
      ∃ element, node.elements = [element] ∧ node.ShownBy element.markup) :
    ShownByAll nodes (Element.markupOf (elementsOf nodes)) := by
  induction nodes with
  | nil => rfl
  | cons node rest ih =>
    have hrest := ih fun c hc => h c (List.mem_cons_of_mem _ hc)
    rw [ShownByAll, elementsOf]
    cases visible : node.visible with
    | false =>
      -- a hidden node has neither an element nor a division
      obtain ⟨t, children⟩ := node
      rw [if_neg (by decide), elements_of_hidden visible, List.nil_append]
      exact hrest
    -- a shown one has one element, and one division
    | true =>
      obtain ⟨element, helement, hshown⟩ := h node List.mem_cons_self visible
      rw [if_pos rfl, helement, List.singleton_append, Element.markupOf]
      exact ⟨_, _, rfl, hshown, hrest⟩

/-- **A node that is not hidden has one element, and its markup shows the node.** -/
theorem shownBy_elements (node : Node) (visible : node.visible = true) :
    ∃ element, node.elements = [element] ∧ node.ShownBy element.markup := by
  induction node using Node.induction with
  | step t children ih =>
    change t.visible = true at visible
    cases isText : t.isText with
    | true =>
      -- a label: its pieces are read from the codes of its characters, and decode to these
      have hlabel : Text.decode (Markup.source (t.shownText.toList.flatMap Markup.ofLabelChar))
          = t.shownText.toList := by
        rw [Markup.source_flatMap_ofLabelChar, Text.decode_flatMap_labelCode]
      refine ⟨_, elements_of_label visible isText children, ?_⟩
      rw [Node.ShownBy.eq_def]
      refine ⟨_, rfl, ?_⟩
      rw [if_pos isText]
      exact ⟨fun _ hinner => not_division_of_mem_label hinner, hlabel⟩
    | false =>
      -- a box: its content shows the children by the hypothesis for each of them
      refine ⟨_, elements_of_box visible isText children, ?_⟩
      rw [Node.ShownBy.eq_def]
      refine ⟨_, rfl, ?_⟩
      rw [if_neg (by simp [isText])]
      cases children with
      | none => rfl
      | some children => exact shownByAll_elementsOf ih

/-! ### The page of a tree -/

/-- The elements on a page: those of the roots, in a box if there are several. -/
def pageElements (roots : List Node) : List Element :=
  if 1 < roots.length then [.box Stylesheet.containerClass (elementsOf roots)]
  else elementsOf roots

theorem flatten_map_elements (nodes : List Node) :
    (nodes.map Node.elements).flatten = elementsOf nodes := by
  induction nodes with
  | nil => rfl
  | cons node rest ih => rw [List.map_cons, List.flatten_cons, ih, elementsOf]

theorem html_assemble (gap : Int) (roots : List Node) (rules : Stylesheet) :
    (assemble gap (roots.map Node.elements) rules).html = Element.renderAll (pageElements roots) := by
  rw [assemble, pageElements]
  simp only [List.length_map, flatten_map_elements]

/-- The classes on a page are names. -/
theorem isClassName_of_mem_pageElements (roots : List Node) :
    ∀ name ∈ Element.classNamesOf (pageElements roots), IsClassName name.toList := by
  -- the same for any list of artboards
  have hroots : ∀ nodes : List Node,
      ∀ name ∈ Element.classNamesOf (elementsOf nodes), IsClassName name.toList := by
    intro nodes
    induction nodes with
    | nil => exact fun name hname => absurd hname List.not_mem_nil
    | cons node rest ih =>
      intro name hname
      rw [elementsOf, Element.classNamesOf_append] at hname
      -- of the first one, or of the others
      rcases List.mem_append.mp hname with hname | hname
      · exact isClassName_of_mem_elements node name hname
      · exact ih name hname
  intro name hname
  unfold pageElements at hname
  -- several artboards stand in a division with a name of its own
  split at hname
  · rw [Element.classNamesOf, Element.classNames, Element.classNamesOf, List.append_nil,
      List.mem_cons] at hname
    rcases hname with rfl | hname
    -- the container's name is plain
    · have hall : Stylesheet.containerClass.toList.all Text.isNameChar = true := by decide +kernel
      exact ⟨by decide, List.all_eq_true.mp hall⟩
    · exact hroots roots name hname
  -- one artboard, or none, stands alone
  · exact hroots roots name hname

/-- **A page is read back to the nodes that it shows.** Every `<` on the page of a tree begins an
opening tag with a proper class name, a closing tag or a line break. The tags are balanced: the page
is the source of a forest, and is read as that forest. Its divisions show the roots of the tree, in
the order of the document, and stand in one further division when there are several roots. -/
theorem convert_reads_back {gap : Int} {root : Node} {page : Conversion}
    (h : convert gap root = .ok page) :
    (∀ before after, page.html.toList = before ++ '<' :: after → BeginsTag ('<' :: after)) ∧
      root.roots.Sublist root.preorder ∧
      ∃ shown read, ShownByAll root.roots shown
        ∧ read = (if 1 < root.roots.length then [.division Stylesheet.containerClass shown]
            else shown)
        ∧ page.html.toList = Markup.source read ∧ Markup.read? page.html = some read := by
  obtain ⟨rules, -, rfl⟩ := convert_eq_ok h
  rw [html_assemble]
  -- all names are plain, so nothing but tags begins with a bracket
  have named := isClassName_of_mem_pageElements root.roots
  refine ⟨fun _ _ split => Element.beginsTag_of_renderAll named split,
    roots_sublist_preorder root, Element.markupOf (elementsOf root.roots),
    Element.markupOf (pageElements root.roots), ?_, ?_, Element.toList_renderAll _,
    Element.read?_renderAll named⟩
  -- each artboard is shown by its division
  · exact shownByAll_elementsOf fun node _ visible => shownBy_elements node visible
  -- and several of them by one around them
  · unfold pageElements
    split <;> rfl

/-- A tree whose identifiers and texts are tags, entities and quotes, with two artboards and a
hidden node. -/
def hostileTree : Node :=
  { id := "0", kind := .canvas, children := some [
    { id := "1:2\"><b>", children := some [
      { id := "</div>", kind := .text, characters := .str "</div><br/>&lt;\"\n" },
      { id := "x", visible := false }] },
    { id := "", kind := .component }] }

/-- The hostile tree is read back to the two artboards and the label that it has. -/
theorem hostileTree_reads_back : ∃ page, convert 32 hostileTree = .ok page
    ∧ page.html = "<div class=\"artboards-container\"><div class=\"node-1-2---b-\">"
      ++ "<div class=\"node---div-\">&lt;/div&gt;&lt;br/&gt;&amp;lt;\"<br/></div></div>"
      ++ "<div class=\"node-\"></div></div>"
    ∧ (∀ before after, page.html.toList = before ++ '<' :: after → BeginsTag ('<' :: after))
    ∧ ∃ shown, ShownByAll hostileTree.roots shown
      ∧ Markup.read? page.html = some [.division Stylesheet.containerClass shown] := by
  -- the document converts to the page in full
  obtain ⟨page, hpage, hhtml⟩ : ∃ page, convert 32 hostileTree = .ok page
      ∧ page.html = "<div class=\"artboards-container\"><div class=\"node-1-2---b-\">"
        ++ "<div class=\"node---div-\">&lt;/div&gt;&lt;br/&gt;&amp;lt;\"<br/></div></div>"
        ++ "<div class=\"node-\"></div></div>" := ⟨_, rfl, by decide +kernel⟩
  obtain ⟨tags, -, shown, read, hshown, hread, -, hback⟩ := convert_reads_back hpage
  -- there are two artboards
  rw [if_pos (by decide)] at hread
  exact ⟨page, hpage, hhtml, tags, shown, hshown, hread ▸ hback⟩

end Mockup
