import Mockup.Proofs.Page.Hidden
import Mockup.Proofs.Page.Sheet

/-!
# Artboards apart from one another

A page with several artboards is converted in one go: one walk over all of them, one stylesheet that
grows, one box around everything. None of this lets an artboard see another. The page is put together
from the pages that its artboards have alone.

* `fst_follow_flatMap`, `snd_follow_flatMap` — what lists of visits come to one after the other: the
  first fault of any, or the rules of each;
* `artboards_eq_nil_of_free` — a tree without a canvas has no artboards, so an artboard without one
  is rendered itself when it is converted alone;
* `IsPageOf` — the page of such a tree alone;
* `pages_of_several`, `convert_several_eq_error_iff` — what a page of several artboards is made of, and
  when it fails;
* `convert_board_by_board` — **the page of several artboards is that of each, one after the other, in
  a box**, and it fails exactly as the first of them that fails alone.
-/

namespace Mockup

/-! ### Visits one after the other -/

section Pieces

variable {α : Type} {visits : α → List Visit}

/-- A fault of visits after visits is one of the first ones, or else one of the others. -/
theorem fst_follow_append (a b : List Visit) :
    (follow (a ++ b)).1 = (follow a).1.or (follow b).1 := by
  rw [follow_append]
  rcases follow a with ⟨_ | fault, rules⟩ <;> rfl

/-- The fault of lists of visits is the first that any of them has. -/
theorem fst_follow_flatMap (items : List α) :
    (follow (items.flatMap visits)).1 = items.findSome? fun item => (follow (visits item)).1 := by
  induction items with
  | nil => rfl
  | cons item rest ih =>
    rw [List.flatMap_cons, fst_follow_append, ih, List.findSome?_cons]
    cases (follow (visits item)).1 <;> rfl

/-- Without a fault, the rules of lists of visits are the rules of each. -/
theorem snd_follow_flatMap {items : List α} (h : ∀ item ∈ items, (follow (visits item)).1 = none) :
    (follow (items.flatMap visits)).2 = items.flatMap fun item => (follow (visits item)).2 := by
  induction items with
  | nil => rfl
  | cons item rest ih =>
    obtain ⟨hitem, hrest⟩ := List.forall_mem_cons.mp h
    rw [List.flatMap_cons, List.flatMap_cons, ← ih hrest, follow_append]
    rcases hfollow : follow (visits item) with ⟨_ | fault, rules⟩
    · rfl
    · rw [hfollow] at hitem
      cases hitem

end Pieces

/-- A conversion fails with the first fault of its visits. -/
theorem convert_eq_error_iff {gap : Int} {root : Node} {fault : Fault} :
    convert gap root = .error fault ↔ (follow (rootVisits root.roots)).1 = some fault := by
  rw [convert_eq_follow]
  rcases follow (rootVisits root.roots) with ⟨_ | first, rules⟩
  · simp
  · simp

/-- A conversion without a fault puts elements and rules together. -/
theorem convert_eq_assemble (gap : Int) {root : Node}
    (h : (follow (rootVisits root.roots)).1 = none) :
    convert gap root
      = .ok (assemble gap (root.roots.map Node.elements) (follow (rootVisits root.roots)).2) := by
  rw [convert_eq_follow]
  rcases hfollow : follow (rootVisits root.roots) with ⟨_ | fault, rules⟩
  · rfl
  · rw [hfollow] at h
    cases h

/-! ### An artboard alone -/

theorem preorderOf_eq_flatMap (nodes : List Node) : preorderOf nodes = nodes.flatMap Node.preorder :=
  eq_flatMap_of_cons rfl (fun _ _ => rfl) nodes

/-- **A tree without a canvas has no artboards.** -/
theorem artboards_eq_nil_of_free (node : Node) (free : ∀ n ∈ node.preorder, n.kind ≠ .canvas) :
    node.artboards = [] := by
  induction node using Node.induction with
  | step t children ih =>
    cases children with
    | none => rfl
    | some children =>
      rw [Node.preorder, preorderOf_eq_flatMap, List.forall_mem_cons] at free
      obtain ⟨notCanvas, hbelow⟩ := free
      -- the node is no canvas, so its artboards are those of its children
      rw [Node.artboards, if_neg notCanvas, artboardsOf_eq_flatMap, List.flatMap_eq_nil_iff]
      exact fun child hchild => ih child hchild fun n hn =>
        hbelow n (List.mem_flatMap.mpr ⟨child, hchild, hn⟩)

/-- A tree without a canvas is rendered itself. -/
theorem roots_of_free {board : Node} (free : ∀ n ∈ board.preorder, n.kind ≠ .canvas) :
    board.roots = [board] := by
  rw [Node.roots, artboards_eq_nil_of_free board free]

/-- What a tree without a canvas comes to alone is what its visits come to on any page. -/
theorem rootVisits_of_free {board : Node} (free : ∀ n ∈ board.preorder, n.kind ≠ .canvas) :
    rootVisits board.roots = board.visits (some board) true := by
  rw [roots_of_free free, rootVisits, List.flatMap_singleton]

/-- The markup of elements after elements. -/
theorem renderAll_append (a b : List Element) :
    Element.renderAll (a ++ b) = Element.renderAll a ++ Element.renderAll b := by
  induction a with
  | nil => rw [List.nil_append, Element.renderAll, String.empty_append]
  | cons element rest ih =>
    rw [List.cons_append, Element.renderAll, ih, Element.renderAll, String.append_assoc]

/-- The lines of the rules that a tree collects as a root of a page. -/
def Node.ruleLines (board : Node) : List String :=
  (follow (board.visits (some board) true)).2.flatMap fun rule => Text.lines rule.render

/-- **A page is that of a tree alone**: its markup is that of the tree, and after the lines that every
page has its stylesheet has those of the rules of the tree. -/
structure IsPageOf (gap : Int) (board : Node) (page : Conversion) : Prop where
  converted : convert gap board = .ok page
  html : page.html = Element.renderAll board.elements
  lines : Text.lines page.css = Stylesheet.preamble gap false ++ board.ruleLines

/-- A tree without a canvas and without a fault has a page alone. -/
theorem exists_isPageOf (gap : Int) {board : Node}
    (free : ∀ n ∈ board.preorder, n.kind ≠ .canvas)
    (h : (follow (board.visits (some board) true)).1 = none) :
    ∃ page, IsPageOf gap board page := by
  have hvisits := rootVisits_of_free free
  have hpage := convert_eq_assemble gap (hvisits ▸ h)
  rw [hvisits, roots_of_free free, List.map_singleton] at hpage
  refine ⟨_, hpage, ?_, lines_css gap [board.elements] _⟩
  rw [assemble, List.flatten_singleton, if_neg (by simp)]

/-- Trees without a canvas and without a fault have pages alone. -/
theorem exists_pages (gap : Int) {boards : List Node}
    (free : ∀ board ∈ boards, ∀ n ∈ board.preorder, n.kind ≠ .canvas)
    (h : ∀ board ∈ boards, (follow (board.visits (some board) true)).1 = none) :
    ∃ pages, List.Forall₂ (IsPageOf gap) boards pages := by
  induction boards with
  | nil => exact ⟨[], .nil⟩
  | cons board rest ih =>
    obtain ⟨hfree, hfreeRest⟩ := List.forall_mem_cons.mp free
    obtain ⟨hboard, hrest⟩ := List.forall_mem_cons.mp h
    obtain ⟨page, hpage⟩ := exists_isPageOf gap hfree hboard
    obtain ⟨pages, hpages⟩ := ih hfreeRest hrest
    exact ⟨page :: pages, .cons hpage hpages⟩

/-- The markup of pages one after the other is that of their trees. -/
theorem join_html {gap : Int} {boards : List Node} {pages : List Conversion}
    (h : List.Forall₂ (IsPageOf gap) boards pages) :
    String.join (pages.map Conversion.html) = Element.renderAll (elementsOf boards) := by
  induction h with
  | nil => rfl
  | cons hpage _ ih =>
    rw [List.map_cons, String.join_cons, hpage.html, ih, elementsOf, renderAll_append]

/-- Alone, a tree without a canvas fails with the first fault of its visits. -/
theorem convert_free_eq_error_iff {gap : Int} {board : Node} {fault : Fault}
    (free : ∀ n ∈ board.preorder, n.kind ≠ .canvas) :
    convert gap board = .error fault
      ↔ (follow (board.visits (some board) true)).1 = some fault := by
  rw [convert_eq_error_iff, rootVisits_of_free free]

/-- Alone, it is converted when its visits are without a fault. -/
theorem exists_convert_free_iff {gap : Int} {board : Node}
    (free : ∀ n ∈ board.preorder, n.kind ≠ .canvas) :
    (∃ page, convert gap board = .ok page)
      ↔ (follow (board.visits (some board) true)).1 = none := by
  rw [← rootVisits_of_free free]
  constructor
  · rintro ⟨page, hpage⟩
    obtain ⟨rules, hfollow, -⟩ := convert_eq_ok hpage
    rw [hfollow]
  · exact fun h => ⟨_, convert_eq_assemble gap h⟩

/-! ### Several artboards -/

section Several

variable {gap : Int} {root : Node}

/-- A tree with several artboards is rendered from them. -/
theorem roots_of_several (several : 1 < root.artboards.length) : root.roots = root.artboards := by
  rw [Node.roots]
  split
  · rename_i hnone
    rw [hnone] at several
    cases several
  · rfl

/-- **A page of several artboards** has the pages of each, one after the other in a box, and their
rules after the fixed lines. -/
theorem pages_of_several {page : Conversion} (several : 1 < root.artboards.length)
    (free : ∀ board ∈ root.artboards, ∀ n ∈ board.preorder, n.kind ≠ .canvas)
    (hpage : convert gap root = .ok page) :
    ∃ pages, List.Forall₂ (IsPageOf gap) root.artboards pages
      ∧ page.html
        = Element.enclose Stylesheet.containerClass (String.join (pages.map Conversion.html))
      ∧ Text.lines page.css
        = Stylesheet.preamble gap true ++ root.artboards.flatMap Node.ruleLines := by
  have hroots := roots_of_several several
  obtain ⟨rules, hfollow, rfl⟩ := convert_eq_ok hpage
  rw [hroots, rootVisits] at hfollow
  -- the page is without a fault, so each artboard is
  have hnone : ∀ board ∈ root.artboards, (follow (board.visits (some board) true)).1 = none := by
    refine List.findSome?_eq_none_iff.mp ?_
    rw [← fst_follow_flatMap, hfollow]
  -- the rules come board by board
  have hrules : rules.flatMap (fun rule => Text.lines rule.render)
      = root.artboards.flatMap Node.ruleLines := by
    have hsecond := snd_follow_flatMap hnone
    rw [hfollow] at hsecond
    change rules = _ at hsecond
    rw [hsecond, List.flatMap_assoc]
    rfl
  obtain ⟨pages, hpages⟩ := exists_pages gap free hnone
  refine ⟨pages, hpages, ?_, ?_⟩
  -- the container around the pages one after the other
  · rw [html_assemble, hroots, pageElements, if_pos several, join_html hpages, Element.renderAll,
      Element.render, Element.renderAll, String.append_empty]
  -- one preamble, then the lines of each board
  · rw [lines_css, List.length_map, hroots, hrules, decide_eq_true several]

/-- **A page of several artboards fails** with the fault of the first artboard that does. -/
theorem convert_several_eq_error_iff {fault : Fault} (several : 1 < root.artboards.length)
    (free : ∀ board ∈ root.artboards, ∀ n ∈ board.preorder, n.kind ≠ .canvas) :
    convert gap root = .error fault ↔
      ∃ before board after, root.artboards = before ++ board :: after
        ∧ (∀ earlier ∈ before, ∃ page, convert gap earlier = .ok page)
        ∧ convert gap board = .error fault := by
  rw [convert_eq_error_iff, roots_of_several several, rootVisits, fst_follow_flatMap,
    List.findSome?_eq_some_iff]
  refine exists_congr fun before => exists_congr fun board => exists_congr fun after =>
    and_congr_right fun hsplit => ?_
  -- the boards before and the board itself are artboards of the document
  have hbefore : ∀ earlier ∈ before, earlier ∈ root.artboards := fun earlier hearlier =>
    hsplit ▸ List.mem_append_left _ hearlier
  have hboard : board ∈ root.artboards := hsplit ▸ List.mem_append_right _ List.mem_cons_self
  rw [and_comm, convert_free_eq_error_iff (free board hboard)]
  -- the earlier boards convert alone when their visits are without a fault
  refine and_congr_left fun _ => forall₂_congr fun earlier hearlier => ?_
  exact (exists_convert_free_iff (free earlier (hbefore earlier hearlier))).symm

end Several

/-- **The page of several artboards is made of the pages of each.** When none of them has a canvas
inside, a conversion that succeeds does so on every artboard alone. Its markup is that of their pages,
one after the other in a box, and after the fixed lines its stylesheet has those that their
stylesheets have after theirs. The conversion fails exactly when that of an artboard alone does, with
the fault of the first that does. -/
theorem convert_board_by_board {gap : Int} {root : Node} (several : 2 ≤ root.artboards.length)
    (free : ∀ board ∈ root.artboards, ∀ n ∈ board.preorder, n.kind ≠ .canvas) :
    (∀ page, convert gap root = .ok page →
      ∃ pages, List.Forall₂ (fun board page => convert gap board = .ok page) root.artboards pages
        ∧ page.html
          = Element.enclose Stylesheet.containerClass (String.join (pages.map Conversion.html))
        ∧ ∃ own : List (List String),
          List.Forall₂ (fun page lines =>
            Text.lines page.css = Stylesheet.preamble gap false ++ lines) pages own
          ∧ Text.lines page.css = Stylesheet.preamble gap true ++ own.flatten)
      ∧ ∀ fault, convert gap root = .error fault ↔
        ∃ before board after, root.artboards = before ++ board :: after
          ∧ (∀ earlier ∈ before, ∃ page, convert gap earlier = .ok page)
          ∧ convert gap board = .error fault := by
  refine ⟨fun page hpage => ?_, fun fault => convert_several_eq_error_iff several free⟩
  obtain ⟨pages, hpages, hhtml, hlines⟩ := pages_of_several several free hpage
  refine ⟨pages, hpages.imp fun _ _ h => h.converted, hhtml, root.artboards.map Node.ruleLines,
    ?_, ?_⟩
  -- the lines of a page alone are its preamble and its own rules
  · rw [List.forall₂_map_right_iff]
    exact hpages.flip.imp fun _ _ h => h.lines
  · rw [hlines, List.flatMap_def]

/-- A canvas with two artboards, a label in the first. -/
def twoBoards : Node :=
  { id := "0:1", kind := .canvas, children := some [
    { id := "1:1", children := some [{ id := "1:2", kind := .text, characters := .str "a" }] },
    { id := "2:1", kind := .component }] }

/-- The page of two artboards is that of one after that of the other, in a box. -/
theorem twoBoards_apart : 2 ≤ twoBoards.artboards.length
    ∧ (∀ board ∈ twoBoards.artboards, ∀ n ∈ board.preorder, n.kind ≠ .canvas)
    ∧ ∃ page first second, convert 8 twoBoards = .ok page
      ∧ twoBoards.artboards.map (convert 8) = [.ok first, .ok second]
      ∧ page.html = Element.enclose Stylesheet.containerClass (first.html ++ second.html)
      ∧ first.html = "<div class=\"node-1-1\"><div class=\"node-1-2\">a</div></div>" := by
  have several : 2 ≤ twoBoards.artboards.length := by decide
  have free : ∀ board ∈ twoBoards.artboards, ∀ n ∈ board.preorder, n.kind ≠ .canvas := by
    have hall : (twoBoards.artboards.all fun board =>
        board.preorder.all fun n => n.kind ≠ .canvas) = true := by decide
    intro board hboard n hn
    simpa using List.all_eq_true.mp (List.all_eq_true.mp hall board hboard) n hn
  -- the document converts, with two artboards
  have converted : (convert 8 twoBoards).toOption.isSome = true := by decide +kernel
  obtain ⟨page, hpage⟩ := exists_ok_of_isSome converted
  obtain ⟨pages, hpages, hhtml, -⟩ := (convert_board_by_board several free).1 page hpage
  refine ⟨several, free, page, ?_⟩
  cases hpages with
  | cons hfirst hpages =>
    cases hpages with
    | cons hsecond hpages =>
      cases hpages
      -- each of them converts alone
      have hboth : twoBoards.artboards.map (convert 8) = [.ok _, .ok _] :=
        congrArg₂ _ hfirst (congrArg₂ _ hsecond rfl)
      -- and the markup of the first one is known
      have hmarkup : ((twoBoards.artboards.map (convert 8)).map fun alone =>
          alone.toOption.map Conversion.html)
          = [some "<div class=\"node-1-1\"><div class=\"node-1-2\">a</div></div>",
            some "<div class=\"node-2-1\"></div>"] := by decide +kernel
      rw [hboth] at hmarkup
      refine ⟨_, _, hpage, hboth, ?_, Option.some.inj (List.cons.inj hmarkup).1⟩
      rw [hhtml]
      simp

end Mockup
