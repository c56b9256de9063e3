import Mockup.Proofs.Page.Reach
import Mockup.Proofs.Style.Progress

/-!
# Documents of the documented types are converted

A document of the documented types is read into a sound node (`node_yields`), and a sound node has a
block in every sound parent (`Style.declarations_succeeds`). What is left is that a conversion
reaches nothing else: every node that it visits, and every parent that it visits a node in, is below
the node that was read.

* `sound_of_mem_preorder`, `sound_of_mem_visits` — soundness reaches every visit;
* `fault?_of_sound` — the visit of a sound node in a sound parent is not faulty;
* `convert_isDocument` — **a document of the documented types is read and converted**.
-/

namespace Mockup

open Json

/-! ### Soundness reaches every visit -/

theorem mem_preorderOf {nodes : List Node} {node : Node} :
    node ∈ preorderOf nodes ↔ ∃ child ∈ nodes, node ∈ child.preorder := by
  induction nodes with
  | nil => simp [preorderOf]
  | cons child rest ih => simp [preorderOf, ih]

/-- Every node of a sound tree is sound. -/
theorem sound_of_mem_preorder {node : Node} (h : node.Sound) :
    ∀ n ∈ node.preorder, n.Sound := by
  induction node using Node.induction with
  | step t children ih =>
    intro n hn
    have hself := h
    obtain ⟨-, below⟩ := h
    cases children with
    | none =>
      rw [Node.preorder, List.mem_singleton] at hn
      exact hn ▸ hself
    | some children =>
      rw [Node.preorder, List.mem_cons, mem_preorderOf] at hn
      rcases hn with rfl | ⟨child, hchild, hn⟩
      · exact hself
      -- a node of a child, which is sound
      · exact ih child hchild (below child hchild) n hn

/-- A walk over a sound node in a sound parent visits sound nodes in sound parents. -/
theorem sound_of_mem_visits {node : Node} (h : node.Sound) : ∀ {parent : Option Node} {isRoot : Bool},
    (∀ p ∈ parent, p.Sound) → ∀ v ∈ node.visits parent isRoot,
      v.node.Sound ∧ ∀ p ∈ v.parent, p.Sound := by
  induction node using Node.induction with
  | step t children ih =>
    intro parent isRoot hparent v hv
    have hself := h
    obtain ⟨-, below⟩ := h
    obtain ⟨-, rfl | ⟨-, child, hchild, hv⟩⟩ := mem_visits.mp hv
    · exact ⟨hself, hparent⟩
    · -- below a child, the parent is the node itself
      refine ih child hchild (below child hchild) ?_ v hv
      rintro p ⟨⟩
      exact hself

theorem sound_of_mem_rootVisits {root : Node} (h : root.Sound) :
    ∀ v ∈ rootVisits root.roots, v.node.Sound ∧ ∀ p ∈ v.parent, p.Sound := by
  intro v hv
  obtain ⟨artboard, hartboard, hv⟩ := mem_rootVisits.mp hv
  -- a root is its own parent
  have hsound := sound_of_mem_preorder h artboard
    ((roots_sublist_preorder root).subset hartboard)
  refine sound_of_mem_visits hsound ?_ v hv
  rintro p ⟨⟩
  exact hsound

/-! ### Visits of sound nodes -/

/-- The characters of a sound label are a text. -/
theorem labelText_succeeds {t : Traits} (h : t.Sound) : Succeeds t.labelText := by
  have htext : (t.characters.orElse (.str "")).isString = true := orElse_of_isNullOr h.characters rfl
  unfold Traits.labelText
  generalize t.characters.orElse (.str "") = text at htext ⊢
  cases text with
  | str s => exact .ok trivial
  | _ => cases htext

/-- **The visit of a sound node in a sound parent is not faulty.** -/
theorem fault?_of_sound {v : Visit} (h : v.node.Sound) (hparent : ∀ p ∈ v.parent, p.Sound) :
    v.fault? = none := by
  -- the block of a sound node can be computed
  obtain ⟨block, hblock, -⟩ := Style.declarations_succeeds h hparent v.isRoot
  have hrule : v.rule = .ok ⟨v.className, block.text⟩ := by
    rw [Visit.rule, Style.block, hblock]
    rfl
  -- the text of a node that is no label is not asked for, but it would be there
  have htext : Succeeds v.node.labelText := by
    obtain ⟨node, parent, isRoot⟩ := v
    obtain ⟨htraits, -⟩ := h
    exact labelText_succeeds htraits
  obtain ⟨text, htext, -⟩ := htext
  -- so neither the rule nor the text is at fault
  rw [Visit.fault?, hrule]
  change v.textFault? = none
  rw [Visit.textFault?, htext]
  exact ite_self none

theorem follow_eq_none {visits : List Visit} (h : ∀ v ∈ visits, v.fault? = none) :
    (follow visits).1 = none := by
  induction visits with
  | nil => rfl
  | cons v rest ih =>
    rw [follow, h v (.head _)]
    exact ih fun u hu => h u (.tail _ hu)

/-! ### Conversion -/

/-- A sound node is converted. -/
theorem convert_succeeds (gap : Int) {root : Node} (h : root.Sound) :
    Succeeds (convert gap root) := by
  -- no visit of a sound document has a fault
  have hfaults : ∀ v ∈ rootVisits root.roots, v.fault? = none := by
    intro v hv
    obtain ⟨hnode, hparent⟩ := sound_of_mem_rootVisits h v hv
    exact fault?_of_sound hnode hparent
  rcases hfollow : follow (rootVisits root.roots) with ⟨first, rules⟩
  obtain rfl : first = none := by
    have hnone := follow_eq_none hfaults
    rwa [hfollow] at hnone
  -- and a walk without a fault gives the page
  rw [convert_eq_follow, hfollow]
  exact .ok trivial

/-- **A document of the documented types is read and converted**, whatever fields it leaves out or
sets to `null` at any depth, and whatever its identifiers, names, variants and modes are. -/
theorem convert_isDocument (gap : Int) {document : Json} (h : document.isDocument = true) :
    ∃ node page, Node.ofJson document = .ok node ∧ convert gap node = .ok page := by
  obtain ⟨node, hnode, hsound⟩ := node_yields h
  obtain ⟨page, hpage, -⟩ := convert_succeeds gap hsound
  exact ⟨node, page, hnode, hpage⟩

/-- A document with parts that are absent, `null`, empty or at the bound of measures, and with an
identifier, a name, a variant and a mode of odd kinds. -/
def sparseDocument : Json :=
  .obj [("id", .arr [.ofInt 1]), ("type", .str "CANVAS"), ("name", .null), ("children", .arr [
    .null,
    .obj [("id", .null), ("type", .str "FRAME"), ("layoutMode", .obj []), ("opacity", .ofDouble .zero),
      ("absoluteBoundingBox", .obj [("x", .ofInt (-1000000000000000)), ("width", .null)]),
      ("fills", .arr [.null, .obj [("type", .ofInt 7)], .obj [("type", .str "GRADIENT_LINEAR"),
        ("gradientHandlePositions", .arr [.null, .obj [("x", .ofDouble .zero)]]),
        ("gradientStops", .arr [.obj [("color", .obj [("r", .ofInt 1000000000000000)])], .null])]]),
      ("strokes", .arr [.obj [("type", .str "SOLID"), ("opacity", .null)]]),
      ("strokeWeight", .ofInt 2), ("rectangleCornerRadii", .arr [.ofInt 1, .ofInt 2, .ofInt 3]),
      ("effects", .arr [.obj [("type", .str "DROP_SHADOW"), ("offset", .null)], .obj []]),
      ("children", .arr [.obj [("type", .str "TEXT"), ("characters", .null),
        ("style", .obj [("fontSize", .ofInt 12), ("lineHeightPx", .null)])]])]])]

/-- The sparse document is read and converted. -/
theorem sparseDocument_converts : sparseDocument.isDocument = true
    ∧ ∃ node page, Node.ofJson sparseDocument = .ok node ∧ convert 32 node = .ok page := by
  have documented : sparseDocument.isDocument = true := by decide +kernel
  exact ⟨documented, convert_isDocument 32 documented⟩

end Mockup
