import Mockup.Proofs.Page.Reach
import Mockup.Proofs.Style.Refusals

/-!
# What a conversion refuses

A conversion is decided by its visits, and a visit ends with a fault of the node's rule or of its
text. Neither is a refusal.

* `Visit.fault?_unrefused` — a visit refuses nothing;
* `convert_unrefused` — **converting a tree refuses nothing**;
* `convertDocument_refused` — a document is refused only when there is none.
-/

namespace Mockup

theorem Traits.labelText_unrefused (t : Traits) : Unrefused t.labelText := by
  unfold labelText
  split
  · exact .ok
  · exact .error rfl

/-- A fault of a visit is no refusal. -/
theorem Visit.fault?_unrefused {v : Visit} {fault : Fault} (h : v.fault? = some fault) :
    fault.isRefusal = false := by
  have hrule : Unrefused v.rule := (Style.block_unrefused _ _ _).andThen fun _ => .ok
  rw [Visit.fault?] at h
  split at h
  · rw [Visit.textFault?] at h
    split at h
    · split at h
      · cases h
      · rename_i hlabel
        obtain rfl := Option.some.inj h
        exact Traits.labelText_unrefused _ _ hlabel
    · cases h
  · rename_i hfault
    obtain rfl := Option.some.inj h
    exact hrule _ hfault

/-- **Converting a tree refuses nothing.** -/
theorem convert_unrefused (gap : Int) (root : Node) : Unrefused (convert gap root) := by
  -- what ends a conversion is the fault of the first visit that has one
  rw [convert_eq_follow]
  rcases hfollow : follow (rootVisits root.roots) with ⟨_ | fault, rules⟩
  · exact .ok
  · obtain ⟨-, failing, -, -, -, -, hfault, -⟩ := follow_some hfollow
    exact .error (Visit.fault?_unrefused hfault)

/-- **A document is refused only when there is none.** -/
theorem convertDocument_refused {gap : Int} {document : Json} {refusal : Refusal}
    (h : convertDocument gap document = .error (.refused refusal)) :
    document = .null ∧ refusal = missingDocument := by
  rw [convertDocument] at h
  cases hread : Node.ofJson document with
  | error fault =>
    rw [hread] at h
    obtain rfl := Except.error.inj h
    exact Node.ofJson_refused_iff.mp hread
  | ok root =>
    rw [hread] at h
    cases convert_unrefused gap root _ h

end Mockup
