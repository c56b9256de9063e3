import Mockup.Design.Reading
import Mockup.Proofs.Outcome

/-!
# What reading refuses

Reading a document may end in a fault at almost any step, wherever a value is of another kind than
its use asks for. A refusal is more than that: the program states it itself, with a code. This
module says that reading refuses `null` in place of a document and nothing else.

* `Unrefused` — **an operation refuses nothing**: if it ends with a fault, that is no refusal;
* `Json.member_unrefused`, …, `Traits.ofJson_unrefused` — the questions that reading asks, and what
  it makes of the answers;
* `Node.ofJson_unrefused` — a value that is not `null` is read without a refusal, however deep in
  it a `null` stands;
* `Node.ofJson_refused_iff` — **reading refuses `null` and no other value.**

There is one lemma for each operation, composed in the order of its definition.
-/

namespace Mockup

/-- Whether a fault is a refusal. -/
def Fault.isRefusal : Fault → Bool
  | .refused _ => true
  | _ => false

/-- **The operation refuses nothing.** -/
abbrev Unrefused {α : Type} (result : Result α) : Prop :=
  Faults result fun fault => fault.isRefusal = false

/-- A value in place of which there is another fault. -/
theorem orFault_unrefused {α : Type} {fault : Fault} (h : fault.isRefusal = false)
    (option : Option α) : Unrefused (orFault fault option) :=
  Faults.orFault h option

/-! ### Values -/

namespace Json

theorem memberOr_unrefused (j : Json) (name : String) (default : Json) :
    Unrefused (j.memberOr name default) := by
  cases j with
  | obj fields => exact .ok
  | _ => exact .error rfl

theorem member_unrefused (j : Json) (name : String) : Unrefused (j.member name) :=
  j.memberOr_unrefused name .null

theorem part_unrefused (j : Json) (name : String) (default : Json) :
    Unrefused (j.part name default) :=
  (j.member_unrefused name).andThen fun _ => .ok

theorem entries_unrefused (j : Json) : Unrefused j.entries := by
  cases j with
  | arr | obj | str => exact .ok
  | _ => exact .error rfl

theorem size_unrefused (j : Json) : Unrefused j.size := by
  cases j with
  | arr | obj | str => exact .ok
  | _ => exact .error rfl

theorem keyword_unrefused (j : Json) : Unrefused j.keyword := by
  cases j with
  | arr | obj => exact .error rfl
  | _ => exact .ok

theorem operand_unrefused (j : Json) : Unrefused j.operand := orFault_unrefused rfl _

theorem toDouble_unrefused (j : Json) : Unrefused j.toDouble := by
  cases j with
  | num n => exact orFault_unrefused rfl _
  | bool b => exact .ok
  | str s => exact orFault_unrefused rfl _
  | _ => exact .error rfl

section Entries

variable {α : Type} {f : Json → Result α}

theorem mapEntries_unrefused (h : ∀ item, Unrefused (f item)) (j : Json) :
    Unrefused (j.mapEntries f) := by
  unfold mapEntries
  split
  · exact j.entries_unrefused.andThen fun _ => .mapM fun item _ => h item
  · exact .ok

theorem mapGiven?_unrefused (h : ∀ item, Unrefused (f item)) (j : Json) :
    Unrefused (j.mapGiven? f) := by
  unfold mapGiven?
  split
  · exact .ok
  · refine (entries_unrefused _).andThen fun entries => ?_
    exact (Faults.mapM fun item _ => h item).andThen fun _ => .ok

end Entries

end Json

/-! ### Reading -/

section Reading

open Json

theorem visibleIn_unrefused (j : Json) : Unrefused (visibleIn j) := by
  refine (j.member_unrefused _).andThen fun visible => ?_
  split
  · exact .ok
  · exact .ok

theorem Color.ofJson_unrefused (j : Json) : Unrefused (Color.ofJson j) := by
  unfold Color.ofJson
  split
  · iterate 4 refine (j.part_unrefused _ _).andThen fun _ => ?_
    exact .ok
  · exact .ok

theorem Color.ofJson?_unrefused (j : Json) : Unrefused (Color.ofJson? j) := by
  unfold Color.ofJson?
  split
  · exact .ok
  · exact (Color.ofJson_unrefused j).map

theorem Vector.ofJson_unrefused (j : Json) : Unrefused (Vector.ofJson j) := by
  unfold Vector.ofJson
  split
  · iterate 2 refine (j.part_unrefused _ _).andThen fun _ => ?_
    exact .ok
  · exact .ok

theorem Box.ofJson?_unrefused (j : Json) : Unrefused (Box.ofJson? j) := by
  unfold Box.ofJson?
  split
  · iterate 4 refine (j.part_unrefused _ _).andThen fun _ => ?_
    exact .ok
  · exact .ok

theorem Stop.ofJson_unrefused (j : Json) : Unrefused (Stop.ofJson j) := by
  unfold Stop.ofJson
  split
  · refine (j.part_unrefused _ _).andThen fun position => ?_
    refine (j.member_unrefused _).andThen fun color => ?_
    exact (Color.ofJson_unrefused color).andThen fun _ => .ok
  · exact .ok

theorem gradientOfJson_unrefused (make : List Vector → List Stop → Fill) (j : Json) :
    Unrefused (gradientOfJson make j) := by
  refine (j.member_unrefused _).andThen fun handles => ?_
  refine (mapEntries_unrefused Vector.ofJson_unrefused handles).andThen fun _ => ?_
  refine (j.member_unrefused _).andThen fun stops => ?_
  exact (mapEntries_unrefused Stop.ofJson_unrefused stops).andThen fun _ => .ok

theorem Fill.ofJson_unrefused (type j : Json) : Unrefused (Fill.ofJson type j) := by
  unfold Fill.ofJson
  split
  · refine (j.member_unrefused _).andThen fun color => ?_
    exact (Color.ofJson_unrefused color).andThen fun _ => .ok
  split
  · exact gradientOfJson_unrefused _ j
  split
  · exact gradientOfJson_unrefused _ j
  split
  · iterate 2 refine (j.member_unrefused _).andThen fun _ => ?_
    exact .ok
  · exact .ok

theorem Paint.ofJson_unrefused (j : Json) : Unrefused (Paint.ofJson j) := by
  refine (j.member_unrefused _).andThen fun type => ?_
  refine (visibleIn_unrefused j).andThen fun visible => ?_
  refine (j.member_unrefused _).andThen fun opacity => ?_
  exact (Fill.ofJson_unrefused type j).andThen fun _ => .ok

theorem shadowOfJson_unrefused (inset : Bool) (radius j : Json) :
    Unrefused (shadowOfJson inset radius j) := by
  refine (j.member_unrefused _).andThen fun offset => ?_
  refine (Vector.ofJson_unrefused offset).andThen fun _ => ?_
  refine (j.part_unrefused _ _).andThen fun spread => ?_
  refine (j.member_unrefused _).andThen fun color => ?_
  exact (Color.ofJson_unrefused color).andThen fun _ => .ok

theorem Glow.ofJson_unrefused (type radius j : Json) : Unrefused (Glow.ofJson type radius j) := by
  unfold Glow.ofJson
  split
  · exact shadowOfJson_unrefused _ radius j
  split
  · exact shadowOfJson_unrefused _ radius j
  split
  · exact .ok
  split
  · exact .ok
  · exact .ok

theorem Effect.ofJson_unrefused (j : Json) : Unrefused (Effect.ofJson j) := by
  refine (j.member_unrefused _).andThen fun type => ?_
  refine (visibleIn_unrefused j).andThen fun visible => ?_
  refine (j.part_unrefused _ _).andThen fun radius => ?_
  exact (Glow.ofJson_unrefused type radius j).andThen fun _ => .ok

theorem TextStyle.ofJson?_unrefused (j : Json) : Unrefused (TextStyle.ofJson? j) := by
  unfold TextStyle.ofJson?
  split
  · refine Faults.map ?_
    unfold TextStyle.ofJson
    iterate 9 refine (j.member_unrefused _).andThen fun _ => ?_
    exact .ok
  · exact .ok

/-- What a node says of itself is read without a refusal. -/
theorem Traits.ofJson_unrefused (j : Json) : Unrefused (Traits.ofJson j) := by
  refine (j.memberOr_unrefused _ _).andThen fun id => ?_
  refine (j.member_unrefused _).andThen fun name => ?_
  refine (j.member_unrefused _).andThen fun kind => ?_
  refine (j.member_unrefused _).andThen fun box => ?_
  refine (Box.ofJson?_unrefused box).andThen fun _ => ?_
  refine (j.member_unrefused _).andThen fun fills => ?_
  refine (mapGiven?_unrefused Paint.ofJson_unrefused fills).andThen fun _ => ?_
  refine (j.member_unrefused _).andThen fun strokes => ?_
  refine (mapGiven?_unrefused Paint.ofJson_unrefused strokes).andThen fun _ => ?_
  refine (j.member_unrefused _).andThen fun effects => ?_
  refine (mapGiven?_unrefused Effect.ofJson_unrefused effects).andThen fun _ => ?_
  refine (j.member_unrefused _).andThen fun style => ?_
  refine (TextStyle.ofJson?_unrefused style).andThen fun _ => ?_
  refine (j.member_unrefused _).andThen fun color => ?_
  refine (Color.ofJson?_unrefused color).andThen fun _ => ?_
  -- the rest is kept as it is, except whether the node is shown
  iterate 13 refine (j.member_unrefused _).andThen fun _ => ?_
  refine (visibleIn_unrefused j).andThen fun visible => ?_
  iterate 2 refine (j.member_unrefused _).andThen fun _ => ?_
  exact .ok

mutual

/-- **A value that is not `null` is read without a refusal**: where `null` stands in place of a
child, no node is read. -/
theorem Node.ofJson_unrefused : ∀ {j : Json}, j ≠ .null → Unrefused (Node.ofJson j)
  | .null, h => absurd rfl h
  | .obj fields, _ => by
    rw [Node.ofJson]
    refine (childrenField_unrefused fields).andThen fun children => ?_
    exact (Traits.ofJson_unrefused _).andThen fun _ => .ok
  | .bool _, _ => .error rfl
  | .num _, _ => .error rfl
  | .str _, _ => .error rfl
  | .arr _, _ => .error rfl

theorem childrenField_unrefused : ∀ fields : List (String × Json), Unrefused (childrenField fields)
  | [] => .ok
  | (name, value) :: rest => by
    rw [childrenField]
    split
    · exact childrenOf_unrefused value
    · exact childrenField_unrefused rest

theorem childrenOf_unrefused : ∀ j : Json, Unrefused (childrenOf j)
  | .null => .ok
  | .arr items => by
    rw [childrenOf]
    exact (nodesOf_unrefused items).andThen fun _ => .ok
  | .obj [] => .ok
  | .obj (_ :: _) => .error rfl
  | .str s => by
    by_cases h : s = ""
    · subst h
      exact .ok
    · rw [childrenOf.eq_6 s h]
      exact .error rfl
  | .bool _ => .error rfl
  | .num _ => .error rfl

theorem nodesOf_unrefused : ∀ items : List Json, Unrefused (nodesOf items)
  | [] => .ok
  | item :: rest => by
    by_cases h : item = .null
    · subst h
      rw [nodesOf]
      exact nodesOf_unrefused rest
    · rw [nodesOf.eq_3 _ _ h]
      refine (Node.ofJson_unrefused h).andThen fun node => ?_
      exact (nodesOf_unrefused rest).andThen fun _ => .ok

end

/-- **Reading refuses `null` and no other value.** -/
theorem Node.ofJson_refused_iff {j : Json} {refusal : Refusal} :
    Node.ofJson j = .error (.refused refusal) ↔ j = .null ∧ refusal = missingDocument := by
  constructor
  · intro h
    by_cases hnull : j = .null
    · subst hnull
      exact ⟨rfl, (Fault.refused.inj (Except.error.inj h)).symm⟩
    · cases Node.ofJson_unrefused hnull _ h
  · rintro ⟨rfl, rfl⟩
    rfl

end Reading

end Mockup
