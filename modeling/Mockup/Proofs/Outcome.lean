import Mockup.Fault

/-!
# Reasoning about outcomes

An operation ends with a `Result`, and one that builds something is `Work` on what it builds. The
proofs about operations take them apart at their steps, never at the text of their definitions:

* `bind_eq_ok` — a composition that succeeds has a first step that succeeds;
* `eq_ok_of_toOption`, `exists_ok_of_isSome` — the result of a fixed input;
* `Yields` — an operation succeeds **and** its value satisfies a property; `Yields.bind` and
  `Yields.mapM` carry it through a composition and over a list;
* `Succeeds` — the same where nothing is asked of the value;
* `Ensures` — **if** an operation succeeds, its value satisfies a property; the same combinators
  carry it, without a look at what may go wrong;
* `Faults` — **if** it ends with a fault, the fault satisfies a property; the same combinators;
* `Work.runFrom_ofResult_bind` — work that begins with a result, run from a state.
-/

namespace Mockup

variable {α β : Type}

/-! ### Results -/

/-- A composition that succeeds has a first step that succeeds. -/
theorem bind_eq_ok {first : Result α} {next : α → Result β} {b : β}
    (h : (first >>= next) = .ok b) : ∃ a, first = .ok a ∧ next a = .ok b := by
  cases first with
  | error fault => cases h
  | ok a => exact ⟨a, rfl, h⟩

/-- A result is a value when it has one; with this, the result of a fixed input is computed. -/
theorem eq_ok_of_toOption {result : Result α} {a : α} (h : result.toOption = some a) :
    result = .ok a := by
  cases result with
  | error fault => cases h
  | ok b => exact congrArg Except.ok (Option.some.inj h)

/-- A result that has a value is one; with this, an operation on a fixed input is seen to succeed. -/
theorem exists_ok_of_isSome {result : Result α} (h : result.toOption.isSome = true) :
    ∃ a, result = .ok a := by
  obtain ⟨a, ha⟩ := Option.isSome_iff_exists.mp h
  exact ⟨a, eq_ok_of_toOption ha⟩

/-- **The operation succeeds, and its value satisfies a property.** -/
def Yields (result : Result α) (P : α → Prop) : Prop := ∃ a, result = .ok a ∧ P a

/-- **The operation succeeds.** -/
abbrev Succeeds (result : Result α) : Prop := Yields result fun _ => True

namespace Yields

variable {P : α → Prop} {Q : β → Prop}

theorem ok {a : α} (h : P a) : Yields (.ok a) P := ⟨a, rfl, h⟩

theorem pure {a : α} (h : P a) : Yields (Pure.pure a) P := ⟨a, rfl, h⟩

/-- A composition succeeds when its steps do. -/
theorem bind {first : Result α} {next : α → Result β} (h : Yields first P)
    (hnext : ∀ a, P a → Yields (next a) Q) : Yields (first >>= next) Q := by
  obtain ⟨a, rfl, hP⟩ := h
  exact hnext a hP

theorem map {result : Result α} {f : α → β} (h : Yields result P) (hf : ∀ a, P a → Q (f a)) :
    Yields (f <$> result) Q := by
  obtain ⟨a, rfl, hP⟩ := h
  exact ⟨f a, rfl, hf a hP⟩

/-- The value of an option that has one. -/
theorem orFault {fault : Fault} {option : Option α} (h : ∃ a, option = some a ∧ P a) :
    Yields (Mockup.orFault fault option) P := by
  obtain ⟨a, rfl, hP⟩ := h
  exact .ok hP

/-- A composition succeeds when its steps do, whatever the value of the first. -/
theorem andThen {first : Result α} {next : α → Result β} (h : Succeeds first)
    (hnext : ∀ a, Succeeds (next a)) : Succeeds (first >>= next) :=
  h.bind fun a _ => hnext a

/-- An operation on every entry of a list succeeds when it does on each. -/
theorem mapM {f : α → Result β} {items : List α} (h : ∀ item ∈ items, Yields (f item) Q) :
    Yields (items.mapM f) (fun values => ∀ b ∈ values, Q b) := by
  induction items with
  | nil => exact Yields.pure (by simp)
  | cons item rest ih =>
    rw [List.mapM_cons]
    refine (h item List.mem_cons_self).bind fun b hb => ?_
    refine (ih fun i hi => h i (List.mem_cons_of_mem _ hi)).bind fun bs hbs => ?_
    refine Yields.pure fun b' hb' => ?_
    rcases List.mem_cons.mp hb' with rfl | hb'
    · exact hb
    · exact hbs b' hb'

end Yields

/-- **If the operation succeeds, its value satisfies a property.** -/
def Ensures (result : Result α) (P : α → Prop) : Prop := ∀ a, result = .ok a → P a

namespace Ensures

variable {P : α → Prop} {Q : β → Prop}

theorem ok {a : α} (h : P a) : Ensures (.ok a) P := by
  rintro _ ⟨⟩
  exact h

theorem error {fault : Fault} : Ensures (.error fault : Result α) P := nofun

/-- What a composition ensures is what its last step ensures, given what the first does. -/
theorem bind {first : Result α} {next : α → Result β} (h : Ensures first P)
    (hnext : ∀ a, P a → Ensures (next a) Q) : Ensures (first >>= next) Q := by
  intro b hb
  obtain ⟨a, ha, hb⟩ := bind_eq_ok hb
  exact hnext a (h a ha) b hb

/-- The same where nothing is known of the first value. -/
theorem andThen {first : Result α} {next : α → Result β} (hnext : ∀ a, Ensures (next a) Q) :
    Ensures (first >>= next) Q :=
  bind (P := fun _ => True) (fun _ _ => trivial) fun a _ => hnext a

theorem map {result : Result α} {f : α → β} (h : Ensures result P) (hf : ∀ a, P a → Q (f a)) :
    Ensures (f <$> result) Q := by
  cases result with
  | error fault => exact error
  | ok a => exact ok (hf a (h a rfl))

/-- What an operation ensures of every entry of a list, it ensures of all of its values. -/
theorem mapM {f : α → Result β} {items : List α} (h : ∀ item ∈ items, Ensures (f item) Q) :
    Ensures (items.mapM f) (fun values => ∀ b ∈ values, Q b) := by
  induction items with
  | nil => exact ok (by simp)
  | cons item rest ih =>
    rw [List.mapM_cons]
    refine (h item List.mem_cons_self).bind fun b hb => ?_
    refine (ih fun i hi => h i (List.mem_cons_of_mem _ hi)).bind fun bs hbs => ?_
    exact ok (List.forall_mem_cons.mpr ⟨hb, hbs⟩)

end Ensures

/-! ### Faults -/

/-- **If the operation ends with a fault, the fault satisfies a property.** -/
def Faults (result : Result α) (P : Fault → Prop) : Prop := ∀ fault, result = .error fault → P fault

namespace Faults

variable {P : Fault → Prop}

theorem ok {a : α} : Faults (.ok a) P := nofun

theorem error {fault : Fault} (h : P fault) : Faults (.error fault : Result α) P := by
  rintro _ ⟨⟩
  exact h

theorem mono {Q : Fault → Prop} {result : Result α} (h : Faults result P)
    (himp : ∀ fault, P fault → Q fault) : Faults result Q :=
  fun fault hfault => himp fault (h fault hfault)

/-- A fault of a composition is a fault of one of its steps. -/
theorem andThen {first : Result α} {next : α → Result β} (h : Faults first P)
    (hnext : ∀ a, Faults (next a) P) : Faults (first >>= next) P := by
  cases first with
  | error fault => exact error (h fault rfl)
  | ok a => exact hnext a

theorem map {result : Result α} {f : α → β} (h : Faults result P) : Faults (f <$> result) P := by
  cases result with
  | error fault => exact error (h fault rfl)
  | ok a => exact ok

/-- The fault in place of a value that is missing. -/
theorem orFault {fault : Fault} (h : P fault) (option : Option α) :
    Faults (Mockup.orFault fault option) P := by
  cases option with
  | none => exact error h
  | some a => exact ok

/-- A fault of an operation on every entry of a list is its fault on one of them. -/
theorem mapM {f : α → Result β} {items : List α} (h : ∀ item ∈ items, Faults (f item) P) :
    Faults (items.mapM f) P := by
  induction items with
  | nil => exact ok
  | cons item rest ih =>
    rw [List.mapM_cons]
    refine (h item List.mem_cons_self).andThen fun b => ?_
    exact (ih fun i hi => h i (List.mem_cons_of_mem _ hi)).andThen fun bs => ok

end Faults

/-! ### Work -/

namespace Work

variable {σ : Type}

/-- Work that begins with a result. -/
theorem runFrom_ofResult_bind (result : Result α) (next : α → Work σ β) (s : σ) :
    runFrom (ofResult result >>= next) s = match result with
      | .ok a => runFrom (next a) s
      | .error fault => (.error fault, s) := by
  rw [runFrom_bind, runFrom_ofResult]
  cases result <;> rfl

end Work

end Mockup
