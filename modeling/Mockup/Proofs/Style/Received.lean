import Mockup.Proofs.Style.Entries

/-!
# What a block says of the values that it received

A block is built by giving values to properties, to one or to several at a time, over and over and in
any order. Values that are missing or empty are not received. What is left of all this in the block
is, for each property, the place where it first received a value and the value that it received last.

* `Giving`, `Giving.work` — a step that gives values;
* `Entries.received` — the values of entries that count;
* `firsts`, `lastValue?` — the properties in the order in which they first received a value, and the
  value that a property received last;
* `Declarations.Records` — a block that says both of what was received, and nothing else. One value
  more is recorded by `Declarations.set` (`Records.set`), all of them by induction
  (`Records.addAll`);
* `Giving.block_lists_received` — **every block that is built lists each property once, in the order
  of the first values, with the last value.**
-/

namespace Mockup

/-! ### Values that are received -/

/-- An entry as it is received: with a value, which is not empty. -/
def received? : String × Option String → Option (String × String)
  | (property, some value) => if value = "" then none else some (property, value)
  | (_, none) => none

/-- **The values that are received** from entries, each with its property. -/
def Entries.received (entries : Entries) : List (String × String) := entries.filterMap received?

theorem Entries.received_cons (entry : String × Option String) (rest : Entries) :
    received (entry :: rest) = (received? entry).toList ++ received rest := by
  rw [received, List.filterMap_cons]
  cases received? entry <;> rfl

theorem Entries.mem_received {entries : Entries} {property value : String} :
    (property, value) ∈ entries.received ↔ value ≠ "" ∧ (property, some value) ∈ entries := by
  constructor
  · intro h
    obtain ⟨⟨name, _ | given⟩, hmem, hreceived⟩ := List.mem_filterMap.mp h
    · cases hreceived
    · rw [received?] at hreceived
      split at hreceived
      · cases hreceived
      · rename_i nonempty
        obtain ⟨rfl, rfl⟩ := Prod.mk.inj (Option.some.inj hreceived)
        exact ⟨nonempty, hmem⟩
  · rintro ⟨nonempty, hmem⟩
    exact List.mem_filterMap.mpr ⟨_, hmem, if_neg nonempty⟩

/-- What is received once is received again. -/
theorem received?_received {entry : String × Option String} {pair : String × String}
    (h : received? entry = some pair) : received? (pair.1, some pair.2) = some pair := by
  obtain ⟨property, _ | value⟩ := entry
  · cases h
  · rw [received?] at h
    split at h
    · cases h
    · rename_i given
      obtain rfl : (property, value) = pair := Option.some.inj h
      exact if_neg given

namespace Declarations

theorem add_of_received {entry : String × Option String} {pair : String × String}
    (h : received? entry = some pair) (block : Declarations) :
    block.add entry.1 entry.2 = block.set pair.1 pair.2 := by
  obtain ⟨property, _ | value⟩ := entry
  · cases h
  · rw [received?] at h
    split at h
    · cases h
    · rename_i given
      obtain rfl : (property, value) = pair := Option.some.inj h
      exact if_neg given

theorem add_of_not_received {entry : String × Option String} (h : received? entry = none)
    (block : Declarations) : block.add entry.1 entry.2 = block := by
  obtain ⟨property, _ | value⟩ := entry
  · rfl
  · rw [received?] at h
    split at h
    · rename_i empty
      exact if_pos empty
    · cases h

/-- **Values that are not received make no difference**, whatever block they are given to. -/
theorem addAll_received (block : Declarations) (entries : Entries) :
    block.addAll (Entries.given entries.received) = block.addAll entries := by
  induction entries generalizing block with
  | nil => rfl
  | cons entry rest ih =>
    rw [addAll_cons, Entries.received_cons]
    cases h : received? entry with
    | none =>
      rw [add_of_not_received h]
      exact ih block
    | some pair =>
      rw [add_of_received h, ← add_of_received (received?_received h)]
      exact ih _

end Declarations

/-! ### The first and the last value of a property -/

/-- **The properties that received a value**, in the order in which they first did. -/
def firsts (received : List (String × String)) : List String :=
  (received.map Prod.fst).eraseDups

/-- **The value that a property received last.** -/
def lastValue? (property : String) (received : List (String × String)) : Option String :=
  ((received.filter (·.1 = property)).getLast?).map Prod.snd

section Received

variable {received : List (String × String)}

/-- A property that receives a value again keeps its place, and any other comes last. -/
theorem firsts_append_singleton (pair : String × String) :
    firsts (received ++ [pair])
      = if pair.1 ∈ firsts received then firsts received else firsts received ++ [pair.1] := by
  have hmem : pair.1 ∈ firsts received ↔ pair.1 ∈ received.map Prod.fst := List.mem_eraseDups
  rw [firsts, List.map_append, List.map_singleton, List.eraseDups_append]
  by_cases known : pair.1 ∈ received.map Prod.fst
  · rw [if_pos (hmem.mpr known)]
    simp [List.removeAll, firsts, known]
  · rw [if_neg (mt hmem.mp known)]
    simp [List.removeAll, List.eraseDups_cons, firsts, known]

theorem lastValue?_append_self (pair : String × String) :
    lastValue? pair.1 (received ++ [pair]) = some pair.2 := by
  simp [lastValue?]

theorem lastValue?_append_of_ne {pair : String × String} {property : String}
    (h : property ≠ pair.1) :
    lastValue? property (received ++ [pair]) = lastValue? property received := by
  simp [lastValue?, h.symm]

end Received

/-! ### Blocks that record what they received -/

namespace Declarations

/-- **A block records what was received**: each property once, where it first received a value, and
with the value that it received last. -/
structure Records (block : Declarations) (received : List (String × String)) : Prop where
  once : block.properties.Nodup
  order : block.properties = firsts received
  last : ∀ property, block.value? property = lastValue? property received

namespace Records

variable {block : Declarations} {received : List (String × String)}

theorem empty : Records {} [] where
  once := .nil
  order := rfl
  last _ := rfl

/-- **One value more.** -/
theorem set (h : Records block received) (pair : String × String) :
    Records (block.set pair.1 pair.2) (received ++ [pair]) where
  once := nodup_assign pair.1 pair.2 h.once
  order := by
    -- a property keeps the place it had first
    rw [firsts_append_singleton, ← h.order]
    exact map_fst_assign pair.1 pair.2 block.toList
  last := by
    intro property
    -- the last value is the new one
    by_cases same : property = pair.1
    · subst same
      rw [lastValue?_append_self]
      exact find?_assign_self pair.1 pair.2 block.toList
    -- and no other property has changed
    · rw [lastValue?_append_of_ne same, ← h.last property]
      exact find?_assign_of_ne same pair.2 block.toList

/-- **All values that are received from entries**, one after the other. -/
theorem addAll (h : Records block received) (entries : Entries) :
    Records (block.addAll entries) (received ++ entries.received) := by
  induction entries generalizing block received with
  | nil => exact (List.append_nil received).symm ▸ h
  | cons entry rest ih =>
    rw [addAll_cons, Entries.received_cons]
    cases hentry : received? entry with
    | none =>
      -- neither the block nor what was received is another one
      rw [add_of_not_received hentry]
      exact ih h
    | some pair =>
      -- the entry goes to the end of what was received
      rw [add_of_received hentry, ← List.append_assoc]
      exact ih (h.set pair)

/-- So its declarations are the properties in that order, with these values. -/
theorem toList_eq (h : Records block received) :
    block.toList
      = (firsts received).map fun property => (property, (lastValue? property received).getD "") := by
  rw [← h.order, properties, List.map_map]
  refine (List.map_id _).symm.trans (List.map_congr_left fun entry hentry => ?_)
  have hvalue : block.value? entry.1 = some entry.2 := (value?_eq_some h.once).mpr hentry
  rw [h.last] at hvalue
  change entry = (entry.1, (lastValue? entry.1 received).getD "")
  rw [hvalue, Option.getD_some]

end Records

end Declarations

/-! ### Steps -/

/-- **A step that gives values** to one property, or to several one after the other. -/
inductive Giving where
  | one (property : String) (value : Option String)
  | several (entries : Entries)

namespace Giving

/-- The work of a step. -/
def work : Giving → Styling Unit
  | .one property value => Styling.declare property value
  | .several entries => Styling.declareAll entries

/-- The entries that a step gives. -/
def entries : Giving → Entries
  | .one property value => [(property, value)]
  | .several entries => entries

/-- The step without the values that are not received. -/
def sifted (giving : Giving) : Giving := .several (Entries.given giving.entries.received)

theorem runFrom_work (giving : Giving) (block : Declarations) :
    giving.work.runFrom block = (.ok (), block.addAll giving.entries) := by
  cases giving <;> rfl

/-- Steps one after the other give all their entries. -/
theorem runFrom_forM_work (givings : List Giving) (block : Declarations) :
    (forM givings work).runFrom block = (.ok (), block.addAll (givings.flatMap entries)) := by
  induction givings generalizing block with
  | nil => rfl
  | cons giving rest ih =>
    rw [List.forM_cons, Work.runFrom_bind, runFrom_work, List.flatMap_cons,
      Declarations.addAll_append]
    exact ih _

/-- All values that are received from steps, in order. -/
def received (givings : List Giving) : List (String × String) :=
  Entries.received (givings.flatMap entries)

/-- **What a block lists.** Whatever steps give to an empty block, its text lists the properties that
received a value, each once, in the order in which they first received one and each with the value
that it received last; and from any block, a step does the same without the values that are missing
or empty. -/
theorem block_lists_received (givings : List Giving) :
    (∃ block : Declarations, (forM givings work).runFrom {} = (.ok (), block)
      ∧ block.Records (received givings)
      ∧ (∀ property, property ∈ block.properties ↔
          ∃ giving ∈ givings, ∃ value, value ≠ "" ∧ (property, some value) ∈ giving.entries)
      ∧ block.text = " ".intercalate ((firsts (received givings)).map fun property =>
          property ++ ": " ++ (lastValue? property (received givings)).getD "" ++ ";"))
    ∧ ∀ (giving : Giving) (block : Declarations),
        giving.sifted.work.runFrom block = giving.work.runFrom block := by
  -- the block records what is given to it
  have hrecords : Declarations.Records _ (received givings) :=
    Declarations.Records.empty.addAll (givings.flatMap entries)
  refine ⟨⟨_, runFrom_forM_work givings {}, hrecords, ?_, ?_⟩, ?_⟩
  -- a property is listed when it was received
  · intro property
    rw [hrecords.order, firsts, List.mem_eraseDups, List.mem_map]
    constructor
    · rintro ⟨⟨_, value⟩, hmem, rfl⟩
      -- a step gave it a value
      obtain ⟨nonempty, hmem⟩ := Entries.mem_received.mp hmem
      obtain ⟨giving, hgiving, hentry⟩ := List.mem_flatMap.mp hmem
      exact ⟨giving, hgiving, value, nonempty, hentry⟩
    -- and what a step gives is received
    · rintro ⟨giving, hgiving, value, nonempty, hentry⟩
      have hmem := List.mem_flatMap.mpr ⟨giving, hgiving, hentry⟩
      exact ⟨(property, value), Entries.mem_received.mpr ⟨nonempty, hmem⟩, rfl⟩
  -- the text follows the list
  · rw [Declarations.text, hrecords.toList_eq, List.map_map]
    rfl
  -- an entry without effect has none in any step
  · intro giving block
    rw [runFrom_work, runFrom_work]
    exact congrArg (Except.ok (), ·) (block.addAll_received giving.entries)

end Giving

end Mockup
