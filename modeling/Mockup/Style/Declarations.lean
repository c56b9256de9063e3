import Mockup.Fault

/-!
# Declaration blocks

The declarations of one rule of a stylesheet: properties with their values. A property is declared
once, at the place where it first received a value and with the value it received last; a value that
is empty or missing is not received at all.

* `Declarations` — the block;
* `Entries` — what a block is given: properties with values that may be missing;
* `Declarations.set`, `Declarations.add`, `Declarations.addAll` — giving values to properties;
* `Declarations.text` — the block as text.
-/

namespace Mockup

/-- **A declaration block**: its properties and values in order. -/
structure Declarations where
  toList : List (String × String) := []
  deriving DecidableEq

/-- Properties with values that may be missing, in the order in which they are given to a block. -/
abbrev Entries := List (String × Option String)

/-- Entries none of which is missing. -/
def Entries.given (entries : List (String × String)) : Entries :=
  entries.map fun entry => (entry.1, some entry.2)

namespace Declarations

/-- The declarations after a property got a value: a new property comes last, one that is there
keeps its place. -/
def assign (property value : String) : List (String × String) → List (String × String)
  | [] => [(property, value)]
  | (name, old) :: rest =>
    if name = property then (name, value) :: rest else (name, old) :: assign property value rest

/-- Gives a value to a property. -/
def set (block : Declarations) (property value : String) : Declarations :=
  ⟨assign property value block.toList⟩

/-- **Gives a property a value that may be missing.** An empty value counts as missing. -/
def add (block : Declarations) (property : String) : Option String → Declarations
  | some value => if value = "" then block else block.set property value
  | none => block

/-- Gives values to several properties, one after the other. -/
def addAll (block : Declarations) (entries : Entries) : Declarations :=
  entries.foldl (fun block entry => block.add entry.1 entry.2) block

/-- One declaration as text. -/
def entryText (entry : String × String) : String := entry.1 ++ ": " ++ entry.2 ++ ";"

/-- **The block as text**: the declarations with a blank between them. -/
def text (block : Declarations) : String := " ".intercalate (block.toList.map entryText)

/-- The properties of the block. -/
def properties (block : Declarations) : List String := block.toList.map Prod.fst

@[simp] theorem add_none (block : Declarations) (property : String) :
    block.add property none = block := rfl

@[simp] theorem add_empty (block : Declarations) (property : String) :
    block.add property (some "") = block := by simp [add]

@[simp] theorem addAll_nil (block : Declarations) : block.addAll [] = block := rfl

@[simp] theorem addAll_cons (block : Declarations) (entry : String × Option String)
    (entries : Entries) :
    block.addAll (entry :: entries) = (block.add entry.1 entry.2).addAll entries := rfl

/-- Assigning changes the properties only by adding a new one at the end. -/
theorem map_fst_assign (property value : String) (entries : List (String × String)) :
    (assign property value entries).map Prod.fst =
      if property ∈ entries.map Prod.fst then entries.map Prod.fst
      else entries.map Prod.fst ++ [property] := by
  induction entries with
  | nil => simp [assign]
  | cons entry rest ih =>
    obtain ⟨name, old⟩ := entry
    by_cases h : name = property
    · simp [assign, h]
    · have h' : property ≠ name := fun e => h e.symm
      simp only [assign, h, if_false, List.map_cons, ih, List.mem_cons, h', false_or]
      split <;> simp

end Declarations

end Mockup
