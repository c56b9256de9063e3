import Mockup.Number.Basic

/-!
# JSON values

Documents, requests and replies are JSON values. A document is not checked before it is used: any
field may hold a value of any kind, and what happens then depends on what is asked of the value.
This module has the value type and the questions that every value answers; the questions that only
some kinds answer are in `Mockup.Json.Access`.

* `Json` — the values, objects as their fields in order, without repeated names;
* `Json.truthy` — whether a value counts as given: `null`, `false`, zero and whatever is empty do
  not;
* `Json.number?` — the number a value stands for, truth values counting as one and zero;
* `Json.find?` and `Json.put` — the fields of an object.
-/

namespace Mockup

/-- **A JSON value.** -/
inductive Json where
  | null
  | bool (b : Bool)
  | num (n : Number)
  | str (s : String)
  | arr (items : List Json)
  | obj (fields : List (String × Json))

namespace Json

instance : Inhabited Json := ⟨.null⟩

/-- An integer as a value. -/
def ofInt (z : Int) : Json := .num (.whole z)

/-- A double as a value. -/
def ofDouble (x : Binary64) : Json := .num (.double x)

/-- Whether a value is `null`, which also stands for a field that is absent. -/
def isNull : Json → Bool
  | .null => true
  | _ => false

/-- **Given values.** A value counts as given unless it is `null`, `false`, zero or empty. -/
def truthy : Json → Bool
  | .null => false
  | .bool b => b
  | .num n => !n.isZero
  | .str s => !s.isEmpty
  | .arr items => !items.isEmpty
  | .obj fields => !fields.isEmpty

/-- A value, or another in place of `null`. -/
def orDefault : (j default : Json) → Json
  | .null, default => default
  | j, _ => j

/-- A value, or another in place of one that does not count as given. -/
def orElse (j default : Json) : Json := if j.truthy then j else default

/-- The number that a value stands for in arithmetic. -/
def number? : Json → Option Number
  | .num n => some n
  | .bool b => some (.whole (if b then 1 else 0))
  | _ => none

/-- The value of the field of a given name. -/
def find? (name : String) : List (String × Json) → Option Json
  | [] => none
  | (key, value) :: rest => if key = name then some value else find? name rest

/-- **Writing a field**: a new name comes last, a name that is there keeps its place. -/
def put (name : String) (value : Json) : List (String × Json) → List (String × Json)
  | [] => [(name, value)]
  | (key, old) :: rest =>
    if key = name then (key, value) :: rest else (key, old) :: put name value rest

@[simp] theorem find?_put_self (name : String) (value : Json) (fields : List (String × Json)) :
    find? name (put name value fields) = some value := by
  induction fields with
  | nil => simp [put, find?]
  | cons field rest ih => by_cases h : field.1 = name <;> simp [put, find?, h, ih]

theorem find?_put_of_ne {name other : String} (h : other ≠ name) (value : Json)
    (fields : List (String × Json)) : find? other (put name value fields) = find? other fields := by
  induction fields with
  | nil => simp [put, find?, Ne.symm h]
  | cons field rest ih =>
    obtain ⟨key, old⟩ := field
    by_cases hk : key = name
    · subst hk; simp [put, find?, Ne.symm h]
    · by_cases ho : key = other
      · subst ho; simp [put, find?, hk]
      · simp [put, find?, hk, ho, ih]

end Json

end Mockup
