import Mockup.Proofs.Text.Escape

/-!
# Attributes, written and read back

A title or the address of a stylesheet is written with five replacements, of which the ones for the
quotes matter: the value of an attribute ends at a quote. A reader of markup undoes them. It may know
any number of further entities; all that counts here is that it reads the five back and leaves alone
what is no ampersand.

* `EntityReader` — **a reader of entities**;
* `EntityReader.read_escapeAttribute` — **what is written is read back**;
* `notMem_escapeAttribute` — nothing that is written ends the attribute or begins a tag.
-/

namespace Mockup.Text

/-- What is written for a character in an attribute. -/
def attributeCode (c : Char) : List Char := replaceEach attributeEntities [c]

theorem toList_escapeAttribute (text : String) :
    (escapeAttribute text).toList = text.toList.flatMap attributeCode := by
  rw [escapeAttribute, String.toList_ofList, replaceEach_eq_flatMap]
  rfl

/-- A character with an entity is written as the entity: the ampersand is replaced first, so it is
not replaced once more in what the others write. -/
theorem attributeCode_of_mem {entry : Char × String} (h : entry ∈ attributeEntities) :
    attributeCode entry.1 = entry.2.toList := by
  have hall : ∀ entry ∈ attributeEntities, attributeCode entry.1 = entry.2.toList := by decide
  exact hall entry h

/-- A character without an entity stays as it is. -/
theorem attributeCode_of_ne {c : Char} (h : ∀ entry ∈ attributeEntities, c ≠ entry.1) :
    attributeCode c = [c] :=
  replaceEach_singleton_of_ne h

/-- **Nothing that is written ends an attribute or begins a tag.** -/
theorem notMem_escapeAttribute {mark : Char} (h : mark ∈ ['<', '>', '"', '\'']) (text : String) :
    mark ∉ (escapeAttribute text).toList := by
  -- each of the marks has an entity, and no entity has one of the marks
  have hentities : (∀ entry ∈ attributeEntities, mark ∉ entry.2.toList)
      ∧ ∃ entry ∈ attributeEntities, mark = entry.1 := by
    simp only [List.mem_cons, List.not_mem_nil, or_false] at h
    rcases h with rfl | rfl | rfl | rfl
    all_goals decide
  obtain ⟨absent, present⟩ := hentities
  rw [toList_escapeAttribute]
  intro hmem
  obtain ⟨c, -, hc⟩ := List.mem_flatMap.mp hmem
  by_cases entity : ∃ entry ∈ attributeEntities, c = entry.1
  · obtain ⟨entry, hentry, rfl⟩ := entity
    rw [attributeCode_of_mem hentry] at hc
    exact absent entry hentry hc
  · have hne : ∀ entry ∈ attributeEntities, c ≠ entry.1 := fun entry hentry e =>
      entity ⟨entry, hentry, e⟩
    rw [attributeCode_of_ne hne] at hc
    obtain rfl := List.mem_singleton.mp hc
    exact entity present

/-! ### Reading back -/

/-- **A reader of entities.** It reads the five that are written, whatever comes after them, and
leaves alone what begins no entity. -/
structure EntityReader where
  read : List Char → List Char
  read_nil : read [] = []
  read_entity : ∀ entry ∈ attributeEntities, ∀ rest,
    read (entry.2.toList ++ rest) = entry.1 :: read rest
  read_plain : ∀ c, c ≠ '&' → ∀ rest, read (c :: rest) = c :: read rest

namespace EntityReader

theorem read_attributeCode_append (reader : EntityReader) (c : Char) (rest : List Char) :
    reader.read (attributeCode c ++ rest) = c :: reader.read rest := by
  by_cases entity : ∃ entry ∈ attributeEntities, c = entry.1
  · obtain ⟨entry, hentry, rfl⟩ := entity
    rw [attributeCode_of_mem hentry, reader.read_entity entry hentry]
  · have hne : ∀ entry ∈ attributeEntities, c ≠ entry.1 := fun entry hentry e =>
      entity ⟨entry, hentry, e⟩
    have hamp : c ≠ '&' := hne ('&', "&amp;") (.head _)
    rw [attributeCode_of_ne hne, List.singleton_append, reader.read_plain c hamp]

/-- **Round trip.** What is written for a text is read back as the text. -/
theorem read_escapeAttribute (reader : EntityReader) (text : String) :
    reader.read (escapeAttribute text).toList = text.toList := by
  rw [toList_escapeAttribute]
  induction text.toList with
  | nil => exact reader.read_nil
  | cons c rest ih => rw [List.flatMap_cons, read_attributeCode_append, ih]

/-- Reading the five entities and no others. -/
def readFive : List Char → List Char
  | '&' :: 'a' :: 'm' :: 'p' :: ';' :: rest => '&' :: readFive rest
  | '&' :: 'l' :: 't' :: ';' :: rest => '<' :: readFive rest
  | '&' :: 'g' :: 't' :: ';' :: rest => '>' :: readFive rest
  | '&' :: 'q' :: 'u' :: 'o' :: 't' :: ';' :: rest => '"' :: readFive rest
  | '&' :: '#' :: 'x' :: '2' :: '7' :: ';' :: rest => '\'' :: readFive rest
  | c :: rest => c :: readFive rest
  | [] => []

/-- The reader that knows the five entities and no others. -/
def ofFive : EntityReader where
  read := readFive
  read_nil := rfl
  read_entity := by
    simp only [attributeEntities, List.forall_mem_cons]
    exact ⟨fun _ => rfl, fun _ => rfl, fun _ => rfl, fun _ => rfl, fun _ => rfl, nofun⟩
  read_plain c amp rest := by
    rw [readFive]
    all_goals
      intros
      simp_all

end EntityReader

end Mockup.Text
