import Mathlib.Data.List.Forall2
import Mockup.Proofs.Link.Title
import Mockup.Proofs.Text.Alphanumeric

/-!
# Queries put together from parameters

A query is made of parameters with a separator between them. The reader undoes the escapes of the whole
text before it splits the query, so the parts that it splits are not those that were written. This module
follows a query through both steps, for parameters of ordinary characters: those that mean nothing to the
reader by themselves.

* `Ordinary` — texts of ordinary characters;
* `StandsFor` — **what a written part of a query stands for** once its escapes are undone;
* `reads_joined` — a query is read part by part;
* `parameters_queryText` — **the parameters of a query are those that it was put together from**, but for
  those without a value;
* `valueOf?_queryText` — the first parameter of a name is found.
-/

namespace Mockup.Link

open Text

/-! ### Ordinary characters -/

/-- A character without a meaning of its own in a query. -/
def isOrdinary (c : Char) : Bool := c.isAlphanum || "-_.:;/".toList.contains c

/-- **Whether a text has ordinary characters only.** -/
def Ordinary (cs : List Char) : Prop := ∀ c ∈ cs, isOrdinary c = true

instance (cs : List Char) : Decidable (Ordinary cs) :=
  decidable_of_iff (cs.all isOrdinary = true) List.all_eq_true

theorem isOrdinary_of_isAlphanum {c : Char} (h : c.isAlphanum = true) : isOrdinary c = true := by
  rw [isOrdinary, h, Bool.true_or]

theorem isBlank_of_isOrdinary {c : Char} (h : isOrdinary c = true) : isBlank c = false := by
  rw [isOrdinary, Bool.or_eq_true, List.contains_iff_mem] at h
  rcases h with h | h
  · exact isBlank_of_isAlphanum h
  · have unblank : Unblank "-_.:;/".toList := by decide
    exact unblank c h

namespace Ordinary

variable {cs front back : List Char}

theorem nil : Ordinary [] := nofun

theorem cons {c : Char} (hc : isOrdinary c = true) (h : Ordinary cs) : Ordinary (c :: cs) :=
  List.forall_mem_cons.mpr ⟨hc, h⟩

theorem append (hfront : Ordinary front) (hback : Ordinary back) : Ordinary (front ++ back) :=
  List.forall_mem_append.mpr ⟨hfront, hback⟩

theorem of_isAlphanum (h : ∀ c ∈ cs, c.isAlphanum = true) : Ordinary cs := fun c hc =>
  isOrdinary_of_isAlphanum (h c hc)

theorem notMem {mark : Char} (h : Ordinary cs) (hmark : isOrdinary mark = false) : mark ∉ cs :=
  fun hmem => by cases hmark.symm.trans (h mark hmem)

theorem decodeForm (h : Ordinary cs) : Percent.decodeForm cs = cs :=
  Percent.decodeForm_eq_self (h.notMem (by decide)) (h.notMem (by decide))

theorem unblank (h : Ordinary cs) : Unblank cs := fun c hc => isBlank_of_isOrdinary (h c hc)

/-- An ordinary text is read as it is. -/
theorem reads (h : Ordinary cs) : Percent.Reads cs cs := .of_notMem (h.notMem (by decide))

end Ordinary

/-! ### Parts -/

/-- The query with given parts. -/
def joined (parts : List (List Char)) : List Char := ['&'].intercalate parts

theorem joined_singleton (part : List Char) : joined [part] = part :=
  List.intercalate_singleton

theorem joined_cons_cons (part next : List Char) (parts : List (List Char)) :
    joined (part :: next :: parts) = part ++ '&' :: joined (next :: parts) := by
  rw [joined, List.intercalate_cons_cons, ← joined, List.append_assoc, List.singleton_append]

/-- Whatever holds of the separator and of the characters of all parts holds of those of the query. -/
theorem forall_mem_joined {P : Char → Prop} (separator : P '&') {parts : List (List Char)}
    (h : ∀ part ∈ parts, ∀ c ∈ part, P c) : ∀ c ∈ joined parts, P c := by
  induction parts with
  | nil => exact nofun
  | cons part parts ih =>
    obtain ⟨hpart, hrest⟩ := List.forall_mem_cons.mp h
    cases parts with
    | nil => rwa [joined_singleton]
    | cons next parts =>
      rw [joined_cons_cons, List.forall_mem_append, List.forall_mem_cons]
      exact ⟨hpart, separator, ih hrest⟩

/-- Parts without the separator are split where they were joined. -/
theorem splitAtEach_joined {parts : List (List Char)} (h : ∀ part ∈ parts, '&' ∉ part)
    (ne : parts ≠ []) : splitAtEach '&' (joined parts) = parts := by
  induction parts with
  | nil => exact absurd rfl ne
  | cons part parts ih =>
    obtain ⟨hpart, hrest⟩ := List.forall_mem_cons.mp h
    cases parts with
    | nil => rw [joined_singleton, splitAtEach_of_notMem hpart]
    | cons next parts =>
      rw [joined_cons_cons, splitAtEach_append_cons, splitAtEach_of_notMem hpart,
        ih hrest (List.cons_ne_nil _ _), List.singleton_append]

/-! ### Parameters -/

/-- The text of a parameter with a name and a value. -/
def parameterText (parameter : List Char × List Char) : List Char :=
  parameter.1 ++ '=' :: parameter.2

/-- The text of a query with given parameters. -/
def queryText (parameters : List (List Char × List Char)) : List Char :=
  joined (parameters.map parameterText)

/-- **A part of a query stands for a parameter** when it is read as its text, and nothing in the
parameter has a meaning of its own. -/
structure StandsFor (part : List Char) (parameter : List Char × List Char) : Prop where
  reads : Percent.Reads part (parameterText parameter)
  name : Ordinary parameter.1
  value : Ordinary parameter.2

/-- A value stands for what it is read as, and the name and the equals sign for themselves. -/
theorem StandsFor.of_reads {name written value : List Char} (hname : Ordinary name)
    (hvalue : Ordinary value) (hreads : Percent.Reads written value) :
    StandsFor (name ++ '=' :: written) (name, value) :=
  ⟨hname.reads.append (.cons (by decide) hreads), hname, hvalue⟩

/-- What each part stands for. -/
theorem exists_parameters {P : List Char × List Char → Prop} {parts : List (List Char)}
    (h : ∀ part ∈ parts, ∃ parameter, StandsFor part parameter ∧ P parameter) :
    ∃ parameters, List.Forall₂ StandsFor parts parameters ∧ ∀ parameter ∈ parameters, P parameter := by
  induction parts with
  | nil => exact ⟨[], .nil, nofun⟩
  | cons part parts ih =>
    obtain ⟨⟨parameter, hstands, hparameter⟩, hrest⟩ := List.forall_mem_cons.mp h
    obtain ⟨parameters, hall, hparameters⟩ := ih hrest
    exact ⟨parameter :: parameters, .cons hstands hall,
      List.forall_mem_cons.mpr ⟨hparameter, hparameters⟩⟩

section Query

variable {parts : List (List Char)} {parameters : List (List Char × List Char)}

/-- **A query is read part by part.** -/
theorem reads_joined (h : List.Forall₂ StandsFor parts parameters) :
    Percent.Reads (joined parts) (queryText parameters) := by
  induction h with
  | nil => exact .nil
  | @cons part parameter parts parameters hstands hrest ih =>
    rw [queryText] at ih ⊢
    cases hrest with
    | nil =>
      rw [List.map_singleton, joined_singleton, joined_singleton]
      exact hstands.reads
    | cons hnext hrest =>
      rw [List.map_cons, List.map_cons, joined_cons_cons, joined_cons_cons]
      exact hstands.reads.append (.cons (by decide) ih)

/-- Whether the names and the values of parameters are ordinary. -/
def AllOrdinary (parameters : List (List Char × List Char)) : Prop :=
  ∀ parameter ∈ parameters, Ordinary parameter.1 ∧ Ordinary parameter.2

/-- What parts stand for is ordinary. -/
theorem allOrdinary_of_standsFor (h : List.Forall₂ StandsFor parts parameters) :
    AllOrdinary parameters := by
  induction h with
  | nil => exact nofun
  | cons hstands hrest ih => exact List.forall_mem_cons.mpr ⟨⟨hstands.name, hstands.value⟩, ih⟩

/-- Whatever holds of ordinary characters and of the equals sign holds of those of a parameter. -/
theorem AllOrdinary.forall_mem_parameterText {P : Char → Prop} (h : AllOrdinary parameters)
    (ordinary : ∀ c, isOrdinary c = true → P c) (equals : P '=') :
    ∀ part ∈ parameters.map parameterText, ∀ c ∈ part, P c := by
  intro part hpart
  obtain ⟨parameter, hparameter, rfl⟩ := List.mem_map.mp hpart
  obtain ⟨hname, hvalue⟩ := h parameter hparameter
  rw [parameterText, List.forall_mem_append, List.forall_mem_cons]
  exact ⟨fun c hc => ordinary c (hname c hc), equals, fun c hc => ordinary c (hvalue c hc)⟩

/-- A query of ordinary parameters has no other marks. -/
theorem AllOrdinary.notMem_queryText {mark : Char} (h : AllOrdinary parameters)
    (hmark : isOrdinary mark = false) (equals : '=' ≠ mark) (separator : '&' ≠ mark) :
    mark ∉ queryText parameters := by
  have hall := forall_mem_joined (P := (· ≠ mark)) separator
    (h.forall_mem_parameterText (fun c hc same => by cases hmark.symm.trans (same ▸ hc)) equals)
  exact fun hmem => hall mark hmem rfl

/-- **The parameters of a query are those that it was put together from**, but for those without a
value. -/
theorem parameters_queryText (h : AllOrdinary parameters) :
    Link.parameters (queryText parameters) = parameters.filter fun parameter => parameter.2 ≠ [] := by
  by_cases hnil : parameters = []
  · subst hnil
    rfl
  have hparts : ∀ part ∈ parameters.map parameterText, '&' ∉ part := fun part hpart hmem =>
    h.forall_mem_parameterText (P := (· ≠ '&')) (fun c hc => by rintro rfl; exact absurd hc (by decide))
      (by decide) part hpart '&' hmem rfl
  rw [Link.parameters, queryText, splitAtEach_joined hparts (by simpa using hnil), List.filterMap_map,
    ← List.filterMap_eq_filter]
  refine List.filterMap_congr fun parameter hparameter => ?_
  obtain ⟨hname, hvalue⟩ := h parameter hparameter
  obtain ⟨name, value⟩ := parameter
  dsimp only at hname hvalue
  have hequals : '=' ∉ name := hname.notMem (by decide)
  cases value with
  | nil =>
    rw [Function.comp_apply, parameterText, parameter?, cutAt_append_cons hequals]
    rfl
  | cons c value =>
    rw [Function.comp_apply, parameterText, parameter?_eq hequals (List.cons_ne_nil _ _),
      hname.decodeForm, hvalue.decodeForm]
    rfl

/-! ### Values -/

/-- A name that no parameter has is not found. -/
theorem valueOf?_eq_none {name : String} (h : ∀ parameter ∈ parameters, parameter.1 ≠ name.toList) :
    valueOf? name parameters = none := by
  rw [valueOf?, List.find?_eq_none.mpr fun parameter hparameter => by simpa using h parameter hparameter]
  rfl

/-- A name that no parameter of a query has is not found in it. -/
theorem valueOf?_queryText_eq_none {name : String} (h : AllOrdinary parameters)
    (others : ∀ parameter ∈ parameters, parameter.1 ≠ name.toList) :
    valueOf? name (Link.parameters (queryText parameters)) = none := by
  rw [parameters_queryText h]
  exact valueOf?_eq_none fun parameter hparameter =>
    others parameter (List.mem_of_mem_filter hparameter)

/-- **The first parameter of a name is found**, if it has a value. -/
theorem valueOf?_queryText {name : String} {value : List Char}
    (before after : List (List Char × List Char))
    (h : AllOrdinary (before ++ (name.toList, value) :: after))
    (others : ∀ parameter ∈ before, parameter.1 ≠ name.toList) (ne : value ≠ []) :
    valueOf? name (Link.parameters (queryText (before ++ (name.toList, value) :: after)))
      = some value := by
  have hbefore : valueOf? name (before.filter fun parameter => parameter.2 ≠ []) = none :=
    valueOf?_eq_none fun parameter hparameter => others parameter (List.mem_of_mem_filter hparameter)
  have hfilter : ((name.toList, value) :: after).filter (fun parameter => parameter.2 ≠ [])
      = [(name.toList, value)] ++ after.filter fun parameter => parameter.2 ≠ [] :=
    List.filter_cons_of_pos (decide_eq_true ne)
  rw [parameters_queryText h, List.filter_append, valueOf?_append, hbefore, hfilter, valueOf?_append,
    valueOf?_singleton_of_eq rfl]
  rfl

/-- The node that a query without backslashes names, by its parameters. -/
theorem nodeInQuery?_queryText (h : AllOrdinary parameters) :
    nodeInQuery? (queryText parameters)
      = (valueOf? "node-id" (Link.parameters (queryText parameters))
        <|> valueOf? "id" (Link.parameters (queryText parameters))).map nodeName := by
  have hslashes : (queryText parameters).filter (· ≠ '\\') = queryText parameters := by
    refine List.filter_eq_self.mpr fun c hc => decide_eq_true ?_
    rintro rfl
    exact h.notMem_queryText (by decide) (by decide) (by decide) hc
  rw [nodeInQuery?, hslashes]

end Query

end Mockup.Link
