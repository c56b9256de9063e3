import Mathlib.Data.List.Forall2
import Mockup.Web.Framework

/-!
# What is documented of the framework

The answers of the server depend on a framework that is not part of the program. What is proved of them
rests on what the framework is documented to do, and on nothing else of it.

* `Field.Admits`, `Field.Refuses` — which values a field may have, and the issue with any other one;
* `Complaints` — the issues of several fields;
* `Framework.Documented` — **what is documented of a framework**;
* `Framework.standard_documented` — the framework at work is as documented.

A body that is read to its end and holds half of a pair alone is in none of these laws, nor is the
kind of issue that is found with a body that is no object.
-/

namespace Mockup

/-! ### Fields -/

/-- **The values that a field may have**, with what they stand for: a text of the declared length,
and for an optional field also none or `null`. -/
inductive Field.Admits (field : Field) : Option Json → Option String → Prop
  | text {text : String} (long : field.shortest ≤ text.length) :
    field.Admits (some (.str text)) (some text)
  | absent (optional : field.isOptional = true) : field.Admits none none
  | null (optional : field.isOptional = true) : field.Admits (some .null) none

/-- **The issue with a field** that has any other value, or none. -/
inductive Field.Refuses (field : Field) (members : List (String × Json)) : Issue → Prop
  | missing (value_eq : Json.find? field.name members = none)
    (required : field.isOptional = false) :
    field.Refuses members ⟨["body", field.name], .missing, .obj members⟩
  | tooShort {text : String} (value_eq : Json.find? field.name members = some (.str text))
    (short : text.length < field.shortest) :
    field.Refuses members ⟨["body", field.name], .tooShort, .str text⟩
  | notText {value : Json} (value_eq : Json.find? field.name members = some value)
    (not_text : ∀ text, value ≠ .str text) (required : value = .null → field.isOptional = false) :
    field.Refuses members ⟨["body", field.name], .notText, value⟩

/-- **The issues of several fields**: one for each field that has one, in the order of the fields. -/
inductive Complaints (members : List (String × Json)) : List Field → List Issue → Prop
  | nil : Complaints members [] []
  | admitted {field : Field} {fields : List Field} {value : Option String} {issues : List Issue}
    (admits : field.Admits (Json.find? field.name members) value)
    (others : Complaints members fields issues) : Complaints members (field :: fields) issues
  | refused {field : Field} {fields : List Field} {issue : Issue} {issues : List Issue}
    (refuses : field.Refuses members issue)
    (others : Complaints members fields issues) :
    Complaints members (field :: fields) (issue :: issues)

/-! ### Documented behaviour -/

namespace Framework

/-- **An issue can be told** when what an answer repeats of the value that it is about can be
written. -/
def CanTell (framework : Framework) (issue : Issue) : Prop :=
  Answer.isWritable (framework.repeated issue.input) = true

/-- **What is documented of a framework.** -/
structure Documented (framework : Framework) : Prop where
  /-- An offer is found under its own method and path. -/
  offered : ∀ offer : Offer, framework.route offer.method offer.path = .ok offer
  /-- An object is taken when each field admits its value. -/
  accepts : ∀ fields members values, framework.check fields (.obj members) = .ok values ↔
    List.Forall₂ (fun field value => field.Admits (Json.find? field.name members) value)
      fields values
  /-- Any other object is rejected with the issues of its fields. -/
  rejects : ∀ fields members issues, framework.check fields (.obj members) = .error issues ↔
    Complaints members fields issues ∧ issues ≠ []
  /-- A body that is no object is rejected with one issue, which is about the body. -/
  rejects_other : ∀ fields j, (∀ members, j ≠ .obj members) →
    framework.check fields j = .error [⟨["body"], framework.kindOfOther j, j⟩]
  /-- A body that is missing, or is no JSON, is rejected with one issue about the body. -/
  unread_invalid : ∀ error, error = none ∨ error = some .malformed →
    ∃ issue, issue.place.head? = some "body"
      ∧ framework.unread error = ⟨422, .issues [issue]⟩
  /-- When reading ends with any other error, the request is a bad one. -/
  unread_error : ∀ error, error = .tooManyDigits ∨ error = .undecodable →
    framework.unread (some error) = .detail 400 "There was an error parsing the body"
  /-- An answer repeats of a value that can be written what can be written. -/
  repeats : ∀ j, Answer.isWritable j = true → Answer.isWritable (framework.repeated j) = true
  /-- It repeats a number as it is. -/
  repeats_number : ∀ n, framework.repeated (.num n) = .num n
  /-- A rejection lists the issues when all of them can be told. -/
  tells : ∀ issues, (∀ issue ∈ issues, framework.CanTell issue) →
    framework.reject issues = ⟨422, .issues issues⟩
  /-- Otherwise something unforeseen went wrong. -/
  fails_to_tell : ∀ issues, (∃ issue ∈ issues, ¬ framework.CanTell issue) →
    framework.reject issues = framework.broken
  /-- A value that can be written is sent. -/
  sends : ∀ status j, Answer.isWritable j = true → framework.send status j = ⟨status, .value j⟩
  /-- Otherwise something unforeseen went wrong. -/
  fails_to_send : ∀ status j, Answer.isWritable j = false →
    framework.send status j = framework.broken
  /-- What is unforeseen is answered without details. -/
  unforeseen : framework.broken = ⟨500, .text "Internal Server Error"⟩

end Framework

/-! ### The check of a body -/

section Check

variable {field : Field} {fields : List Field} {members : List (String × Json)}
  {value : Option String} {issue : Issue}

/-- A field is read when it admits its value. -/
theorem Field.read_eq_ok_iff :
    field.read members = .ok value ↔ field.Admits (Json.find? field.name members) value := by
  rw [Field.read]
  generalize Json.find? field.name members = found
  constructor
  · intro h
    split at h
    · -- nothing is there
      split at h
      · cases h
        exact .absent ‹_›
      · cases h
    · -- a text is there
      split at h
      · cases h
      · cases h
        exact .text (Nat.le_of_not_lt ‹_›)
    · -- another value is there, which can only be `null`
      rename_i j _
      split at h
      · rename_i both
        rw [Bool.and_eq_true] at both
        cases h
        cases j with
        | null => exact .null both.1
        | _ => cases both.2
      · cases h
  · rintro (long | optional | optional)
    -- a text of the length
    · exact if_neg (Nat.not_lt_of_le long)
    -- no value, where none is required
    · exact if_pos optional
    -- the same written as null
    · exact if_pos (by rw [optional]; rfl)

/-- Otherwise there is an issue with it. -/
theorem Field.read_eq_error_iff :
    field.read members = .error issue ↔ field.Refuses members issue := by
  rw [Field.read]
  constructor
  · intro h
    -- nothing is there
    split at h
    · rename_i hvalue
      split at h
      · cases h
      · cases h
        exact .missing hvalue (eq_false_of_ne_true ‹_›)
    -- a text is there
    · rename_i hvalue
      split at h
      · cases h
        exact .tooShort hvalue ‹_›
      · cases h
    -- another value is there
    · rename_i j not_text hvalue
      split at h
      · cases h
      · rename_i refused
        cases h
        refine .notText hvalue (fun text => by rintro rfl; exact not_text text rfl) ?_
        rintro rfl
        -- `null` is refused for no other reason
        exact eq_false_of_ne_true fun optional => refused (by rw [optional]; rfl)
  -- each refusal is one branch of the reading
  · intro h
    cases h with
    | missing hvalue required => rw [hvalue]; dsimp only; rw [required]; rfl
    | tooShort hvalue short => rw [hvalue]; exact if_pos short
    | @notText j hvalue not_text required =>
      rw [hvalue]
      cases j with
      | str text => exact absurd rfl (not_text text)
      | null => dsimp only; rw [required rfl]; rfl
      | _ => exact if_neg (by rw [Bool.and_eq_true]; exact fun both => nomatch both.2)

/-- Several fields have these issues or others, not both. -/
theorem Complaints.unique {issues others : List Issue} (h : Complaints members fields issues)
    (h' : Complaints members fields others) : issues = others := by
  induction h generalizing others with
  | nil =>
    cases h'
    rfl
  | admitted admits _ ih =>
    -- both go on with the rest
    cases h' with
    | admitted _ rest => exact ih rest
    -- a value is not admitted and refused
    | refused refuses _ =>
      cases (Field.read_eq_ok_iff.mpr admits).symm.trans (Field.read_eq_error_iff.mpr refuses)
  | refused refuses _ ih =>
    cases h' with
    | admitted admits _ =>
      cases (Field.read_eq_ok_iff.mpr admits).symm.trans (Field.read_eq_error_iff.mpr refuses)
    -- the two refusals are one
    | refused refuses' rest =>
      cases (Field.read_eq_error_iff.mpr refuses).symm.trans (Field.read_eq_error_iff.mpr refuses')
      rw [ih rest]

/-- Fields that admit their values have no issues. -/
theorem Complaints.of_admits {values : List (Option String)}
    (h : List.Forall₂ (fun field value => field.Admits (Json.find? field.name members) value)
      fields values) : Complaints members fields [] := by
  induction h with
  | nil => exact .nil
  | cons admits _ ih => exact .admitted admits ih

namespace Framework.Standard

/-- An object is read when all its fields are. -/
theorem readAll_eq_ok_iff {values : List (Option String)} :
    readAll members fields = .ok values ↔
      List.Forall₂ (fun field value => field.Admits (Json.find? field.name members) value)
        fields values := by
  induction fields generalizing values with
  | nil =>
    rw [List.forall₂_nil_left_iff]
    exact ⟨fun h => (Except.ok.inj h).symm, fun h => by rw [h]; rfl⟩
  | cons field rest ih =>
    rw [List.forall₂_cons_left_iff, readAll]
    constructor
    · intro h
      split at h
      · rename_i first others hfirst hothers
        cases h
        exact ⟨first, others, Field.read_eq_ok_iff.mp hfirst, ih.mp hothers, rfl⟩
      all_goals cases h
    · rintro ⟨first, others, hfirst, hothers, rfl⟩
      rw [Field.read_eq_ok_iff.mpr hfirst, ih.mpr hothers]

/-- Otherwise it has the issues of its fields. -/
theorem readAll_eq_error_iff {issues : List Issue} :
    readAll members fields = .error issues ↔ Complaints members fields issues ∧ issues ≠ [] := by
  -- an object that is read has no issues
  have clean {fields : List Field} {values : List (Option String)}
      (h : readAll members fields = .ok values) : Complaints members fields [] :=
    .of_admits (readAll_eq_ok_iff.mp h)
  induction fields generalizing issues with
  | nil =>
    refine ⟨nofun, ?_⟩
    rintro ⟨⟨⟩, h⟩
    exact absurd rfl h
  | cons field rest ih =>
    rw [readAll]
    constructor
    · intro h
      -- read without an issue
      split at h
      · cases h
      · rename_i hfirst hothers
        cases h
        obtain ⟨others, hne⟩ := ih.mp hothers
        -- an issue further on
        exact ⟨.admitted (Field.read_eq_ok_iff.mp hfirst) others, hne⟩
      · rename_i hfirst hothers
        cases h
        -- an issue of this field alone
        exact ⟨.refused (Field.read_eq_error_iff.mp hfirst) (clean hothers), List.cons_ne_nil _ _⟩
      · rename_i hfirst hothers
        cases h
        obtain ⟨others, -⟩ := ih.mp hothers
        -- an issue of this field, and more further on
        exact ⟨.refused (Field.read_eq_error_iff.mp hfirst) others, List.cons_ne_nil _ _⟩
    · rintro ⟨complaints, hne⟩
      cases complaints with
      | admitted admits others =>
        -- the field is read, so the issues are those of the others
        rw [Field.read_eq_ok_iff.mpr admits, ih.mpr ⟨others, hne⟩]
      | @refused _ _ issue issues refuses others =>
        rw [Field.read_eq_error_iff.mpr refuses]
        cases hrest : readAll members rest with
        | ok values =>
          obtain rfl := (clean hrest).unique others
          rfl
        | error found =>
          obtain rfl := (ih.mp hrest).1.unique others
          rfl

end Framework.Standard

end Check

/-! ### What an answer repeats -/

namespace Framework.Standard

mutual

/-- Of what can be written an answer repeats what can be written. -/
theorem isWritable_repeated :
    ∀ j : Json, Answer.isWritable j = true → Answer.isWritable (repeated j) = true
  | .null, h | .bool _, h | .num _, h | .str _, h => h
  | .arr items, h => areWritable_repeatedItems items h
  | .obj fields, h => areWritableFields_repeatedFields fields h

theorem areWritable_repeatedItems :
    ∀ items : List Json, Answer.areWritable items = true →
      Answer.areWritable (repeatedItems items) = true
  | [], h => h
  | item :: rest, h => by
    rw [Answer.areWritable, Bool.and_eq_true] at h
    rw [repeatedItems, Answer.areWritable, Bool.and_eq_true]
    exact ⟨isWritable_repeated item h.1, areWritable_repeatedItems rest h.2⟩

theorem areWritableFields_repeatedFields :
    ∀ fields : List (String × Json), Answer.areWritableFields fields = true →
      Answer.areWritableFields (repeatedFields fields) = true
  | [], h => h
  | (name, value) :: rest, h => by
    rw [Answer.areWritableFields, Bool.and_eq_true] at h
    rw [repeatedFields]
    split
    · exact areWritableFields_repeatedFields rest h.2
    · rw [Answer.areWritableFields, Bool.and_eq_true]
      exact ⟨isWritable_repeated value h.1, areWritableFields_repeatedFields rest h.2⟩

end

/-! ### The framework at work -/

/-- An offer is found under its own method and path. -/
theorem route_offer (offer : Offer) : route offer.method offer.path = .ok offer := by
  -- methods and paths are fixed texts, so the routes are found by computing them
  have post : "POST".toUpper = "POST" := by decide +kernel
  have get : "GET".toUpper = "GET" := by decide +kernel
  cases offer with
  | convert =>
    have found : routeOf? (Address.path Offer.convert.path) = some (.offer .convert) := rfl
    rw [route, found, Offer.method, post]
    rfl
  | health =>
    have found : routeOf? (Address.path Offer.health.path) = some (.offer .health) := rfl
    rw [route, found, Offer.method, get]
    rfl

end Framework.Standard

/-- **The framework at work is as documented.** -/
theorem Framework.standard_documented : Framework.standard.Documented where
  offered := Standard.route_offer
  accepts _ _ _ := Standard.readAll_eq_ok_iff
  rejects _ _ _ := Standard.readAll_eq_error_iff
  -- a body that is no object has one issue
  rejects_other _ j h := by
    cases j with
    | obj members => exact absurd rfl (h members)
    | _ => rfl
  -- no JSON has one issue
  unread_invalid := by
    rintro error (rfl | rfl)
    · exact ⟨_, rfl, rfl⟩
    · exact ⟨_, rfl, rfl⟩
  -- any other body that cannot be read is a bad request
  unread_error := by
    rintro error (rfl | rfl)
    · rfl
    · rfl
  repeats := Standard.isWritable_repeated
  repeats_number _ := rfl
  tells _ told := if_pos (List.all_eq_true.mpr told)
  fails_to_tell _ untold := by
    obtain ⟨issue, hissue, untold⟩ := untold
    refine if_neg fun all => untold ?_
    exact List.all_eq_true.mp all issue hissue
  sends _ _ writable := if_pos writable
  fails_to_send _ _ unwritable := if_neg (Bool.not_eq_true _ ▸ unwritable)
  unforeseen := rfl

end Mockup
