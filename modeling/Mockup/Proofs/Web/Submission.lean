import Mockup.Proofs.Link.Handling
import Mockup.Proofs.Web.Framework

/-!
# What a posted body is answered with

Whoever asks for a conversion posts a body with a link, a token and possibly a node. A body that is
not of this form is rejected with a list of all that is wrong with it, before anything is asked of
the remote side; any other one is answered with what becomes of the conversion. This module says
which bodies are which, and when the answer is as agreed, for every framework that is as documented.

* `Submits` — what a body submits;
* `Framework.issues` — **all that is wrong with a body**, field by field;
* `Framework.Documented.check_eq_ok_iff`, `Framework.Documented.check_eq_error_iff` — the check of a
  body finds the one or the other;
* `convertLink_requests` — **every request of a conversion carries the token** that was posted;
* `AnsweredAsAgreed` — what is agreed on about an answer;
* `body_answered_iff` — **a body is answered as agreed exactly when its issues can be told.**

An issue is told with the value that it is about, and an answer cannot hold every value: standard
JSON has no infinite numbers, while a body may well have them, for a number that is too large is read
as one. Then there is no list of issues, but the answer to something unforeseen.

A text in which half of a pair stands alone is no text of this library. So the theorem is about bodies
and replies where none does (`Posted.IsWhole`, `Session.IsWhole`).
-/

namespace Mockup

/-! ### Bodies -/

/-- No half of a pair stands alone in a body. -/
def Posted.IsWhole (posted : Posted) : Prop := posted ≠ .unreadable .loneHalf

/-- A node is named by a text, or by none when the field is absent or `null`. -/
inductive NamesNode : Option Json → Option String → Prop
  | absent : NamesNode none none
  | null : NamesNode (some .null) none
  | text (id : String) : NamesNode (some (.str id)) (some id)

/-- **What a body submits.** It is an object in which the link and the token are texts that are
not empty. -/
inductive Submits : Json → Submission → Prop
  | fields {fields : List (String × Json)} {link token : String} {nodeId : Option String}
    (link_eq : Json.find? "file_key" fields = some (.str link)) (linkGiven : link ≠ "")
    (token_eq : Json.find? "token" fields = some (.str token)) (tokenGiven : token ≠ "")
    (node : NamesNode (Json.find? "node_id" fields) nodeId) :
    Submits (.obj fields) ⟨link, token, nodeId⟩

/-- Whether a field may have this value, or none. -/
def isAdmitted (name : String) : Option Json → Bool
  | none | some .null => name = "node_id"
  | some (.str text) => name = "node_id" || text ≠ ""
  | some _ => false

/-- The issue with a field that has a value which it may not have. -/
def fieldIssue (fields : List (String × Json)) (name : String) : Issue :=
  match Json.find? name fields with
  | none => ⟨["body", name], .missing, .obj fields⟩
  | some (.str text) => ⟨["body", name], .tooShort, .str text⟩
  | some value => ⟨["body", name], .notText, value⟩

/-- The issues with the fields of these names. -/
def fieldIssues (fields : List (String × Json)) (names : List String) : List Issue :=
  (names.filter fun name => !isAdmitted name (Json.find? name fields)).map (fieldIssue fields)

/-- **All that is wrong with a body**: one issue for each field with a value that it may not have, in
this order, or one for a body that has no fields. -/
def Framework.issues (framework : Framework) : Json → List Issue
  | .obj fields => fieldIssues fields ["file_key", "token", "node_id"]
  | j => [⟨["body"], framework.kindOfOther j, j⟩]

/-! ### The check of a body -/

section Fields

variable {field : Field} {fields : List Field} {members : List (String × Json)}

/-- The declared fields: only the node is optional, and the others must not be empty. -/
theorem Submission.mem_fields (h : field ∈ Submission.fields) :
    field.isOptional = decide (field.name = "node_id")
      ∧ field.shortest = if field.name = "node_id" then 0 else 1 := by
  simp only [Submission.fields, List.mem_cons, List.not_mem_nil, or_false] at h
  obtain rfl | rfl | rfl := h <;> exact ⟨rfl, rfl⟩

/-- A text is long enough for a declared field when the field is optional or the text not empty. -/
theorem Submission.shortest_le_iff (h : field ∈ Submission.fields) (text : String) :
    field.shortest ≤ text.length ↔ field.name = "node_id" ∨ text ≠ "" := by
  rw [(Submission.mem_fields h).2]
  by_cases hname : field.name = "node_id"
  · simp [hname]
  · rw [if_neg hname, Nat.succ_le_iff, Nat.pos_iff_ne_zero, Ne, String.length_eq_zero_iff]
    exact ⟨.inr, fun h => h.resolve_left hname⟩

/-- A declared field admits the values that it may have. -/
theorem Submission.isAdmitted_of_admits (h : field ∈ Submission.fields) {found : Option Json}
    {value : Option String} (admits : field.Admits found value) :
    isAdmitted field.name found = true := by
  obtain ⟨hoptional, -⟩ := Submission.mem_fields h
  cases admits with
  | text long => simpa [isAdmitted] using (Submission.shortest_le_iff h _).mp long
  | absent optional => exact hoptional.symm.trans optional
  | null optional => exact hoptional.symm.trans optional

/-- It refuses any other one, with the issue that is expected. -/
theorem Submission.fieldIssue_of_refuses (h : field ∈ Submission.fields) {issue : Issue}
    (refuses : field.Refuses members issue) :
    isAdmitted field.name (Json.find? field.name members) = false
      ∧ issue = fieldIssue members field.name := by
  obtain ⟨hoptional, -⟩ := Submission.mem_fields h
  cases refuses with
  | missing value_eq required =>
    rw [fieldIssue, value_eq]
    exact ⟨hoptional.symm.trans required, rfl⟩
  -- a text too short is an empty one
  | @tooShort text value_eq short =>
    rw [fieldIssue, value_eq]
    have empty := mt (Submission.shortest_le_iff h text).mpr (Nat.not_le_of_lt short)
    exact ⟨by simpa [isAdmitted] using empty, rfl⟩
  | @notText value value_eq not_text required =>
    rw [fieldIssue, value_eq]
    cases value with
    | str text => exact absurd rfl (not_text text)
    | null => exact ⟨hoptional.symm.trans (required rfl), rfl⟩
    | _ => exact ⟨rfl, rfl⟩

/-- **The issues of declared fields** are those that are expected. -/
theorem Complaints.eq_fieldIssues {issues : List Issue} (h : Complaints members fields issues)
    (declared : ∀ field ∈ fields, field ∈ Submission.fields) :
    issues = fieldIssues members (fields.map (·.name)) := by
  induction h with
  | nil => rfl
  | admitted admits _ ih =>
    have admitted := Submission.isAdmitted_of_admits (declared _ List.mem_cons_self) admits
    rw [ih fun field hfield => declared field (List.mem_cons_of_mem _ hfield), fieldIssues,
      fieldIssues, List.map_cons, List.filter_cons_of_neg (by rw [admitted]; decide)]
  | refused refuses _ ih =>
    obtain ⟨refused, rfl⟩ :=
      Submission.fieldIssue_of_refuses (declared _ List.mem_cons_self) refuses
    rw [ih fun field hfield => declared field (List.mem_cons_of_mem _ hfield), fieldIssues,
      fieldIssues, List.map_cons, List.filter_cons_of_pos (by rw [refused]; rfl), List.map_cons]

end Fields

/-! ### What is accepted and what is rejected -/

/-- The values of the fields for what is asked for. -/
def Submission.values (submission : Submission) : List (Option String) :=
  [some submission.link, some submission.token, submission.nodeId]

/-- A field for a text that must be there and not empty admits only such a text. -/
theorem Field.admits_required_iff (name : String) {found : Option Json} {value : Option String} :
    Field.Admits ⟨name, 1, false⟩ found value
      ↔ ∃ text, text ≠ "" ∧ found = some (.str text) ∧ value = some text := by
  -- an admitted text is not empty
  constructor
  · intro admits
    cases admits with
    | @text text long =>
      refine ⟨text, ?_, rfl, rfl⟩
      rintro rfl
      exact Nat.not_succ_le_zero 0 long
    -- the two other ways are for optional fields
    | absent optional => cases optional
    | null optional => cases optional
  -- a text that is given is long enough
  · rintro ⟨text, given, rfl, rfl⟩
    exact .text (Nat.pos_of_ne_zero fun h => given (String.length_eq_zero_iff.mp h))

/-- A field for a text that may be absent admits what names a node. -/
theorem Field.admits_optional_iff (name : String) {found : Option Json} {value : Option String} :
    Field.Admits ⟨name, 0, true⟩ found value ↔ NamesNode found value := by
  constructor
  -- the three ways of an optional field are those of a node that may be named
  · intro admits
    cases admits with
    | text long => exact .text _
    | absent optional => exact .absent
    | null optional => exact .null
  · intro names
    cases names with
    | text id => exact .text (Nat.zero_le _)
    | absent => exact .absent rfl
    | null => exact .null rfl

/-- The declared fields of an object admit the values of what it submits. -/
theorem Submission.admits_iff {members : List (String × Json)} {values : List (Option String)} :
    List.Forall₂ (fun field value => Field.Admits field (Json.find? field.name members) value)
        fields values
      ↔ ∃ submission, Submits (.obj members) submission ∧ values = submission.values := by
  simp only [fields, List.forall₂_cons_left_iff, List.forall₂_nil_left_iff,
    Field.admits_required_iff, Field.admits_optional_iff]
  constructor
  -- the three values make a submission
  · rintro ⟨_, _, ⟨link, linkGiven, hlink, rfl⟩, ⟨_, _, ⟨token, tokenGiven, htoken, rfl⟩,
      ⟨nodeId, _, names, rfl, rfl⟩, rfl⟩, rfl⟩
    exact ⟨⟨link, token, nodeId⟩, .fields hlink linkGiven htoken tokenGiven names, rfl⟩
  -- and a submission has the three values
  · rintro ⟨_, submits, rfl⟩
    cases submits with
    | @fields _ link token nodeId hlink linkGiven htoken tokenGiven names =>
      exact ⟨_, _, ⟨link, linkGiven, hlink, rfl⟩, ⟨_, _, ⟨token, tokenGiven, htoken, rfl⟩,
        ⟨_, _, names, rfl, rfl⟩, rfl⟩, rfl⟩

namespace Framework.Documented

variable {framework : Framework} (documented : framework.Documented) {j : Json}

include documented

/-- **What is accepted** is what a body submits. -/
theorem check_eq_ok_iff {values : List (Option String)} :
    framework.check Submission.fields j = .ok values
      ↔ ∃ submission, Submits j submission ∧ values = submission.values := by
  cases j with
  | obj members => exact (documented.accepts _ _ _).trans Submission.admits_iff
  | _ =>
    rw [documented.rejects_other _ _ (by rintro _ ⟨⟩)]
    refine ⟨nofun, ?_⟩
    rintro ⟨submission, ⟨⟩, -⟩

/-- **What is not accepted** is rejected for all that is wrong with it. -/
theorem check_eq_error_iff {issues : List Issue} :
    framework.check Submission.fields j = .error issues
      ↔ issues = framework.issues j ∧ issues ≠ [] := by
  cases j with
  -- an object is checked field by field
  | obj members =>
    rw [documented.rejects]
    constructor
    · rintro ⟨complaints, hne⟩
      exact ⟨complaints.eq_fieldIssues fun _ hfield => hfield, hne⟩
    · rintro ⟨rfl, hne⟩
      refine ⟨?_, hne⟩
      -- the check ends in one way or the other, and only with these issues
      cases hcheck : framework.check Submission.fields (.obj members) with
      | error issues =>
        obtain ⟨complaints, -⟩ := (documented.rejects _ _ _).mp hcheck
        obtain rfl := complaints.eq_fieldIssues fun _ hfield => hfield
        exact complaints
      | ok values =>
        have complaints := Complaints.of_admits ((documented.accepts _ _ _).mp hcheck)
        exact absurd (complaints.eq_fieldIssues fun _ hfield => hfield).symm hne
  -- anything else has one issue
  | _ =>
    rw [documented.rejects_other _ _ (by rintro _ ⟨⟩)]
    constructor
    · rintro ⟨⟩
      exact ⟨rfl, List.cons_ne_nil _ _⟩
    · rintro ⟨rfl, -⟩
      rfl

/-- There is nothing wrong with a body exactly when it submits something. -/
theorem issues_eq_nil_iff : framework.issues j = [] ↔ ∃ submission, Submits j submission := by
  cases hcheck : framework.check Submission.fields j with
  | ok values =>
    obtain ⟨submission, submits, rfl⟩ := documented.check_eq_ok_iff.mp hcheck
    refine ⟨fun _ => ⟨submission, submits⟩, fun _ => ?_⟩
    -- else the check would fail with these issues
    refine Classical.byContradiction fun hissues => ?_
    cases hcheck.symm.trans (documented.check_eq_error_iff.mpr ⟨rfl, hissues⟩)
  | error issues =>
    obtain ⟨rfl, hissues⟩ := documented.check_eq_error_iff.mp hcheck
    refine ⟨fun hnil => absurd hnil hissues, ?_⟩
    rintro ⟨submission, submits⟩
    cases hcheck.symm.trans (documented.check_eq_ok_iff.mpr ⟨submission, submits, rfl⟩)

end Framework.Documented

/-- A body submits one thing only. -/
theorem Submits.unique {j : Json} {submission other : Submission} (h : Submits j submission)
    (h' : Submits j other) : submission = other := by
  have hvalues : submission.values = other.values := Except.ok.inj
    ((Framework.standard_documented.check_eq_ok_iff.mpr ⟨submission, h, rfl⟩).symm.trans
      (Framework.standard_documented.check_eq_ok_iff.mpr ⟨other, h', rfl⟩))
  exact Option.some.inj (congrArg Submission.ofValues? hvalues)

/-- The value of a field of an object that can be written can be written. -/
theorem Answer.isWritable_of_find? {name : String} {value : Json} {fields : List (String × Json)}
    (h : areWritableFields fields = true) (hvalue : Json.find? name fields = some value) :
    isWritable value = true := by
  induction fields with
  | nil => cases hvalue
  | cons field rest ih =>
    obtain ⟨key, first⟩ := field
    rw [areWritableFields, Bool.and_eq_true] at h
    rw [Json.find?] at hvalue
    split at hvalue
    · cases hvalue
      exact h.1
    · exact ih h.2 hvalue

/-! ### The conversion of what is submitted -/

/-- What a call asks for carries the token of the client. -/
theorem Call.token_request (client : Client) (call : Call) :
    (call.request client).token = client.token := by
  cases call with
  | document fileKey => rfl
  | nodes fileKey ids => rfl

/-- **Every request of a conversion carries the token** with which it was asked for. -/
theorem convertLink_requests (settings : Settings) {token : String} (given : token ≠ "")
    (link : String) (nodeId : Option String) (start : Session) :
    ∃ requests, ((convertLink settings link token nodeId).runFrom start).2.requests
        = start.requests ++ requests ∧ ∀ request ∈ requests, request.token = token := by
  obtain ⟨requests, hrequests, asked⟩ := convertLink_asks settings link token nodeId start
  refine ⟨requests, hrequests, fun request hrequest => ?_⟩
  obtain ⟨fileKey, inLink, own, -, hown, rfl⟩ := asked request hrequest
  rw [Call.token_request]
  exact hown given

/-! ### Answers -/

/-- The answer to a posted body, and the session after it. -/
def postedTo (framework : Framework) (settings : Settings) (now : String) (posted : Posted)
    (start : Session) : Answer × Session :=
  (Endpoint.respond framework settings now "POST" "/figma/convert" posted).run start

/-- **An answer tells what became of a conversion**: the page, or the refusal if its message is a
text, or that something unforeseen went wrong. -/
structure Answer.Tells (answer : Answer) (result : Result Conversion) : Prop where
  page : ∀ conversion, result = .ok conversion → answer
    = ⟨200, .value (.obj [("html", .str conversion.html), ("css", .str conversion.css)])⟩
  refusal : ∀ refusal message, result = .error (.refused refusal) → refusal.message = .str message →
    answer = ⟨refusal.code.status,
      .value (.obj [("code", .str refusal.code.name), ("message", .str message)])⟩
  fault : ∀ fault, result = .error fault → fault.isRefusal = false →
    answer = ⟨500, .text "Internal Server Error"⟩

/-- **What is agreed on about the answer to a body**, and the session after it. -/
structure AnsweredAsAgreed (framework : Framework) (settings : Settings) (j : Json)
    (start : Session) (answer : Answer) (finish : Session) : Prop where
  /-- A body is accepted exactly when it submits something. -/
  accepted_iff : answer.status ≠ 422 ↔ ∃ submission, Submits j submission
  /-- What is not accepted is told all that is wrong with it, and nothing happens. -/
  rejected : (¬ ∃ submission, Submits j submission) →
    answer = ⟨422, .issues (framework.issues j)⟩ ∧ finish = start
  /-- What is accepted is converted, when no half of a pair stands alone in a reply. -/
  converted : ∀ link token nodeId, Submits j ⟨link, token, nodeId⟩ → start.IsWhole →
    answer.Tells ((convertLink settings link token nodeId).runFrom start).1
      ∧ finish = ((convertLink settings link token nodeId).runFrom start).2
  /-- Every request on the way carries the token that is posted. -/
  entrusted : ∀ submission, Submits j submission → ∃ requests,
    finish.requests = start.requests ++ requests
      ∧ ∀ request ∈ requests, request.token = submission.token

namespace Framework.Documented

variable {framework : Framework} (documented : framework.Documented)

include documented

/-- The answer to a submission tells what became of it. -/
theorem tells_answer (result : Result Conversion) : (framework.answer result).Tells result := by
  refine ⟨?_, ?_, ?_⟩
  · rintro conversion rfl
    exact documented.sends _ _ rfl
  · rintro ⟨code, message, origin⟩ text rfl hmessage
    cases hmessage
    exact documented.sends _ _ rfl
  · rintro fault rfl hfault
    cases fault with
    | refused refusal => cases hfault
    | _ => exact documented.unforeseen

/-- What is sent has the status that was given for it, unless it cannot be written. -/
theorem status_send (status : Nat) (j : Json) :
    (framework.send status j).status = status ∨ framework.send status j = framework.broken := by
  cases h : Answer.isWritable j with
  | true => exact .inl (by rw [documented.sends status j h])
  | false => exact .inr (documented.fails_to_send status j h)

/-- The answer to a submission is never that of a rejection. -/
theorem status_answer_ne (result : Result Conversion) : (framework.answer result).status ≠ 422 := by
  have page : (200 : Nat) ≠ 422 := by decide
  -- the one status that all unforeseen faults share
  have unforeseen : framework.broken.status ≠ 422 := by
    rw [documented.unforeseen]
    decide
  -- no refusal has the status of an issue
  have refused (code : ErrorCode) : code.status ≠ 422 := by cases code <;> decide
  -- a page that cannot be sent is unforeseen too
  have sent {status : Nat} (h : status ≠ 422) (j : Json) :
      (framework.send status j).status ≠ 422 := by
    obtain hstatus | hbroken := documented.status_send status j
    · rwa [hstatus]
    · rwa [hbroken]
  -- the page, the refusal and the fault
  cases result with
  | ok conversion => exact sent page _
  | error fault =>
    cases fault with
    | refused refusal => exact sent (refused refusal.code) _
    | _ => exact unforeseen

variable (settings : Settings) (now : String) (start : Session)

/-- What is posted to the path of the conversion is posted to the conversion. -/
theorem postedTo_eq (posted : Posted) : postedTo framework settings now posted start
    = (Endpoint.convert framework settings posted).run start := by
  have found : framework.route "POST" "/figma/convert" = .ok .convert := documented.offered .convert
  rw [postedTo, Endpoint.respond, found]

/-- What is submitted is answered with what becomes of the conversion. -/
theorem postedTo_of_submits {j : Json} {link token : String} {nodeId : Option String}
    (submits : Submits j ⟨link, token, nodeId⟩) : postedTo framework settings now (.value j) start
      = (framework.answer ((convertLink settings link token nodeId).runFrom start).1,
        ((convertLink settings link token nodeId).runFrom start).2) := by
  rw [documented.postedTo_eq, Endpoint.convert, documented.check_eq_ok_iff.mpr ⟨_, submits, rfl⟩]
  rfl

/-- Any other body is rejected with its issues, and nothing happens. -/
theorem postedTo_of_issues {j : Json} (h : framework.issues j ≠ []) :
    postedTo framework settings now (.value j) start
      = (framework.reject (framework.issues j), start) := by
  rw [documented.postedTo_eq, Endpoint.convert, documented.check_eq_error_iff.mpr ⟨rfl, h⟩]
  rfl

/-- When its issues cannot all be told, the answer is that something unforeseen went wrong. -/
theorem postedTo_of_not_canTell {j : Json} {issue : Issue} (hissue : issue ∈ framework.issues j)
    (untold : ¬ framework.CanTell issue) : postedTo framework settings now (.value j) start
      = (⟨500, .text "Internal Server Error"⟩, start) := by
  rw [documented.postedTo_of_issues settings now start (List.ne_nil_of_mem hissue),
    documented.fails_to_tell _ ⟨issue, hissue, untold⟩, documented.unforeseen]

/-- A body without a value is answered before anything happens: the request is a bad one, or there is
one issue about the body. -/
theorem postedTo_of_no_value {posted : Posted} (whole : posted.IsWhole)
    (h : ∀ j, posted ≠ .value j) :
    postedTo framework settings now posted start
        = (.detail 400 "There was an error parsing the body", start)
      ∨ ∃ issue, issue.place.head? = some "body"
        ∧ postedTo framework settings now posted start = (⟨422, .issues [issue]⟩, start) := by
  -- a missing body and one that is no JSON have one issue
  have invalid (error : Option Json.ReadError) (h : error = none ∨ error = some .malformed) :
      ∃ issue, issue.place.head? = some "body"
        ∧ (framework.unread error, start) = (⟨422, .issues [issue]⟩, start) := by
    obtain ⟨issue, place, answer⟩ := documented.unread_invalid error h
    exact ⟨issue, place, by rw [answer]⟩
  -- any other body that cannot be read is a bad request
  have unreadable (error : Json.ReadError) (h : error = .tooManyDigits ∨ error = .undecodable) :
      (framework.unread (some error), start)
        = (.detail 400 "There was an error parsing the body", start) := by
    rw [documented.unread_error error h]
  rw [documented.postedTo_eq]
  cases posted with
  | value j => exact absurd rfl (h j)
  | nothing => exact .inr (invalid none (.inl rfl))
  | unreadable error =>
    cases error with
    | malformed => exact .inr (invalid _ (.inr rfl))
    | tooManyDigits => exact .inl (unreadable _ (.inl rfl))
    | undecodable => exact .inl (unreadable _ (.inr rfl))
    | loneHalf => exact absurd rfl whole

/-- What is submitted is answered as agreed. -/
theorem answeredAsAgreed_of_submits {j : Json} {submission : Submission}
    (submits : Submits j submission) : AnsweredAsAgreed framework settings j start
      (postedTo framework settings now (.value j) start).1
      (postedTo framework settings now (.value j) start).2 := by
  obtain ⟨link, token, nodeId⟩ := submission
  rw [documented.postedTo_of_submits settings now start submits]
  -- it is accepted, so the status is not that of an issue
  refine ⟨⟨fun _ => ⟨_, submits⟩, fun _ => documented.status_answer_ne _⟩,
    fun h => absurd ⟨_, submits⟩ h, ?_, ?_⟩
  · rintro _ _ _ hother -
    cases hother.unique submits
    exact ⟨documented.tells_answer _, rfl⟩
  -- and the conversion asks for what the submission names
  · intro other hother
    obtain rfl := hother.unique submits
    cases submits with
    | fields link_eq linkGiven token_eq tokenGiven node =>
      exact convertLink_requests settings tokenGiven link nodeId start

/-- What is not accepted is answered as agreed when its issues can be told. -/
theorem answeredAsAgreed_of_canTell {j : Json} (h : framework.issues j ≠ [])
    (told : ∀ issue ∈ framework.issues j, framework.CanTell issue) :
    AnsweredAsAgreed framework settings j start
      (postedTo framework settings now (.value j) start).1
      (postedTo framework settings now (.value j) start).2 := by
  -- with an issue the body is no submission
  have rejected : ¬ ∃ submission, Submits j submission := fun hsubmits =>
    h (documented.issues_eq_nil_iff.mpr hsubmits)
  rw [documented.postedTo_of_issues settings now start h, documented.tells _ told]
  exact ⟨⟨fun hstatus => absurd rfl hstatus, fun hsubmits => absurd hsubmits rejected⟩,
    fun _ => ⟨rfl, rfl⟩,
    fun link token nodeId submits => absurd ⟨_, submits⟩ rejected,
    fun submission submits => absurd ⟨submission, submits⟩ rejected⟩

/-- The answer to something unforeseen is not as agreed when there are issues. -/
theorem not_answeredAsAgreed_of_issues {j : Json} (h : framework.issues j ≠ [])
    (finish : Session) : ¬ AnsweredAsAgreed framework settings j start
      ⟨500, .text "Internal Server Error"⟩ finish := by
  intro agreed
  have unforeseen : (500 : Nat) ≠ 422 := by decide
  exact h (documented.issues_eq_nil_iff.mpr (agreed.accepted_iff.mp unforeseen))

/-! ### Issues that can be told -/

/-- **The issues of a body that can be written can be told**: each is about the body or about the
value of a field. -/
theorem canTell_of_isWritable {j : Json} (h : Answer.isWritable j = true) :
    ∀ issue ∈ framework.issues j, framework.CanTell issue := by
  -- an issue repeats a part of the body
  intro issue hissue
  refine documented.repeats _ ?_
  cases j with
  | obj members =>
    rw [issues, fieldIssues] at hissue
    obtain ⟨name, -, rfl⟩ := List.mem_map.mp hissue
    -- the whole object where a field is missing, a text, or another value of a field
    rw [fieldIssue]
    split
    · exact h
    · rfl
    · exact Answer.isWritable_of_find? h ‹_›
  -- a body that is no object is repeated as a whole
  | _ =>
    obtain rfl := List.mem_singleton.mp hissue
    exact h

/-- An issue with a number can be told when the number can be written. -/
theorem canTell_number_iff {issue : Issue} {n : Number} (h : issue.input = .num n) :
    framework.CanTell issue ↔ Answer.isWritable (.num n) = true := by
  rw [CanTell, h, documented.repeats_number]

end Framework.Documented

/-- **A body is answered as agreed exactly when its issues can be told.** So it is when the body
submits something, which leaves no issues, and when there are no infinite numbers in it; and so it is
not when a field for a text has such a number. Then the answer is as if the server were broken. A body
without a value is answered before it is checked. Whenever something is wrong, nothing happens. -/
theorem body_answered_iff {framework : Framework} (documented : framework.Documented)
    (settings : Settings) (now : String) {posted : Posted} (whole : posted.IsWhole)
    (start : Session) :
    (∀ j, posted = .value j →
      (AnsweredAsAgreed framework settings j start
          (postedTo framework settings now posted start).1
          (postedTo framework settings now posted start).2
        ↔ ∀ issue ∈ framework.issues j, framework.CanTell issue)
      ∧ ((∃ submission, Submits j submission) ∨ Answer.isWritable j = true →
        ∀ issue ∈ framework.issues j, framework.CanTell issue)
      ∧ (∀ issue ∈ framework.issues j, ∀ n, issue.input = .num n →
        (framework.CanTell issue ↔ Answer.isWritable (.num n) = true))
      ∧ ((∃ issue ∈ framework.issues j, ¬ framework.CanTell issue) →
        postedTo framework settings now posted start
          = (⟨500, .text "Internal Server Error"⟩, start)))
    ∧ ((∀ j, posted ≠ .value j) →
      postedTo framework settings now posted start
          = (.detail 400 "There was an error parsing the body", start)
        ∨ ∃ issue, issue.place.head? = some "body"
          ∧ postedTo framework settings now posted start = (⟨422, .issues [issue]⟩, start)) := by
  -- what was posted is a value, or nothing can be read from it
  refine ⟨?_, documented.postedTo_of_no_value settings now start whole⟩
  rintro j rfl
  refine ⟨⟨?_, ?_⟩, ?_, fun issue _ n => documented.canTell_number_iff, ?_⟩
  · -- an issue that cannot be told takes the place of the whole list
    intro agreed issue hissue
    refine Classical.byContradiction fun untold => ?_
    rw [documented.postedTo_of_not_canTell settings now start hissue untold] at agreed
    exact documented.not_answeredAsAgreed_of_issues settings start
      (List.ne_nil_of_mem hissue) start agreed
  -- with all issues told the body is answered, as a submission or with the list
  · intro told
    by_cases hissues : framework.issues j = []
    · obtain ⟨submission, submits⟩ := documented.issues_eq_nil_iff.mp hissues
      exact documented.answeredAsAgreed_of_submits settings now start submits
    · exact documented.answeredAsAgreed_of_canTell settings now start hissues told
  -- a submission has no issues, and what can be written can be repeated
  · rintro (hsubmits | writable)
    · rw [documented.issues_eq_nil_iff.mpr hsubmits]
      exact nofun
    · exact documented.canTell_of_isWritable writable
  -- an issue that cannot be told is answered with an error
  · rintro ⟨issue, hissue, untold⟩
    exact documented.postedTo_of_not_canTell settings now start hissue untold

/-- A body with two slips, whose issues can be told. -/
def hastyBody : Json := .obj [("node_id", .arr []), ("file_key", .str "")]

/-- A session in which no request is answered. -/
def silence : Session := .fresh fun _ => .unanswered

/-- The body lacks the token as well: all three fields are reported. -/
theorem hastyBody_answered : Framework.standard.Documented
    ∧ (Posted.value hastyBody).IsWhole
    ∧ (Framework.standard.issues hastyBody).map (fun issue => (issue.place, issue.kind))
      = [(["body", "file_key"], .tooShort), (["body", "token"], .missing),
        (["body", "node_id"], .notText)]
    ∧ AnsweredAsAgreed .standard {} hastyBody silence
      (postedTo .standard {} "now" (.value hastyBody) silence).1
      (postedTo .standard {} "now" (.value hastyBody) silence).2 := by
  -- the body can be written out
  have writable : Answer.isWritable hastyBody = true := by decide
  have whole : (Posted.value hastyBody).IsWhole := nofun
  obtain ⟨agreed, tellable, -⟩ :=
    (body_answered_iff Framework.standard_documented {} "now" whole silence).1 hastyBody rfl
  exact ⟨Framework.standard_documented, whole, by decide, agreed.mpr (tellable (.inr writable))⟩

/-- The body `{"file_key": 1e999, "token": "t"}`. -/
def endlessBody : Json := .obj [("file_key", .num (.double (.infinite false))), ("token", .str "t")]

/-- It is what a number that is too large is read as, and its one issue cannot be told. -/
theorem endlessBody_not_answered :
    Posted.ofBytes "\x7b\"file_key\": 1e999, \"token\": \"t\"\x7d".toUTF8 = .value endlessBody
    ∧ (¬ ∃ submission, Submits endlessBody submission)
    ∧ (Framework.standard.issues endlessBody).map (fun issue => (issue.place, issue.kind))
      = [(["body", "file_key"], .notText)]
    ∧ postedTo .standard {} "now" (.value endlessBody) silence
      = (⟨500, .text "Internal Server Error"⟩, silence)
    ∧ ¬ AnsweredAsAgreed .standard {} endlessBody silence
      (postedTo .standard {} "now" (.value endlessBody) silence).1
      (postedTo .standard {} "now" (.value endlessBody) silence).2 := by
  -- the issue repeats an infinite number, which has no text
  have documented := Framework.standard_documented
  have issues : Framework.standard.issues endlessBody
      = [⟨["body", "file_key"], .notText, .num (.double (.infinite false))⟩] := rfl
  -- so the body is refused
  have some_issue : Framework.standard.issues endlessBody ≠ [] := by
    rw [issues]
    exact List.cons_ne_nil _ _
  have untold : ¬ Framework.standard.CanTell
      ⟨["body", "file_key"], .notText, .num (.double (.infinite false))⟩ := Bool.false_ne_true
  -- and the refusal cannot be told
  have answer := documented.postedTo_of_not_canTell {} "now" silence
    (issues ▸ List.mem_singleton_self _) untold
  -- the number is read as infinite
  have body : Posted.ofBytes "\x7b\"file_key\": 1e999, \"token\": \"t\"\x7d".toUTF8
      = .value endlessBody := rfl
  refine ⟨body, fun hsubmits => some_issue (documented.issues_eq_nil_iff.mpr hsubmits), ?_,
    answer, ?_⟩
  · rw [issues]
    rfl
  · rw [answer]
    exact documented.not_answeredAsAgreed_of_issues {} silence some_issue _

end Mockup
