import Mockup.Remote.Client

/-!
# The web interface

A web server offers the conversion of a linked design, and an answer that tells that it is alive. The
program declares what it offers and which fields a posted body has; the framework that it is built on
finds out what a request is for, checks the body, and puts the answers on the wire. The framework is not
part of the program: it is a parameter of the answers.

* `Posted` — the body of a request;
* `Field`, `Issue` — what is declared of a body, and what may be wrong with one;
* `Submission` — what is asked for, with the fields that are declared for it;
* `Answer` — the answers;
* `Offer` — what the server offers, and under which paths;
* `Framework` — what the program relies on;
* `Endpoint.respond` — **the answer to a request.**
-/

namespace Mockup

/-- **The body of a request**: none, one that is not readable, or a value. -/
inductive Posted where
  | nothing
  | unreadable (error : Json.ReadError)
  | value (j : Json)

/-- The body that bytes are. -/
def Posted.ofBytes (bytes : ByteArray) : Posted :=
  if bytes.isEmpty then .nothing
  else match Json.readTolerant bytes with
    | .ok j => .value j
    | .error error => .unreadable error

/-! ### What is declared of a body -/

/-- **A field of a body**: a text of at least so many characters. An optional one may be absent
or `null`. -/
structure Field where
  name : String
  shortest : Nat := 0
  isOptional : Bool := false

/-- What is wrong with a value. -/
inductive IssueKind where
  | missing
  | notText
  | tooShort
  | notObject
  | notJson
  deriving DecidableEq

/-- The name under which a kind of issue is reported. -/
def IssueKind.name : IssueKind → String
  | .missing => "missing"
  | .notText => "string_type"
  | .tooShort => "string_too_short"
  | .notObject => "model_attributes_type"
  | .notJson => "json_invalid"

/-- **An issue**: where a value is that is not accepted, what is wrong with it, and the value itself.
For a field that is missing it is the object that should have it. -/
structure Issue where
  place : List String
  kind : IssueKind
  input : Json

/-- **What is asked for**: a link, a token, and possibly a node. -/
structure Submission where
  link : String
  token : String
  nodeId : Option String
  deriving DecidableEq

namespace Submission

/-- **The fields that a body should have.** -/
def fields : List Field :=
  [{ name := "file_key", shortest := 1 }, { name := "token", shortest := 1 },
   { name := "node_id", isOptional := true }]

/-- What is asked for by the values of the fields. -/
def ofValues? : List (Option String) → Option Submission
  | [some link, some token, nodeId] => some ⟨link, token, nodeId⟩
  | _ => none

end Submission

/-! ### Answers -/

/-- The content of an answer: a value, a text, or the issues of what was posted. -/
inductive Content where
  | value (j : Json)
  | text (s : String)
  | issues (list : List Issue)

/-- **An answer.** -/
structure Answer where
  status : Nat
  content : Content

namespace Answer

/-- An answer that only tells what is the matter. -/
def detail (status : Nat) (text : String) : Answer :=
  ⟨status, .value (.obj [("detail", .str text)])⟩

mutual

/-- Whether a value can be written as standard JSON, which has no infinite numbers. -/
def isWritable : Json → Bool
  | .num (.double (.finite ..)) | .num (.whole _) => true
  | .num _ => false
  | .arr items => areWritable items
  | .obj fields => areWritableFields fields
  | _ => true

/-- Whether all items can be written. -/
def areWritable : List Json → Bool
  | [] => true
  | item :: rest => isWritable item && areWritable rest

/-- Whether the values of all fields can be written. -/
def areWritableFields : List (String × Json) → Bool
  | [] => true
  | (_, value) :: rest => isWritable value && areWritableFields rest

end

end Answer

/-! ### The framework -/

/-- **What the server offers**: the conversion, and a sign of life. -/
inductive Offer where
  | convert
  | health
  deriving DecidableEq

/-- The method with which an offer is asked for. -/
def Offer.method : Offer → String
  | convert => "POST"
  | health => "GET"

/-- The path of an offer. -/
def Offer.path : Offer → String
  | convert => "/figma/convert"
  | health => "/health"

/-- **A web framework**, as far as the program relies on one.

* `route` — what is offered under a method and an address, or else the answer of the framework;
* `check` — the values of the declared fields in a body, or the issues with it;
* `kindOfOther` — what is wrong with a body that is no object;
* `unread` — the answer when there is no value to check, with the reason why a body has none;
* `repeated` — a value as an answer repeats it;
* `reject` — the answer to a body with issues;
* `send` — the answer with a status and a value;
* `broken` — the answer when something unforeseen went wrong. -/
structure Framework where
  route : (method address : String) → Except Answer Offer
  check : List Field → Json → Except (List Issue) (List (Option String))
  kindOfOther : Json → IssueKind
  unread : Option Json.ReadError → Answer
  repeated : Json → Json
  reject : List Issue → Answer
  send : (status : Nat) → Json → Answer
  broken : Answer

namespace Framework

/-- **The answer to a submission.** A refusal is answered with its status, code and message; no other
fault is foreseen. -/
def answer (framework : Framework) : Result Conversion → Answer
  | .ok conversion =>
    framework.send 200 (.obj [("html", .str conversion.html), ("css", .str conversion.css)])
  | .error (.refused refusal) =>
    framework.send refusal.code.status
      (.obj [("code", .str refusal.code.name), ("message", refusal.message)])
  | .error _ => framework.broken

end Framework

/-! ### Requests -/

namespace Endpoint

/-- The answer of the conversion. -/
def convert (framework : Framework) (settings : Settings) (posted : Posted) :
    StateM Session Answer := do
  match posted with
  | .nothing => return framework.unread none
  | .unreadable error => return framework.unread (some error)
  | .value j =>
    match framework.check Submission.fields j with
    | .error issues => return framework.reject issues
    | .ok values =>
      match Submission.ofValues? values with
      | none => return framework.broken
      | some ⟨link, token, nodeId⟩ =>
        return framework.answer (← (convertLink settings link token nodeId).run)

/-- The sign of life. -/
def health (framework : Framework) (now : String) : Answer :=
  framework.send 200 (.obj [("status", .str "ok"), ("timestamp", .str now)])

/-- **The answer to a request.** -/
def respond (framework : Framework) (settings : Settings) (now method address : String)
    (posted : Posted) : StateM Session Answer :=
  match framework.route method address with
  | .error answer => return answer
  | .ok .convert => convert framework settings posted
  | .ok .health => return health framework now

end Endpoint

end Mockup
