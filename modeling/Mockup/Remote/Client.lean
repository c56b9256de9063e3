import Mockup.Json.Access
import Mockup.Link.Target
import Mockup.Page.Conversion
import Mockup.Remote.Exchange

/-!
# A client of the remote side

A client asks for a resource until there is a definite answer. When there is none, or the remote
side is busy, it asks again after a pause, and each pause is twice as long as the one before. After
a limited number of repetitions it gives up with a refusal that tells what the last outcome was.

* `Settings` — what the program is set up with;
* `Client`, `Client.make` — a client and what it is made of;
* `Verdict`, `Outcome.verdict` — what an outcome means;
* `Outcome.isRetryable`, `Outcome.conclusion` — whether it calls for a repetition, and what it comes
  to when it is the last one;
* `Client.get` — asking for a resource, with repetitions;
* `Client.document`, `Client.nodes` — a whole document, and some of its nodes;
* `Client.fetch`, `convertLink` — the document of a link, and its conversion.
-/

namespace Mockup

/-- **The settings of the program**: the token of those who bring none, where the remote side is, when
a request is given up, how often it is repeated, the first pause in seconds, and the gap between
artboards. -/
structure Settings where
  token : Option String := none
  baseUrl : String := "https://api.figma.com/v1"
  timeout : Json := .ofInt 30
  maxRetries : Int := 3
  firstPause : Number := .double (.ofRatio false 1 1)
  gap : Int := defaultGap

/-- **A client**: the token of the user, where the remote side is, when a request is given up, how
often it is repeated, and the first pause in seconds. -/
structure Client where
  token : String
  baseUrl : String
  timeout : Json
  maxRetries : Int
  firstPause : Number

/-- What may be chosen for one client in place of the settings of the program. -/
structure ClientChoices where
  baseUrl : Option String := none
  timeout : Option Json := none
  maxRetries : Option Int := none
  firstPause : Option Number := none

/-- A text that is there and not empty. -/
def given? : Option String → Option String
  | some text => if text = "" then none else some text
  | none => none

/-- **A client for a token**, which must be given, by the user or by the settings. -/
def Client.make (settings : Settings) (token : Option String) (choices : ClientChoices := {}) :
    Result Client :=
  match given? token <|> given? settings.token with
  | none => .error (.refused (Refusal.of .missingToken .null .program))
  | some token =>
    .ok {
      token
      baseUrl := (given? choices.baseUrl).getD settings.baseUrl
      timeout := choices.timeout.getD settings.timeout
      maxRetries := choices.maxRetries.getD settings.maxRetries
      firstPause := choices.firstPause.getD settings.firstPause }

/-! ### The meaning of outcomes -/

/-- **What an outcome means**: an answer, a failure with the status and the body of the reply if
there was one, or a fault on this side. -/
inductive Verdict where
  | answer (body : Json)
  | failure (reply : Option Reply)
  | fault (fault : Fault)

/-- Whether a status reports an error. -/
def isErrorStatus (status : Int) : Bool := 400 ≤ status && status < 600

/-- **The verdict on an outcome.** A good reply that is not readable counts as no reply. One that is
read to its end, but with half of a pair in it, is no failure of the remote side; this library has no
value for its body. -/
def Outcome.verdict : Outcome → Verdict
  | .replied reply =>
    if isErrorStatus reply.status then .failure (some reply)
    else match reply.body with
      | .ok body => .answer body
      | .error .tooManyDigits => .fault .badValue
      | .error .loneHalf => .fault .undecodable
      | .error .malformed | .error .undecodable => .failure none
  | .unanswered => .failure none
  | .abandoned reply => .failure (some reply)
  | .failed fault => .fault fault

/-- Whether the remote side may answer another time: when there was no reply, or it is busy. -/
def isTransient : Option Reply → Bool
  | none => true
  | some reply => reply.status = 429 || reply.status = 503

/-- **Whether it makes sense to ask again.** -/
def Outcome.isRetryable (outcome : Outcome) : Bool :=
  match outcome.verdict with
  | .failure reply => isTransient reply
  | _ => false

/-- The code of the refusal for a failure of a given status. -/
def codeOfStatus : Option Int → ErrorCode
  | some 403 => .forbidden
  | some 404 => .notFound
  | some 429 => .rateLimited
  | _ => .remoteFailure

/-- The message of a failed reply: what its body gives as the error, or none. A body that can be
read but is no object has no fields to look for the message in. -/
def errorMessage : Option Reply → Result Json
  | some ⟨_, .ok body⟩ => body.member "err"
  | _ => .ok .null

/-- **The refusal for a failure.** -/
def failureOf (reply : Option Reply) : Fault :=
  let status := reply.map (·.status)
  match errorMessage reply with
  | .ok message =>
    .refused (Refusal.of (codeOfStatus status)
      (message.orElse (.str ErrorCode.remoteFailure.message)) (.remote status))
  | .error fault => fault

/-- **What a request comes to** whose last outcome this is. -/
def Outcome.conclusion (outcome : Outcome) : Result Json :=
  match outcome.verdict with
  | .answer body => .ok body
  | .fault fault => .error fault
  | .failure reply => .error (failureOf reply)

/-- The refusal of a node that the answer does not have. -/
def missingNode (fileKey id : String) : Refusal :=
  .of .notFound (.str ("Node " ++ id ++ " not found in " ++ fileKey)) .program

/-! ### Repetition -/

/-- Whether a number can be told: an integer with too many digits cannot. -/
def Number.isTellable : Number → Bool
  | .whole z => (decimalDigits z.natAbs).length ≤ maxDigits
  | .double _ => true

namespace Client

/-- The pause after so many failed attempts: the first one, doubled each time. It is told before it is
taken, and an integer that is too long is not told. -/
def pauseAfter (client : Client) (attempts : Nat) : Result Number := do
  let pause ← orFault .outOfRange (client.firstPause.mul? (.whole (Nat.pow 2 attempts)))
  if pause.isTellable then return pause else throw .badValue

/-- Asks after `attempts` failed attempts, with so many repetitions left. -/
def getFrom (client : Client) (request : Request) : (attempts retries : Nat) → Exchange Json
  | _, 0 => do
    Work.ofResult (← Exchange.ask request).conclusion
  | attempts, retries + 1 => do
    let outcome ← Exchange.ask request
    if outcome.isRetryable then
      Exchange.pause (← Work.ofResult (client.pauseAfter attempts))
      getFrom client request (attempts + 1) retries
    else Work.ofResult outcome.conclusion

/-- **Asking for a resource**, with as many repetitions as the client allows. -/
def get (client : Client) (path : String) (ids : Option String) : Exchange Json :=
  getFrom client ⟨client.baseUrl ++ path, ids, client.timeout, client.token⟩ 0
    client.maxRetries.toNat

/-! ### Documents -/

/-- **A whole document**; `null` when the reply has none. -/
def document (client : Client) (fileKey : String) : Exchange Json := do
  let reply ← client.get ("/files/" ++ fileKey) none
  Work.ofResult (reply.member "document")

/-- The documents of nodes in a reply, by the names of the nodes; a node without one is left out. -/
def documentsOf : List (String × Json) → Result (List (String × Json))
  | [] => .ok []
  | (id, node) :: rest => do
    let document ← if node.truthy then node.member "document" else pure .null
    let others ← documentsOf rest
    return if document.truthy then (id, document) :: others else others

/-- The nodes in a reply. -/
def nodesField (reply : Json) : Result (List (String × Json)) := do
  match (← reply.member "nodes").orElse (.obj []) with
  | .obj fields => return fields
  | _ => throw .absentMember

/-- **The documents of some nodes** of a file. -/
def nodes (client : Client) (fileKey : String) (ids : List String) :
    Exchange (List (String × Json)) := do
  let reply ← client.get ("/files/" ++ fileKey ++ "/nodes") (some (",".intercalate ids))
  Work.ofResult (nodesField reply >>= documentsOf)

/-- **The document to convert**: the whole one unless a node is named, and else that of the node. -/
def fetch (client : Client) (fileKey : String) (nodeId : Option String) : Exchange Json :=
  match nodeId with
  | none => client.document fileKey
  | some id => do
    match Json.find? id (← client.nodes fileKey [id]) with
    | none => throw (.refused (missingNode fileKey id))
    | some document => return document

end Client

/-! ### Conversion of a linked design -/

/-- **Converts what a link points to.** A node named beside the link wins over the one in it. -/
def convertLink (settings : Settings) (link token : String) (nodeId : Option String) :
    Exchange Conversion := do
  let target ← Work.ofResult (Link.parse link)
  match target.fileKey with
  | none => throw (.refused (Refusal.of .invalidLink .null .program))
  | some fileKey =>
    let client ← Work.ofResult (Client.make settings (some token))
    let document ← client.fetch fileKey (given? nodeId <|> target.nodeId)
    Work.ofResult (convertDocument settings.gap document)

end Mockup
