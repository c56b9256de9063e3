import Mockup.Proofs.Design.Refusals
import Mockup.Proofs.Remote.Retry

/-!
# Fetching a document

A document is fetched by one call on a client, for the whole file or for a node of it, and then
picked from the answer. This module says what fetching comes to and which refusals it may end with.

* `Settings.client` — the client with a token that the settings make;
* `Call.toFetch`, `picked` — the call, and what is picked from its answer;
* `Client.fetch_run` — **fetching is the call and the picking**;
* `Session.SparesLink` — no outcome of a request is the refusal of a link;
* `Client.fetch_sparesLink` — **fetching never blames the link.**
-/

namespace Mockup

/-! ### The client of the settings -/

/-- The client with a token and otherwise what the program is set up with. -/
def Settings.client (settings : Settings) (token : String) : Client where
  token
  baseUrl := settings.baseUrl
  timeout := settings.timeout
  maxRetries := settings.maxRetries
  firstPause := settings.firstPause

/-- A token that is given makes the client. -/
theorem Client.make_of_given (settings : Settings) {token : String} (h : token ≠ "") :
    Client.make settings (some token) = .ok (settings.client token) := by
  have hgiven : given? (some token) = some token := if_neg h
  rw [make, hgiven]
  rfl

/-- A client is made of the settings, with the token of the user or, where there is none, with that of
the settings. -/
theorem Client.eq_client_of_make {settings : Settings} {token : Option String} {client : Client}
    (h : Client.make settings token = .ok client) : ∃ own, client = settings.client own := by
  rw [make] at h
  cases hown : given? token <|> given? settings.token with
  | none =>
    rw [hown] at h
    cases h
  | some own =>
    rw [hown] at h
    exact ⟨own, (Except.ok.inj h).symm⟩

/-! ### The call and the picking -/

/-- The call that fetches a file or a node of it. -/
def Call.toFetch (fileKey : String) : Option String → Call
  | none => .document fileKey
  | some id => .nodes fileKey [id]

/-- **What is picked from an answer**: the document, or that of the node. -/
def picked (fileKey : String) (nodeId : Option String) (reply : Json) : Result Json :=
  match nodeId with
  | none => reply.member "document"
  | some id => do
    let found ← Client.nodesField reply >>= Client.documentsOf
    orFault (.refused (missingNode fileKey id)) (Json.find? id found)

namespace Client

/-- Fetching is the loop, and then the picking. -/
theorem runFrom_fetch (client : Client) (fileKey : String) (nodeId : Option String)
    (start : Session) :
    (client.fetch fileKey nodeId).runFrom start
      = ((((client.getFrom ((Call.toFetch fileKey nodeId).request client) 0
              client.maxRetries.toNat).runFrom start).1 >>= picked fileKey nodeId),
          ((client.getFrom ((Call.toFetch fileKey nodeId).request client) 0
              client.maxRetries.toNat).runFrom start).2) := by
  -- the whole file: the reply is the document
  cases nodeId with
  | none =>
    have hget : client.get ("/files/" ++ fileKey) none
        = client.getFrom ((Call.toFetch fileKey none).request client) 0 client.maxRetries.toNat := rfl
    rw [fetch, document, Work.runFrom_bind, hget]
    rcases (client.getFrom _ 0 _).runFrom start with ⟨_ | reply, finish⟩
    · rfl
    · rfl
  -- one node: the document is picked from the reply
  | some id =>
    have hget : client.get ("/files/" ++ fileKey ++ "/nodes") (some (",".intercalate [id]))
        = client.getFrom ((Call.toFetch fileKey (some id)).request client) 0
            client.maxRetries.toNat := rfl
    rw [fetch, nodes, Work.runFrom_bind, Work.runFrom_bind, hget]
    rcases (client.getFrom _ 0 _).runFrom start with ⟨_ | reply, finish⟩
    · rfl
    · simp only [Work.runFrom_ofResult]
      change _ = (picked fileKey (some id) reply, finish)
      rw [picked]
      cases nodesField reply >>= documentsOf with
      | error fault => rfl
      | ok found =>
        change _ = (orFault (.refused (missingNode fileKey id)) (Json.find? id found), finish)
        dsimp only
        cases Json.find? id found with
        | none => rfl
        | some document => rfl

/-- **Fetching sends the request of the call**, and no other one. -/
theorem fetch_requests (client : Client) (fileKey : String) (nodeId : Option String)
    (start : Session) :
    ∃ n, ((client.fetch fileKey nodeId).runFrom start).2.requests
      = start.requests ++ List.replicate n ((Call.toFetch fileKey nodeId).request client) := by
  rw [runFrom_fetch]
  exact client.getFrom_requests _ 0 _ start

/-- **Fetching is a call, and then the picking**: the call ends with an outcome, or before a pause that
is not taken. -/
theorem fetch_run (client : Client) (fileKey : String) (nodeId : Option String) (start : Session) :
    ∃ (pauses : List Number) (result : Result Json),
      client.Ends 0 client.maxRetries.toNat start pauses.length result
      ∧ (client.fetch fileKey nodeId).runFrom start
        = (result >>= picked fileKey nodeId, { start with events := start.events
            ++ ((Call.toFetch fileKey nodeId).request client).attempts pauses }) := by
  obtain ⟨pauses, -, -, result, ends, run⟩ :=
    client.getFrom_run ((Call.toFetch fileKey nodeId).request client) 0 client.maxRetries.toNat start
  exact ⟨pauses, result, ends, by rw [runFrom_fetch, run]⟩

/-- An answer at once is all that is asked for. -/
theorem fetch_settled (client : Client) (fileKey : String) (nodeId : Option String)
    {start : Session} (h : ¬ (start.upcoming 0).Retryable) :
    (client.fetch fileKey nodeId).runFrom start
      = ((start.upcoming 0).conclusion >>= picked fileKey nodeId,
        start.record (.request ((Call.toFetch fileKey nodeId).request client))) := by
  rw [runFrom_fetch, getFrom_settled fun _ => h]

end Client

/-! ### Refusals -/

/-- Whether a fault is the refusal of a link. -/
def Fault.blamesLink : Fault → Bool
  | .refused refusal => refusal.code = .invalidLink
  | _ => false

/-- A fault that is no refusal blames no link. -/
theorem Fault.blamesLink_of_not_isRefusal {fault : Fault} (h : fault.isRefusal = false) :
    fault.blamesLink = false := by
  cases fault with
  | refused refusal => cases h
  | _ => rfl

/-- **What comes of a request never blames the link**: the refusal of a link is one that the program
states itself, and it does so before it asks for anything. -/
def Session.SparesLink (session : Session) : Prop :=
  ∀ i fault, session.outcomes i = .failed fault → fault.blamesLink = false

/-- The code for a status is that of a failure on the remote side. -/
theorem codeOfStatus_ne_invalidLink (status : Option Int) : codeOfStatus status ≠ .invalidLink := by
  unfold codeOfStatus
  split
  all_goals decide

/-- A failed reply blames no link. -/
theorem failureOf_sparesLink (reply : Option Reply) : (failureOf reply).blamesLink = false := by
  rw [failureOf]
  cases hmessage : errorMessage reply with
  -- the code of a status is not that of a bad link
  | ok message => exact decide_eq_false (codeOfStatus_ne_invalidLink _)
  | error fault =>
    -- the message is a field of the body, if that has fields
    have hfault : Unrefused (errorMessage reply) := by
      unfold errorMessage
      split
      · exact Json.member_unrefused _ _
      · exact .ok
    exact Fault.blamesLink_of_not_isRefusal (hfault fault hmessage)

/-- The last outcome of a request blames no link. -/
theorem Outcome.conclusion_sparesLink {outcome : Outcome}
    (spares : ∀ fault, outcome = .failed fault → fault.blamesLink = false) :
    Faults outcome.conclusion fun fault => fault.blamesLink = false := by
  have hfault {fault : Fault} (h : outcome.verdict = .fault fault) : fault.blamesLink = false := by
    cases outcome with
    -- a failed call is no fault of its own
    | unanswered => cases h
    | abandoned reply => cases h
    | failed own =>
      obtain rfl := Verdict.fault.inj h
      exact spares own rfl
    | replied reply =>
      rw [verdict] at h
      split at h
      -- a bad reply is a failure
      · cases h
      · -- of a good reply only the body can be at fault
        split at h
        · cases h
        · obtain rfl := Verdict.fault.inj h
          rfl
        · obtain rfl := Verdict.fault.inj h
          rfl
        all_goals cases h
  rw [conclusion]
  cases hverdict : outcome.verdict with
  | answer body => exact .ok
  | fault fault => exact .error (hfault hverdict)
  | failure reply => exact .error (failureOf_sparesLink reply)

theorem Client.documentsOf_unrefused (nodes : List (String × Json)) :
    Unrefused (Client.documentsOf nodes) := by
  induction nodes with
  | nil => exact .ok
  | cons entry rest ih =>
    obtain ⟨id, node⟩ := entry
    -- only a node that counts as given is asked for its document
    rw [documentsOf]
    split
    · refine (node.member_unrefused _).andThen fun document => ?_
      exact ih.andThen fun others => .ok
    · exact ih.andThen fun others => .ok

theorem Client.nodesField_unrefused (reply : Json) : Unrefused (Client.nodesField reply) := by
  refine (reply.member_unrefused _).andThen fun nodes => ?_
  split
  · exact .ok
  · exact .error rfl

/-- Picking blames no link: it refuses a node that is not there. -/
theorem picked_sparesLink (fileKey : String) (nodeId : Option String) (reply : Json) :
    Faults (picked fileKey nodeId reply) fun fault => fault.blamesLink = false := by
  cases nodeId with
  | none => exact (reply.member_unrefused _).mono fun _ => Fault.blamesLink_of_not_isRefusal
  | some id =>
    have hfound : Unrefused (Client.nodesField reply >>= Client.documentsOf) :=
      (Client.nodesField_unrefused reply).andThen Client.documentsOf_unrefused
    refine (hfound.mono fun _ => Fault.blamesLink_of_not_isRefusal).andThen fun found => ?_
    refine Faults.orFault ?_ _
    rfl

/-- How the loop ends blames no link. -/
theorem Client.Ends.sparesLink {client : Client} {attempts retries pauses : Nat} {start : Session}
    {result : Result Json} (h : client.Ends attempts retries start pauses result)
    (spares : start.SparesLink) : Faults result fun fault => fault.blamesLink = false := by
  cases h with
  | settled last => exact Outcome.conclusion_sparesLink fun fault => spares _ fault
  | @stopped fault left again stops =>
    refine .error ?_
    -- a reason not to wait is no refusal
    cases fault with
    | refused refusal => exact absurd rfl (stops.ne_refused refusal)
    | _ => rfl

/-- **Fetching never blames the link.** -/
theorem Client.fetch_sparesLink (client : Client) (fileKey : String) (nodeId : Option String)
    {start : Session} (spares : start.SparesLink) :
    Faults ((client.fetch fileKey nodeId).runFrom start).1 fun fault => fault.blamesLink = false := by
  obtain ⟨pauses, result, ends, run⟩ := client.fetch_run fileKey nodeId start
  rw [run]
  exact (ends.sparesLink spares).andThen (picked_sparesLink fileKey nodeId)

end Mockup
