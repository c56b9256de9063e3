import Mockup.Proofs.Link.Parts
import Mockup.Proofs.Remote.Fetch
import Mockup.Remote.Client

/-!
# Which links are handled

Anyone may send any text as a link. One that names no file is to be refused before anything is
asked for, and one that names a file leads to a call for it. This module says for which texts
that is so.

* `fetchLink` — the document that a link points to, which the service converts;
* `convertLink_asks` — **all that a conversion asks for** is the call for the file of the link;
* `HandlesLink` — **a link is handled**: it is read, and then either refused at once or followed by a
  call for the file that it names;
* `link_handled_iff` — **a link is handled exactly when its host is in order**; any other one ends
  with a fault that is no refusal, before the first request.

Nothing else of a text can keep the reader from an answer (`Link.parse_of_isHost`), and reading is
the only step before the first request that can fail for a token that is given.
-/

namespace Mockup

/-! ### The document of a link -/

/-- The refusal of a link that names no file. -/
def invalidLink : Fault := .refused (Refusal.of .invalidLink .null .program)

/-- **The document that a link points to**, as the service fetches it. -/
def fetchLink (settings : Settings) (link token : String) (nodeId : Option String) :
    Exchange Json := do
  let target ← Work.ofResult (Link.parse link)
  match target.fileKey with
  | none => throw invalidLink
  | some fileKey =>
    let client ← Work.ofResult (Client.make settings (some token))
    client.fetch fileKey (given? nodeId <|> target.nodeId)

variable {settings : Settings} {link token : String}

/-- The service fetches a document and converts it. -/
theorem runFrom_convertLink (settings : Settings) (link token : String) (nodeId : Option String)
    (start : Session) :
    (convertLink settings link token nodeId).runFrom start
      = (((fetchLink settings link token nodeId).runFrom start).1 >>= convertDocument settings.gap,
        ((fetchLink settings link token nodeId).runFrom start).2) := by
  -- both go the same way until there is a document
  rw [convertLink, fetchLink, Work.runFrom_ofResult_bind, Work.runFrom_ofResult_bind]
  cases Link.parse link with
  | error fault => rfl
  | ok target =>
    dsimp only
    cases target.fileKey with
    | none => rfl
    | some fileKey =>
      dsimp only
      rw [Work.runFrom_ofResult_bind, Work.runFrom_ofResult_bind]
      cases Client.make settings (some token) with
      | error fault => rfl
      | ok client =>
        dsimp only
        rw [Work.runFrom_bind]
        -- the document arrives and is converted, or it does not
        rcases (client.fetch fileKey _).runFrom start with ⟨_ | document, finish⟩
        · rfl
        · rfl

/-- What a link that names a file leads to is fetched by the client of the settings. -/
theorem runFrom_fetchLink_of_parse (h : token ≠ "") {fileKey : String} {inLink : Option String}
    (hparse : Link.parse link = .ok ⟨some fileKey, inLink⟩) (nodeId : Option String)
    (start : Session) :
    (fetchLink settings link token nodeId).runFrom start
      = ((settings.client token).fetch fileKey (given? nodeId <|> inLink)).runFrom start := by
  rw [fetchLink, Work.runFrom_ofResult_bind, hparse]
  dsimp only
  rw [Work.runFrom_ofResult_bind, Client.make_of_given settings h]

/-- **What a conversion asks for** is the call for the file that the link names, by a client of the
settings, and nothing else. The client has the token that is given. -/
theorem convertLink_asks (settings : Settings) (link token : String) (nodeId : Option String)
    (start : Session) :
    ∃ requests, ((convertLink settings link token nodeId).runFrom start).2.requests
        = start.requests ++ requests
      ∧ ∀ request ∈ requests, ∃ fileKey inLink own, Link.parse link = .ok ⟨some fileKey, inLink⟩
        ∧ (token ≠ "" → own = token)
        ∧ request
          = (Call.toFetch fileKey (given? nodeId <|> inLink)).request (settings.client own) := by
  rw [runFrom_convertLink, fetchLink, Work.runFrom_ofResult_bind]
  cases hparse : Link.parse link with
  -- nothing is asked for a link that cannot be read
  | error fault => exact ⟨[], (List.append_nil _).symm, nofun⟩
  | ok target =>
    obtain ⟨_ | fileKey, inLink⟩ := target
    -- nor for one without a file key
    · exact ⟨[], (List.append_nil _).symm, nofun⟩
    dsimp only
    rw [Work.runFrom_ofResult_bind]
    cases hmake : Client.make settings (some token) with
    | error fault => exact ⟨[], (List.append_nil _).symm, nofun⟩
    | ok client =>
      dsimp only
      -- the requests of a fetch are one request several times
      obtain ⟨n, hrequests⟩ := client.fetch_requests fileKey (given? nodeId <|> inLink) start
      obtain ⟨own, rfl⟩ := Client.eq_client_of_make hmake
      refine ⟨_, hrequests, fun request hrequest => ?_⟩
      -- a token that is given is the client's own
      refine ⟨fileKey, inLink, own, rfl, fun given => ?_, List.eq_of_mem_replicate hrequest⟩
      rw [Client.make_of_given settings given] at hmake
      exact (congrArg Client.token (Except.ok.inj hmake)).symm

/-! ### Handled links -/

/-- **A link is handled.** It is read. If it names no file, the conversion ends with the refusal of
the link and nothing has happened; otherwise what happens is a call for the file or a node of it. -/
def HandlesLink (settings : Settings) (link token : String) (nodeId : Option String)
    (start : Session) : Prop :=
  ∃ target, Link.parse link = .ok target
    ∧ match target.fileKey with
      | none => (convertLink settings link token nodeId).runFrom start = (.error invalidLink, start)
      | some fileKey => ∃ pauses, ((convertLink settings link token nodeId).runFrom start).2
        = { start with events := start.events
            ++ ((Call.toFetch fileKey (given? nodeId <|> target.nodeId)).request
              (settings.client token)).attempts pauses }

/-- **What is read is handled**, when a token is given. -/
theorem handlesLink_of_parse (h : token ≠ "") {target : Link.Target}
    (hparse : Link.parse link = .ok target) (nodeId : Option String) (start : Session) :
    HandlesLink settings link token nodeId start := by
  refine ⟨target, hparse, ?_⟩
  obtain ⟨_ | fileKey, inLink⟩ := target
  · -- nothing has been asked for when the link is refused
    dsimp only
    rw [convertLink, Work.runFrom_ofResult_bind, hparse]
    rfl
  -- else the answer is that of the fetch
  · obtain ⟨pauses, result, -, run⟩ :=
      (settings.client token).fetch_run fileKey (given? nodeId <|> inLink) start
    refine ⟨pauses, ?_⟩
    rw [runFrom_convertLink, runFrom_fetchLink_of_parse h hparse, run]

/-- A link that is not read ends the conversion at once. -/
theorem convertLink_of_unread {fault : Fault} (hparse : Link.parse link = .error fault)
    (nodeId : Option String) (start : Session) :
    (convertLink settings link token nodeId).runFrom start = (.error fault, start) := by
  rw [convertLink, Work.runFrom_ofResult_bind, hparse]

/-- **A link is handled exactly when its host is in order.** So it is when there are neither
brackets in the host nor characters that turn into separators. Any other link ends the conversion
with a fault that is no refusal, and nothing has been asked for. -/
theorem link_handled_iff (settings : Settings) (link : String) {token : String} (h : token ≠ "")
    (nodeId : Option String) (start : Session) :
    (HandlesLink settings link token nodeId start ↔ Link.isHost (Link.hostOf link) = true)
    ∧ ((∀ c ∈ Link.hostOf link, c ≠ '[' ∧ c ≠ ']' ∧ c ∉ Link.separatorForms) →
      HandlesLink settings link token nodeId start)
    ∧ (Link.isHost (Link.hostOf link) = false → Link.parse link = .error .badValue
      ∧ (convertLink settings link token nodeId).runFrom start = (.error .badValue, start)) := by
  -- a host in order is enough
  have handled (hhost : Link.isHost (Link.hostOf link) = true) :
      HandlesLink settings link token nodeId start := by
    obtain ⟨target, hparse⟩ := Link.parse_of_isHost hhost
    exact handlesLink_of_parse h hparse nodeId start
  refine ⟨⟨?_, handled⟩, ?_, ?_⟩
  · rintro ⟨target, hparse, -⟩
    -- what is read has a host in order
    refine Classical.byContradiction fun hhost => ?_
    have hfault := Link.parse_of_not_isHost (eq_false_of_ne_true hhost)
    cases hparse.symm.trans hfault
  -- without brackets and letter forms of separators the host is in order
  · intro plain
    have opening : '[' ∉ Link.hostOf link := fun hmem => (plain _ hmem).1 rfl
    have closing : ']' ∉ Link.hostOf link := fun hmem => (plain _ hmem).2.1 rfl
    exact handled (Link.isHost_of_plain opening closing fun c hc => (plain c hc).2.2)
  -- any other host makes the link a bad value
  · intro hhost
    have hfault := Link.parse_of_not_isHost hhost
    exact ⟨hfault, convertLink_of_unread hfault nodeId start⟩

/-- A link to a numeric address is handled, for its brackets are in order. -/
theorem numericAddress_handled : ("token" : String) ≠ "" ∧
    HandlesLink {} "http://[::1]/file/AbC123" "token" none (.fresh fun _ => .unanswered) := by
  have hhost : Link.isHost (Link.hostOf "http://[::1]/file/AbC123") = true := by decide
  have given : ("token" : String) ≠ "" := by decide
  obtain ⟨⟨-, handled⟩, -⟩ :=
    link_handled_iff {} "http://[::1]/file/AbC123" given none (.fresh fun _ => .unanswered)
  exact ⟨given, handled hhost⟩

/-- A host with an opening bracket only: the link is neither read nor refused. -/
theorem openBracket_not_handled :
    Link.parse "http://[" = .error .badValue
    ∧ (convertLink {} "http://[" "token" none).runFrom (.fresh fun _ => .unanswered)
      = (.error .badValue, .fresh fun _ => .unanswered)
    ∧ ¬ HandlesLink {} "http://[" "token" none (.fresh fun _ => .unanswered) := by
  have hhost : Link.isHost (Link.hostOf "http://[") = false := by decide
  have hfault := Link.parse_of_not_isHost hhost
  refine ⟨hfault, convertLink_of_unread hfault _ _, ?_⟩
  rintro ⟨target, hparse, -⟩
  cases hparse.symm.trans hfault

end Mockup
