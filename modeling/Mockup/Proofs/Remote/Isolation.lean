import Mockup.Proofs.Link.Handling
import Mockup.Proofs.Page.Refusals

/-!
# One node of an answer

A conversion may be about one node of a file. The remote side answers with a map of nodes, and it may
put into the map what it likes: other nodes, nodes without a document, or nothing at all under the name
that was asked for. This module says that only the entry under that name matters.

* `NodeMap` — **the nodes of an answer**, each an object or `null`, under distinct names;
* `documentIn?`, `Vacant` — the document of an entry, and the entries that have none;
* `NodeMap.find?_documentsOf` — **the client keeps the document of each entry under its name**, and
  nothing else;
* `Session.AnswersNodes` — the remote side answers with a map of nodes, at once or after it was busy;
* `runFrom_convertLink_answered` — **the conversion of a node is a function of its entry**;
* `node_isolated` — **no other entry matters**: an entry without a document is reported as missing, and
  the document of any other one is converted.
-/

namespace Mockup

/-! ### Entries -/

namespace Json

variable {name : String} {fields : List (String × Json)}

/-- A field that is found is there. -/
theorem mem_of_find? {value : Json} (h : find? name fields = some value) : (name, value) ∈ fields := by
  induction fields with
  | nil => cases h
  | cons field rest ih =>
    obtain ⟨key, other⟩ := field
    by_cases same : key = name
    · rw [find?, if_pos same] at h
      obtain rfl := Option.some.inj h
      exact same ▸ List.mem_cons_self
    · rw [find?, if_neg same] at h
      exact List.mem_cons_of_mem _ (ih h)

/-- A name that no field has is not found. -/
theorem find?_of_notMem (h : name ∉ fields.map Prod.fst) : find? name fields = none :=
  Option.eq_none_iff_forall_ne_some.mpr fun _ hfound =>
    h (List.mem_map.mpr ⟨_, mem_of_find? hfound, rfl⟩)

end Json

/-- **The nodes of an answer**: under each name an object, or `null`. -/
structure NodeMap where
  entries : List (String × Json)
  /-- A name stands for one entry. -/
  distinct : (entries.map Prod.fst).Nodup
  /-- An entry is an object or `null`. -/
  plain : ∀ entry ∈ entries, entry.2 = .null ∨ ∃ fields, entry.2 = .obj fields

/-- The entry under a name. -/
def NodeMap.entry? (nodes : NodeMap) (id : String) : Option Json := Json.find? id nodes.entries

/-- **The document of an entry**, if it has one that counts as given. -/
def documentIn? : Option Json → Option Json
  | some (.obj fields) => (Json.find? "document" fields).filter Json.truthy
  | _ => none

/-- **Entries without a document**: there is no entry, or it is `null` or empty, or its document is
missing or does not count as given. -/
inductive Vacant : Option Json → Prop
  | absent : Vacant none
  | null : Vacant (some .null)
  | empty : Vacant (some (.obj []))
  | undocumented {fields : List (String × Json)} (missing : Json.find? "document" fields = none) :
    Vacant (some (.obj fields))
  | blank {fields : List (String × Json)} {document : Json}
    (present : Json.find? "document" fields = some document) (falsy : document.truthy = false) :
    Vacant (some (.obj fields))

/-- An entry without a document has none to convert. -/
theorem Vacant.documentIn? {entry : Option Json} (h : Vacant entry) : documentIn? entry = none := by
  cases h with
  | absent => rfl
  | null => rfl
  | empty => rfl
  | undocumented missing => rw [Mockup.documentIn?, missing, Option.filter_none]
  | blank present falsy =>
    rw [Mockup.documentIn?, present, Option.filter_some, falsy, if_neg (by decide)]

/-- The document of an entry. -/
theorem documentIn?_eq_some_iff {entry : Option Json} {document : Json} :
    documentIn? entry = some document ↔ ∃ fields, entry = some (.obj fields)
      ∧ Json.find? "document" fields = some document ∧ document.truthy = true := by
  constructor
  · intro h
    -- only an entry with fields can have a document
    cases entry with
    | none => cases h
    | some node =>
      cases node with
      | obj fields =>
        obtain ⟨found, given⟩ := Option.filter_eq_some_iff.mp h
        exact ⟨fields, rfl, found, given⟩
      | _ => cases h
  · rintro ⟨fields, rfl, found, given⟩
    exact Option.filter_eq_some_iff.mpr ⟨found, given⟩

/-- **An entry is without a document, or has one.** -/
theorem NodeMap.vacant_iff (nodes : NodeMap) (id : String) :
    Vacant (nodes.entry? id) ↔ documentIn? (nodes.entry? id) = none := by
  refine ⟨Vacant.documentIn?, fun h => ?_⟩
  -- an entry is missing, null or an object, and the object has no document, or an empty one
  cases hentry : nodes.entry? id with
  | none => exact .absent
  | some node =>
    rcases nodes.plain _ (Json.mem_of_find? hentry) with rfl | ⟨fields, rfl⟩
    · exact .null
    · rw [hentry] at h
      cases hdocument : Json.find? "document" fields with
      | none => exact .undocumented hdocument
      | some document =>
        refine .blank hdocument (eq_false_of_ne_true fun given => ?_)
        cases h.symm.trans (documentIn?_eq_some_iff.mpr ⟨fields, rfl, hdocument, given⟩)

/-! ### What the client keeps -/

/-- **An entry is kept when it has a document**, beside what is kept of the others. -/
theorem Client.documentsOf_cons (id : String) {node : Json}
    (plain : node = .null ∨ ∃ fields, node = .obj fields) {rest others : List (String × Json)}
    (hrest : documentsOf rest = .ok others) :
    documentsOf ((id, node) :: rest) = .ok (match documentIn? (some node) with
      | some document => (id, document) :: others
      | none => others) := by
  -- an entry that is null is left out
  have hnone : documentsOf ((id, .null) :: rest) = .ok others := by
    rw [documentsOf, hrest]
    rfl
  rcases plain with rfl | ⟨fields, rfl⟩
  · exact hnone
  cases fields with
  -- an object without fields does not count as given
  | nil =>
    rw [documentsOf, hrest]
    rfl
  -- any other one is kept when its document counts as given
  | cons field fields =>
    rw [documentsOf, hrest, documentIn?, if_pos (by rfl), Json.member, Json.memberOr]
    cases Json.find? "document" (field :: fields) with
    | none => rfl
    | some document =>
      change Except.ok (if document.truthy then (id, document) :: others else others) = _
      rw [Option.filter_some]
      cases document.truthy with
      | false => rfl
      | true => rfl

/-- **What the client keeps of a map**: under each name the document of its entry, if it has one. -/
theorem NodeMap.find?_documentsOf (nodes : NodeMap) :
    ∃ found, Client.documentsOf nodes.entries = .ok found
      ∧ ∀ id, Json.find? id found = documentIn? (nodes.entry? id) := by
  obtain ⟨entries, distinct, plain⟩ := nodes
  change ∃ found, Client.documentsOf entries = .ok found
    ∧ ∀ id, Json.find? id found = documentIn? (Json.find? id entries)
  induction entries with
  | nil => exact ⟨[], rfl, fun _ => rfl⟩
  | cons entry rest ih =>
    obtain ⟨name, node⟩ := entry
    obtain ⟨fresh, distinct⟩ := List.nodup_cons.mp distinct
    obtain ⟨here, further⟩ := List.forall_mem_cons.mp plain
    obtain ⟨others, hothers, hfind⟩ := ih distinct further
    refine ⟨_, Client.documentsOf_cons name here hothers, fun id => ?_⟩
    by_cases same : name = id
    · subst same
      -- the name stands for no further entry, so nothing else is kept under it
      have hfresh : Json.find? name others = none := by
        rw [hfind, Json.find?_of_notMem fresh]
        rfl
      rw [Json.find?, if_pos rfl]
      cases hdocument : documentIn? (some node) with
      | none => exact hfresh
      | some document => exact if_pos rfl
    -- another name is looked up among the other entries
    · rw [Json.find?, if_neg same, ← hfind]
      cases documentIn? (some node) with
      | none => rfl
      | some document => exact if_neg same

/-! ### Answers -/

/-- **The remote side answers with a map of nodes**, at once or after it was busy for no longer than a
client of the settings asks again: a reply that reports no error, with an object that has the map. -/
def Session.AnswersNodes (session : Session) (settings : Settings) (nodes : NodeMap) : Prop :=
  ∃ busy ≤ settings.maxRetries.toNat,
    (∀ i < busy, (session.upcoming i).Retryable
      ∧ ∃ pause, session.timer.Waits settings.firstPause i pause)
    ∧ ∃ status fields, session.upcoming busy = .replied ⟨status, .ok (.obj fields)⟩
      ∧ isErrorStatus status = false
      ∧ Json.find? "nodes" fields = some (.obj nodes.entries)

/-- The timer of a machine takes the three pauses that the program makes unless it is set up
otherwise. -/
theorem Timer.standard_waits {i : Nat} (h : i < 3) :
    ∃ pause, Timer.standard.Waits ({} : Settings).firstPause i pause := by
  have taken : (({} : Settings).firstPause.mul? (.whole (2 ^ i : Nat))).any
      (fun pause => pause.isTellable && (Timer.standard pause).isNone) = true := by
    obtain rfl | rfl | rfl : i = 0 ∨ i = 1 ∨ i = 2 := by omega
    all_goals decide +kernel
  cases doubled : ({} : Settings).firstPause.mul? (.whole (2 ^ i : Nat)) with
  | none =>
    rw [doubled] at taken
    cases taken
  | some pause =>
    rw [doubled, Option.any_some, Bool.and_eq_true, Option.isNone_iff_eq_none] at taken
    exact ⟨pause, doubled, taken.1, taken.2⟩

/-- **Fetching ends with the first outcome that asks for no repetition**, if it comes within the
budget and the pauses before it are taken. -/
theorem Client.fetch_answered (client : Client) (fileKey : String) (nodeId : Option String)
    {start : Session} {busy : Nat} (within : busy ≤ client.maxRetries.toNat)
    (repeated : ∀ i < busy, (start.upcoming i).Retryable
      ∧ ∃ pause, start.timer.Waits client.firstPause i pause)
    (settled : ¬ (start.upcoming busy).Retryable) :
    ((client.fetch fileKey nodeId).runFrom start).1
      = (start.upcoming busy).conclusion >>= picked fileKey nodeId := by
  obtain ⟨pauses, -, before, result, ends, run⟩ :=
    client.getFrom_run ((Call.toFetch fileKey nodeId).request client) 0 client.maxRetries.toNat start
  rw [runFrom_fetch, run]
  rcases Nat.lt_trichotomy pauses.length busy with early | rfl | late
  · -- neither do the attempts end before that outcome
    obtain ⟨again, pause, waits⟩ := repeated _ early
    cases ends with
    | settled last => exact absurd again (last (Nat.lt_of_lt_of_le early within))
    | stopped _ _ stops => exact absurd (Nat.zero_add _ ▸ stops) waits.not_stops
  · cases ends with
    | settled last => rfl
    | stopped _ again _ => exact absurd again settled
  · -- nor do they go on after it
    exact absurd (before _ late).1 settled

/-- What is picked from an answer with a map of nodes is the document of the entry. -/
theorem picked_of_nodes (nodes : NodeMap) (fileKey id : String) {fields : List (String × Json)}
    (h : Json.find? "nodes" fields = some (.obj nodes.entries)) :
    picked fileKey (some id) (.obj fields)
      = orFault (.refused (missingNode fileKey id)) (documentIn? (nodes.entry? id)) := by
  obtain ⟨found, hfound, hfind⟩ := nodes.find?_documentsOf
  have hfield : Client.nodesField (.obj fields) = .ok nodes.entries := by
    rw [Client.nodesField, Json.member, Json.memberOr, h]
    cases nodes.entries with
    | nil => rfl
    | cons _ _ => rfl
  rw [picked, hfield]
  change (Client.documentsOf nodes.entries >>= fun found => _) = _
  rw [hfound]
  change orFault _ (Json.find? id found) = _
  rw [hfind]

/-- **Fetching a node comes to the document of its entry.** -/
theorem Session.AnswersNodes.fetch {start : Session} {settings : Settings} {nodes : NodeMap}
    (h : start.AnswersNodes settings nodes) (token fileKey id : String) :
    (((settings.client token).fetch fileKey (some id)).runFrom start).1
      = orFault (.refused (missingNode fileKey id)) (documentIn? (nodes.entry? id)) := by
  -- the replies before were all repeated, and this one is good
  obtain ⟨busy, within, repeated, status, fields, hreply, good, hnodes⟩ := h
  have settled : ¬ (start.upcoming busy).Retryable := by
    rw [hreply, ← Outcome.isRetryable_iff, isRetryable_of_good good]
    rintro (h | h)
    · cases h
    · cases h
  have hconclusion : (start.upcoming busy).conclusion = .ok (.obj fields) := by
    rw [hreply, Outcome.conclusion, Outcome.verdict, good, if_neg (by decide)]
  rw [Client.fetch_answered (settings.client token) fileKey _ within repeated settled, hconclusion,
    ← picked_of_nodes nodes fileKey id hnodes]
  rfl

/-! ### Conversions -/

/-- **The conversion of an entry**: what a link, a token and a named node come to once the remote side
has answered. -/
def convertEntry (settings : Settings) (link token id : String) (entry : Option Json) :
    Result Conversion := do
  let target ← Link.parse link
  match target.fileKey with
  | none => throw invalidLink
  | some fileKey =>
    let _ ← Client.make settings (some token)
    let document ← orFault (.refused (missingNode fileKey id)) (documentIn? entry)
    convertDocument settings.gap document

variable {settings : Settings} {link token id : String} {entry : Option Json}

/-- **The conversion of a node is a function of its entry**, whatever else the answer has. -/
theorem runFrom_convertLink_answered (named : id ≠ "") {start : Session} {nodes : NodeMap}
    (h : start.AnswersNodes settings nodes) :
    ((convertLink settings link token (some id)).runFrom start).1
      = convertEntry settings link token id (nodes.entry? id) := by
  have hgiven (inLink : Option String) : (given? (some id) <|> inLink) = some id := by
    rw [given?, if_neg named]
    rfl
  -- the link is read first, and then the client is made
  rw [runFrom_convertLink, convertEntry]
  cases hparse : Link.parse link with
  | error fault =>
    rw [fetchLink, Work.runFrom_ofResult_bind, hparse]
    rfl
  | ok target =>
    -- a link without a key is refused on both sides
    obtain ⟨_ | fileKey, inLink⟩ := target
    · rw [fetchLink, Work.runFrom_ofResult_bind, hparse]
      rfl
    · rw [fetchLink, Work.runFrom_ofResult_bind, hparse]
      dsimp only
      rw [Work.runFrom_ofResult_bind, hgiven]
      change _ = Client.make settings (some token) >>= fun _ => _
      cases hmake : Client.make settings (some token) with
      | error fault => rfl
      | ok client =>
        -- whoever's token it is, the client is one of the settings
        obtain ⟨own, rfl⟩ := Client.eq_client_of_make hmake
        dsimp only
        rw [h.fetch]
        rfl

/-- Once there are a file and a token, the entry decides. -/
theorem convertEntry_of_parse (given : token ≠ "") {fileKey : String} {inLink : Option String}
    (hparse : Link.parse link = .ok ⟨some fileKey, inLink⟩) :
    convertEntry settings link token id entry
      = orFault (.refused (missingNode fileKey id)) (documentIn? entry)
        >>= convertDocument settings.gap := by
  rw [convertEntry, hparse]
  change (Client.make settings (some token) >>= fun _ => _) = _
  rw [Client.make_of_given settings given]
  rfl

/-- **No other entry matters.** Two answers that have the same entry under the name of a node, or both
none, lead to the same result or to the same fault. When the link names a file and there is a token, the
node is reported as missing exactly when its entry is without a document, and otherwise the document of
that entry is what is converted. -/
theorem node_isolated (named : id ≠ "") {first second : NodeMap}
    (agree : first.entry? id = second.entry? id) {start other : Session}
    (hfirst : start.AnswersNodes settings first) (hsecond : other.AnswersNodes settings second)
    (link token : String) :
    ((convertLink settings link token (some id)).runFrom start).1
      = ((convertLink settings link token (some id)).runFrom other).1
    ∧ ∀ fileKey inLink, token ≠ "" → Link.parse link = .ok ⟨some fileKey, inLink⟩ →
      ((∃ refusal, ((convertLink settings link token (some id)).runFrom start).1
            = .error (.refused refusal) ∧ refusal.code = .notFound) ↔ Vacant (first.entry? id))
      ∧ (Vacant (first.entry? id) → ((convertLink settings link token (some id)).runFrom start).1
          = .error (.refused (missingNode fileKey id)))
      ∧ (¬ Vacant (first.entry? id) → ∃ fields document,
          first.entry? id = some (.obj fields) ∧ Json.find? "document" fields = some document
          ∧ document.truthy = true
          ∧ ((convertLink settings link token (some id)).runFrom start).1
            = convertDocument settings.gap document) := by
  rw [runFrom_convertLink_answered named hfirst, runFrom_convertLink_answered named hsecond, ← agree]
  refine ⟨rfl, fun fileKey inLink given hparse => ?_⟩
  rw [convertEntry_of_parse given hparse, first.vacant_iff]
  -- the entry decides: the node is missing, or its document is converted
  cases hdocument : documentIn? (first.entry? id) with
  | none =>
    have hcode : (missingNode fileKey id).code = .notFound := rfl
    exact ⟨⟨fun _ => rfl, fun _ => ⟨_, rfl, hcode⟩⟩, fun _ => rfl, fun h => absurd rfl h⟩
  | some document =>
    obtain ⟨fields, hentry, hfound, htruthy⟩ := documentIn?_eq_some_iff.mp hdocument
    refine ⟨⟨?_, nofun⟩, nofun, fun _ => ⟨fields, document, hentry, hfound, htruthy, rfl⟩⟩
    rintro ⟨refusal, hresult, hcode⟩
    -- a conversion refuses only what is no document, and not as missing
    obtain ⟨-, rfl⟩ := convertDocument_refused hresult
    exact absurd hcode (by decide)

/-- A frame without children. -/
def lonelyFrame : Json := .obj [("id", .str "1:2"), ("type", .str "FRAME")]

/-- The frame alone. -/
def loneNode : NodeMap where
  entries := [("1:2", .obj [("document", lonelyFrame)])]
  distinct := by decide
  plain := by simp

/-- The frame among other nodes, of which none has a document. -/
def crowdedNodes : NodeMap where
  entries := [("9:9", .null), ("1:2", .obj [("document", lonelyFrame)]), ("1:3", .obj [])]
  distinct := by decide
  plain := by simp

/-- The reply with a map of nodes. -/
def NodeMap.reply (nodes : NodeMap) : Outcome :=
  .replied ⟨200, .ok (.obj [("nodes", .obj nodes.entries)])⟩

/-- The frame is converted all the same when it comes late and with others. -/
theorem lonelyFrame_isolated :
    ("1:2" : String) ≠ "" ∧ loneNode.entry? "1:2" = crowdedNodes.entry? "1:2"
    ∧ (Session.fresh fun _ => loneNode.reply).AnswersNodes {} loneNode
    ∧ (Session.fresh fun i => if i = 0 then .unanswered else crowdedNodes.reply).AnswersNodes {}
      crowdedNodes
    ∧ ((convertLink {} "AbC123" "token" (some "1:2")).runFrom (.fresh fun _ => loneNode.reply)).1
      = ((convertLink {} "AbC123" "token" (some "1:2")).runFrom
          (.fresh fun i => if i = 0 then .unanswered else crowdedNodes.reply)).1
    ∧ ((convertLink {} "AbC123" "token" (some "1:2")).runFrom (.fresh fun _ => loneNode.reply)).1
      = convertDocument defaultGap lonelyFrame := by
  have named : ("1:2" : String) ≠ "" := by decide
  have agree : loneNode.entry? "1:2" = crowdedNodes.entry? "1:2" := rfl
  -- one session answers at once, and one after it was silent for a while
  have hlone : (Session.fresh fun _ => loneNode.reply).AnswersNodes {} loneNode :=
    ⟨0, by decide, nofun, 200, _, rfl, rfl, rfl⟩
  have hcrowded : (Session.fresh fun i =>
      if i = 0 then .unanswered else crowdedNodes.reply).AnswersNodes {} crowdedNodes := by
    refine ⟨1, by decide, fun i hi => ?_, 200, _, rfl, rfl, rfl⟩
    obtain rfl : i = 0 := by omega
    exact ⟨trivial, Timer.standard_waits (by decide)⟩
  obtain ⟨same, decided⟩ := node_isolated named agree hlone hcrowded "AbC123" "token"
  have hparse : Link.parse "AbC123" = .ok ⟨some "AbC123", none⟩ := rfl
  obtain ⟨-, -, converted⟩ := decided "AbC123" none (by decide) hparse
  -- the entry is there, with a frame as its document
  have present : ¬ Vacant (loneNode.entry? "1:2") := fun h => by
    cases (loneNode.vacant_iff "1:2").mp h
  obtain ⟨fields, document, hentry, hdocument, -, hresult⟩ := converted present
  refine ⟨named, agree, hlone, hcrowded, same, ?_⟩
  obtain rfl := Json.obj.inj (Option.some.inj hentry)
  obtain rfl := Option.some.inj hdocument
  exact hresult

end Mockup
