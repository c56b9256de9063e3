import Mockup.Proofs.Command.Saving
import Mockup.Proofs.Link.Handling
import Mockup.Proofs.Page.Refusals

/-!
# The ways in agree

A design comes into the program by three ways: the service converts what a link points to and
answers with the page, `convert` does the same on a command line and writes the page to files, and
`render` takes the document from a file instead. Each of them has steps of its own. This module says
that they come to the same.

* `FollowsService` — **a command line follows the service**: what it asks for and the fault it ends
  with are those of the service, and the files hold the page of the service;
* `SameDesign`, `EndAlike` — the same object in a file and in an answer, and runs with the same
  result and the same files;
* `entry_points_agree` — **every link is followed as the service does, and rendering an object
  ends like converting the key for which it is the answer.**
-/

namespace Mockup

open Command

/-! ### Links on a command line -/

section Links

variable {link token : String}

/-- **Both ways in fetch alike**: they ask the same client for the same. -/
theorem fetch_eq_fetch (client : Client) (fileKey : String) (nodeId : Option String) :
    Command.fetch client fileKey nodeId = client.fetch fileKey nodeId := by
  cases nodeId with
  | none => rfl
  | some id =>
    rw [Command.fetch, Client.fetch]
    refine congrArg (client.nodes fileKey [id] >>= ·) (funext fun nodes => ?_)
    dsimp only
    cases Json.find? id nodes <;> rfl

/-- The messages when a link has been looked at. -/
def Report.looked (report : Report) (link : String) : List (Level × String) :=
  report.messages ++ [(.info, blue ("🔄 Figma URL 파싱 중: " ++ link))]

/-- On a command line a link that names a file leads to what the service fetches for it. -/
theorem runFrom_saveLinked_of_parse (settings : Settings) (h : token ≠ "") {fileKey : String}
    {nodeId : Option String} (hparse : Link.parse link = .ok ⟨some fileKey, nodeId⟩)
    (output : String) (report : Report) :
    (saveLinked settings link output (some token)).runFrom report
      = match (fetchLink settings link token none).runFrom report.session with
        | (.ok document, session) => (saveDocument settings.gap document output).runFrom { report with
            session
            messages := report.looked link ++ [(.info, green "✅ Figma 데이터 가져오기 성공")] }
        | (.error fault, session) =>
          (.error (.fault fault), { report with session, messages := report.looked link }) := by
  have hfetch : (fetchLink settings link token none).runFrom report.session
      = ((settings.client token).fetch fileKey nodeId).runFrom report.session :=
    runFrom_fetchLink_of_parse h hparse none report.session
  -- the link is read, and the token makes the same client as on the other side
  rw [hfetch, saveLinked, runFrom_log_bind, runFrom_ofResult_bind, hparse]
  dsimp only
  rw [runFrom_ofResult_bind, Client.make_of_given settings h]
  dsimp only
  -- the fetching is the same work on the session, whatever it ends with
  rw [runFrom_exchange_bind, fetch_eq_fetch, runFrom_ofResult_bind]
  dsimp only
  rcases ((settings.client token).fetch fileKey nodeId).runFrom report.session with
    ⟨fault | document, session⟩
  -- a fault ends both sides, and a document goes on to the same conversion
  · rfl
  · dsimp only
    rw [runFrom_log_bind]
    rfl

end Links

/-! ### Following the service -/

/-- **What a fault of the service is on a command line**: a link that names no file is an error of
usage there, and any other fault is the same one. -/
def Interruption.ofFault (fault : Fault) : Interruption :=
  if fault.blamesLink then .usage invalidLinkError else .fault fault

theorem Interruption.ofFault_of_sparesLink {fault : Fault} (h : fault.blamesLink = false) :
    ofFault fault = .fault fault := by
  rw [ofFault, h, if_neg (by decide)]

/-- **A command line follows the service**, on a link from a report: it asks for the same and waits
as long; it ends with the fault of the service, and then no file is written; it is an error of usage
only for a link that the service refuses; and when the service has a page, the document behind it
has a title and the page can be written, then the stylesheet of the service and the complete page
around its body are what the two files hold. -/
structure FollowsService (settings : Settings) (link output token : String) (report : Report) :
    Prop where
  session : ((saveLinked settings link output (some token)).runFrom report).2.session
    = ((convertLink settings link token none).runFrom report.session).2
  fault : ∀ fault, ((convertLink settings link token none).runFrom report.session).1 = .error fault →
    ((saveLinked settings link output (some token)).runFrom report).1 = .error (.ofFault fault)
      ∧ ((saveLinked settings link output (some token)).runFrom report).2.storage = report.storage
  usage : ∀ error,
    ((saveLinked settings link output (some token)).runFrom report).1 = .error (.usage error) →
    ∃ fault, ((convertLink settings link token none).runFrom report.session).1 = .error fault
      ∧ fault.blamesLink = true
  page : ∀ page, ((convertLink settings link token none).runFrom report.session).1 = .ok page →
    ∃ document, ((fetchLink settings link token none).runFrom report.session).1 = .ok document
      ∧ convertDocument settings.gap document = .ok page
      ∧ ∀ title after, document.HasTitle title → report.storage.Saves page title output after →
        ((saveLinked settings link output (some token)).runFrom report).1
            = .ok (PagePaths.of title output).directory
          ∧ ((saveLinked settings link output (some token)).runFrom report).2.storage = after
          ∧ after.entry (after.place (PagePaths.of title output).css) = .file (some page.css)
          ∧ after.entry (after.place (PagePaths.of title output).html)
            = .file (some (completePage page.html (stylesheetName title) title))

/-- A link that is not read is not refused for that. -/
theorem parse_sparesLink (link : String) :
    Faults (Link.parse link) fun fault => fault.blamesLink = false := by
  -- the only fault of reading is that of a host that is not in order
  cases hhost : Link.isHost (Link.hostOf link) with
  | true =>
    obtain ⟨target, htarget⟩ := Link.parse_of_isHost hhost
    rw [htarget]
    exact .ok
  | false =>
    rw [Link.parse_of_not_isHost hhost]
    exact .error rfl

/-- A conversion of a document blames no link. -/
theorem convertDocument_sparesLink (gap : Int) (document : Json) :
    Faults (convertDocument gap document) fun fault => fault.blamesLink = false := by
  intro fault h
  -- a refusal of a document is about its root, which is no link
  cases fault with
  | refused refusal =>
    obtain ⟨-, rfl⟩ := convertDocument_refused h
    decide
  | _ => rfl

section Service

variable {settings : Settings} {link output token : String} {report : Report}

/-- A fault on both sides. -/
theorem FollowsService.of_fault (fault : Fault) (session : Session)
    (messages : List (Level × String))
    (service : (convertLink settings link token none).runFrom report.session = (.error fault, session))
    (command : (saveLinked settings link output (some token)).runFrom report
      = (.error (.ofFault fault), { report with session, messages })) :
    FollowsService settings link output token report := by
  refine ⟨?_, ?_, ?_, ?_⟩
  · rw [service, command]
  -- the fault is the one of the service, and nothing is written
  · rw [service, command]
    rintro _ ⟨⟩
    exact ⟨rfl, rfl⟩
  · rw [service, command]
    intro error h
    -- a fault that blames no link would be here as it is
    refine ⟨fault, rfl, Classical.byContradiction fun spares => ?_⟩
    rw [Interruption.ofFault_of_sparesLink (eq_false_of_ne_true spares)] at h
    cases h
  · rw [service]
    nofun

/-- A page of the service. The command line asks for nothing more, whatever the writing of the files
ends with. -/
theorem FollowsService.of_page {document : Json} {page : Conversion} {session : Session}
    {storage : Storage} {messages : List (Level × String)} {ended : Result String}
    (fetched : (fetchLink settings link token none).runFrom report.session = (.ok document, session))
    (hpage : convertDocument settings.gap document = .ok page)
    (command : (saveLinked settings link output (some token)).runFrom report
      = (ended.mapError .fault, { report with session, storage, messages }))
    (saved : ∀ title after, document.HasTitle title → report.storage.Saves page title output after →
      ended = .ok (PagePaths.of title output).directory ∧ storage = after) :
    FollowsService settings link output token report := by
  have service :
      (convertLink settings link token none).runFrom report.session = (.ok page, session) := by
    rw [runFrom_convertLink, fetched, ← hpage]
    rfl
  refine ⟨?_, ?_, ?_, ?_⟩
  -- the session is that of the fetching on both sides
  · rw [service, command]
  · rw [service]
    nofun
  · rw [command]
    intro error h
    -- an end of the writing is no error of usage
    cases ended with
    | error fault => cases h
    | ok directory => cases h
  · rw [service, fetched, command]
    -- with both files written, the stylesheet and the page are read back from them
    rintro _ ⟨⟩
    refine ⟨document, rfl, hpage, fun title after titled saves => ?_⟩
    obtain ⟨rfl, rfl⟩ := saved title after titled saves
    exact ⟨rfl, rfl, saves.css, saves.html⟩

/-- **A document on both sides.** -/
theorem FollowsService.of_document {document : Json} {session : Session}
    {messages : List (Level × String)}
    (fetched : (fetchLink settings link token none).runFrom report.session = (.ok document, session))
    (command : (saveLinked settings link output (some token)).runFrom report
      = (saveDocument settings.gap document output).runFrom { report with session, messages }) :
    FollowsService settings link output token report := by
  rcases saveDocument_cases settings.gap document output with ⟨fault, hpage, run⟩
    | ⟨page, hpage, untitled, run⟩ | ⟨page, title, hpage, titled, run⟩
  · -- the document is not converted
    have spares := convertDocument_sparesLink settings.gap document fault hpage
    refine .of_fault fault session messages ?_ ?_
    · rw [runFrom_convertLink, fetched, ← hpage]
      rfl
    · rw [command, run, Interruption.ofFault_of_sparesLink spares]
  · -- the page has no title
    have ended : (saveLinked settings link output (some token)).runFrom report
        = (Except.mapError Interruption.fault (.error .wrongKind : Result String),
          { report with session, messages }) := by
      rw [command, run]
      rfl
    exact .of_page fetched hpage ended fun title after titled => absurd titled (untitled title)
  -- the files are written, or writing them ends with a fault
  · obtain ⟨ended, storage, written, hended⟩ :=
      saveConversion_ends page title output { report with session, messages }
    refine .of_page fetched hpage (command.trans ((run _).trans hended)) ?_
    intro title' after titled' saves
    obtain rfl := titled.unique titled'
    -- when the files can be written, the end is that of writing them
    have hsaves : Storage.Saves ({ report with session, messages } : Report).storage page title
        output after := saves
    have hsaved := hended.symm.trans (runFrom_saveConversion hsaves)
    obtain ⟨hdirectory, hreport⟩ := Prod.mk.inj hsaved
    have hstorage : storage = after := congrArg Report.storage hreport
    refine ⟨?_, hstorage⟩
    cases ended with
    | error fault => cases hdirectory
    | ok directory =>
      have hequal : directory = (PagePaths.of title output).directory := Except.ok.inj hdirectory
      rw [hequal]

/-- **Every link is followed as the service does.** -/
theorem followsService (settings : Settings) (h : token ≠ "") (link output : String)
    (spared : report.session.SparesLink) : FollowsService settings link output token report := by
  cases hparse : Link.parse link with
  | error fault =>
    -- neither side reads the link
    have spares : fault.blamesLink = false := parse_sparesLink link fault hparse
    refine .of_fault fault report.session (report.looked link)
      (convertLink_of_unread hparse none report.session) ?_
    rw [saveLinked, runFrom_log_bind, runFrom_ofResult_bind, hparse,
      Interruption.ofFault_of_sparesLink spares]
    rfl
  | ok target =>
    obtain ⟨_ | fileKey, nodeId⟩ := target
    · -- the link names no file
      refine .of_fault invalidLink report.session (report.looked link) ?_ ?_
      · rw [convertLink, Work.runFrom_ofResult_bind, hparse]
        rfl
      · rw [saveLinked, runFrom_log_bind, runFrom_ofResult_bind, hparse]
        rfl
    -- the link names a file
    · have command := runFrom_saveLinked_of_parse settings h hparse output report
      rcases hfetch : (fetchLink settings link token none).runFrom report.session with
        ⟨fault | document, session⟩
      -- the fetching ends with a fault, which blames no link
      · have hfault := (settings.client token).fetch_sparesLink fileKey nodeId spared
        have hrun : (fetchLink settings link token none).runFrom report.session
            = ((settings.client token).fetch fileKey nodeId).runFrom report.session :=
          runFrom_fetchLink_of_parse h hparse none report.session
        rw [← hrun, hfetch] at hfault
        have spares : fault.blamesLink = false := hfault fault rfl
        refine .of_fault fault session (report.looked link) ?_ ?_
        · rw [runFrom_convertLink, hfetch]
          rfl
        · rw [command, hfetch, Interruption.ofFault_of_sparesLink spares]
      -- there is a document
      · rw [hfetch] at command
        exact .of_document hfetch command

end Service

/-! ### Rendering a saved answer -/

/-- **The same object in a file and in an answer.** The text of the file that is rendered and the
reply to the first request are one object that has a document; the link names a file of the remote
side and no node of it, as a key alone does. Both commands run in the same directory, where the same
files have been written, and nothing keeps the page of the document from being written. -/
structure SameDesign (gap : Int) (path output link : String) (fields : List (String × Json))
    (document : Json) (first second : Report) : Prop where
  file : ∃ text, first.storage.entryAt path = .ok (.file (some text))
    ∧ Json.read text = .ok (.obj fields)
  answer : second.session.upcoming 0 = .replied ⟨200, .ok (.obj fields)⟩
  found : Json.find? "document" fields = some document
  link : ∃ fileKey, Link.parse link = .ok ⟨some fileKey, none⟩
  home : first.storage.home = second.storage.home
  written : first.storage.written = second.storage.written
  saves : ∀ page title, convertDocument gap document = .ok page → document.HasTitle title →
    (∃ after, first.storage.Saves page title output after)
      ∧ ∃ after, second.storage.Saves page title output after

/-- **Two runs end alike**: with the same result, so with the same exit code and the same fault that
is not handled, and with the same files on record as written. -/
structure EndAlike {α : Type} (first second : Except Interruption α × Report) : Prop where
  result : first.1 = second.1
  written : first.2.storage.written = second.2.storage.written

/-- What is made of the end of two commands keeps them alike. -/
theorem EndAlike.announced {first second : Report} {one other : Command String}
    (h : EndAlike (one.runFrom first) (other.runFrom second)) :
    EndAlike ((handlingRefusals do announce (← one)).runFrom first)
      ((handlingRefusals do announce (← other)).runFrom second) := by
  -- only what the command ends with and what it has written are left of the reports
  rw [runFrom_handlingRefusals, runFrom_handlingRefusals, runFrom_bind, runFrom_bind]
  generalize one.runFrom first = ended at h ⊢
  generalize other.runFrom second = ended' at h ⊢
  obtain ⟨result, report⟩ := ended
  obtain ⟨result', report'⟩ := ended'
  obtain ⟨hresult, hwritten⟩ := h
  obtain rfl : result = result' := hresult
  -- a command ends in one of four ways, and each is announced alike
  rcases result with (_ | _ | fault) | directory
  · exact ⟨rfl, hwritten⟩
  · exact ⟨rfl, hwritten⟩
  · cases fault with
    | refused refusal => exact ⟨rfl, hwritten⟩
    | _ => exact ⟨rfl, hwritten⟩
  · exact ⟨rfl, hwritten⟩

section Rendering

variable {gap : Int} {path output link : String} {fields : List (String × Json)} {document : Json}
  {first second : Report}

/-- **A document ends alike from two reports** when its page can be written from both. -/
theorem saveDocument_alike (home : first.storage.home = second.storage.home)
    (written : first.storage.written = second.storage.written)
    (saves : ∀ page title, convertDocument gap document = .ok page →
      document.HasTitle title → (∃ after, first.storage.Saves page title output after)
        ∧ ∃ after, second.storage.Saves page title output after) :
    EndAlike ((saveDocument gap document output).runFrom first)
      ((saveDocument gap document output).runFrom second) := by
  rcases saveDocument_cases gap document output with ⟨fault, -, run⟩ | ⟨page, -, -, run⟩
    | ⟨page, title, hpage, titled, run⟩
  -- a fault of the conversion, and a document without a title, end both before anything is written
  · rw [run, run]
    exact ⟨rfl, written⟩
  · rw [run, run]
    exact ⟨rfl, written⟩
  -- the files can be written on both sides
  · obtain ⟨⟨after, hfirst⟩, after', hsecond⟩ := saves page title hpage titled
    rw [run, run, runFrom_saveConversion hfirst, runFrom_saveConversion hsecond]
    refine ⟨rfl, ?_⟩
    dsimp only
    -- the record grows by the same texts at the same places
    rw [hfirst.written_eq, hsecond.written_eq, written]
    simp only [Storage.place_congr home]

/-- Rendering a file whose text is read as an object. -/
theorem runFrom_render {text : String}
    (hfile : first.storage.entryAt path = .ok (.file (some text)))
    (hread : Json.read text = .ok (.obj fields))
    (hfound : Json.find? "document" fields = some document) :
    (render gap path output []).runFrom first
      = (handlingRefusals do announce (← saveDocument gap document output)).runFrom first := by
  have hdocument : documentIn (.obj fields) = document := by
    rw [documentIn, hfound, Option.getD_some]
  rw [runFrom_render_of_text hfile, hread, ← hdocument]

/-- Converting a link to a file, when the first request is answered at once. -/
theorem fetchLink_of_answer (settings : Settings) {token fileKey : String} (h : token ≠ "")
    (hlink : Link.parse link = .ok ⟨some fileKey, none⟩) {start : Session}
    (answer : start.upcoming 0 = .replied ⟨200, .ok (.obj fields)⟩)
    (hfound : Json.find? "document" fields = some document) :
    (fetchLink settings link token none).runFrom start = (.ok document,
      start.record (.request ((Call.toFetch fileKey none).request (settings.client token)))) := by
  -- a good reply that is JSON ends the call at the first request
  have settled : ¬ (start.upcoming 0).Retryable := by
    rw [answer]
    rintro (h | h | ⟨-, h | h⟩)
    all_goals cases h
  -- the picking takes the document out of the answer
  have hpicked : picked fileKey none (.obj fields) = .ok document := by
    rw [picked, Json.member, Json.memberOr, hfound]
    rfl
  rw [runFrom_fetchLink_of_parse h hlink, Client.fetch_settled _ _ _ settled, answer]
  exact congrArg (·, _) hpicked

/-- **Rendering an object ends like converting a link for which it is the answer.** -/
theorem render_alike (settings : Settings) {token : String} (h : token ≠ "")
    (same : SameDesign settings.gap path output link fields document first second) :
    EndAlike ((render settings.gap path output []).runFrom first)
      ((Command.convert settings link output (some token)).runFrom second) := by
  obtain ⟨text, hfile, hread⟩ := same.file
  obtain ⟨fileKey, hlink⟩ := same.link
  have hfetch := fetchLink_of_answer settings h hlink same.answer same.found
  rw [runFrom_render hfile hread same.found, Command.convert]
  -- both handle refusals in the same way, so the documents are all that is left to compare
  refine EndAlike.announced ?_
  rw [runFrom_saveLinked_of_parse settings h hlink, hfetch]
  exact saveDocument_alike same.home same.written same.saves

end Rendering

/-! ### All ways in -/

/-- **The ways in agree**, when a token is given. On a command line every link is followed as the
service does, whatever comes of the requests and whatever the program is set up with. And for every
object with a document, the command line that renders it from a file ends like the one that converts a
link to it, whoever reads the command lines. -/
theorem entry_points_agree (settings : Settings) {token : String} (h : token ≠ "") :
    (∀ (link output : String) (report : Report), report.session.SparesLink →
      FollowsService settings link output token report)
    ∧ ∀ (reader : CommandReader) (renderLine convertLine : List String) (path output link : String)
        (fields : List (String × Json)) (document : Json) (first second : Report),
      reader renderLine = .ok (.render path output []) →
      reader convertLine = .ok (.convert link output (some token)) →
      SameDesign settings.gap path output link fields document first second →
      EndAlike ((runCommand reader settings renderLine).runFrom first)
        ((runCommand reader settings convertLine).runFrom second) := by
  refine ⟨fun link output report spared => followsService settings h link output spared, ?_⟩
  intro reader renderLine convertLine path output link fields document first second hrender hconvert
    same
  -- each command line is read as its command
  have hfirst : runCommand reader settings renderLine = render settings.gap path output [] := by
    rw [runCommand, hrender]
    rfl
  have hsecond : runCommand reader settings convertLine
      = Command.convert settings link output (some token) := by
    rw [runCommand, hconvert]
    rfl
  rw [hfirst, hsecond]
  exact render_alike settings h same

/-- A document with a name and nothing else. -/
def card : Json := .obj [("name", .str "Card")]

/-- An answer with that document, as a text. -/
def cardText : String := "\x7b\"document\": \x7b\"name\": \"Card\"\x7d\x7d"

/-- A directory with the answer in a file, and a remote side that gives the same answer. -/
def desk : Report where
  session := .fresh fun _ => .replied ⟨200, .ok (.obj [("document", card)])⟩
  storage := { home := ["desk"], files := [⟨["desk", "card.json"], some cardText⟩] }

/-- Nothing on the desk is in the way of the page of the card. -/
theorem desk_saves (page : Conversion) :
    ∃ after, desk.storage.Saves page "Card" "output" after := by
  -- the directories are below the desk, and neither is there yet
  have hsegments : Path.segments "output/Card" = ["output", "Card"] := by decide
  have houtput : Path.IsName "output" := by constructor <;> decide
  have hcard : Path.IsName "Card" := by constructor <;> decide
  have usableOutput : Storage.isUnusable "output" = false := by simp [Storage.isUnusable]
  have usableCard : Storage.isUnusable "Card" = false := by simp [Storage.isUnusable]
  have made : desk.storage.makeDirectories (PagePaths.of "Card" "output").directory
      = .ok { desk.storage with
          directories := [["desk", "output", "Card"], ["desk", "output"]] } := by
    have hpath : (PagePaths.of "Card" "output").directory = "output/Card" := by rfl
    rw [hpath, Storage.makeDirectories, hsegments,
      Storage.makeAlong_new houtput usableOutput (by decide) (by decide) rfl rfl,
      Storage.makeAlong_new hcard usableCard (by decide) (by decide) rfl rfl]
    rfl
  -- the text of the page is of no account for where the stylesheet goes
  have short : "Card.css".utf8ByteSize ≤ Storage.longestName := by decide
  exact ⟨_, _, _, made, Storage.write_new _ (by decide) (by decide) rfl,
    Storage.write_new _ (by decide) short rfl⟩

/-- The file on the desk and the answer are the same design. -/
theorem desk_sameDesign :
    SameDesign defaultGap "card.json" "output" "AbC123" [("document", card)] card desk desk where
  file := by
    have usable : Storage.isUnusable "card.json" = false := by simp [Storage.isUnusable]
    refine ⟨cardText, ?_, rfl⟩
    rw [Storage.entryAt, usable]
    rfl
  answer := rfl
  found := rfl
  link := ⟨"AbC123", Link.parse_of_isBareKey (by decide)⟩
  home := rfl
  written := rfl
  saves := by
    -- the only title of the card is its name
    rintro page title - ⟨name, hname, htitle⟩
    obtain rfl := Except.ok.inj hname
    obtain rfl : "Card" = title := Option.some.inj htitle
    exact ⟨desk_saves page, desk_saves page⟩

/-- The card: the service has a page for its key, the command line follows it, and rendering the
saved answer ends like converting the key. -/
theorem card_agrees : "secret" ≠ "" ∧ desk.session.SparesLink
    ∧ (∃ page, ((convertLink {} "AbC123" "secret" none).runFrom desk.session).1 = .ok page)
    ∧ FollowsService {} "AbC123" "output" "secret" desk
    ∧ SameDesign defaultGap "card.json" "output" "AbC123" [("document", card)] card desk desk
    ∧ EndAlike ((runCommand Invocation.ofArguments {} ["render", "card.json"]).runFrom desk)
      ((runCommand Invocation.ofArguments {}
        ["convert", "AbC123", "--token", "secret"]).runFrom desk) := by
  have given : "secret" ≠ "" := by decide
  have spared : desk.session.SparesLink := by
    rintro i fault ⟨⟩
  have converted :
      ∃ page, ((convertLink {} "AbC123" "secret" none).runFrom desk.session).1 = .ok page := by
    -- the card is converted, and the service fetches it
    have hpage : (convertDocument defaultGap card).toOption.isSome = true := by decide +kernel
    obtain ⟨fileKey, hlink⟩ := desk_sameDesign.link
    have hfetch := fetchLink_of_answer {} given hlink desk_sameDesign.answer desk_sameDesign.found
    rw [runFrom_convertLink, hfetch]
    exact exists_ok_of_isSome hpage
  obtain ⟨follows, alike⟩ := entry_points_agree {} given
  exact ⟨given, spared, converted, follows "AbC123" "output" desk spared, desk_sameDesign,
    alike Invocation.ofArguments ["render", "card.json"] ["convert", "AbC123", "--token", "secret"]
      "card.json" "output" "AbC123" [("document", card)] card desk desk rfl rfl desk_sameDesign⟩

end Mockup
