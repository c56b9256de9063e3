import Mockup.Proofs.Command.Agreement

/-!
# Both files of a page or none

Two commands write the page of a document and its stylesheet. Each of them has many ways to fail
before that: the link, the token, the requests, the answer, the file, the document, the conversion
and the title. This module says that all of them come before the first file is written, so a command
that fails leaves no file behind, and one that does not fail leaves two.

* `Invocation.LeadsTo`, `Invocation.Yields` — the document, the page and the title that a command
  arrives at, if it does;
* `Invocation.CanStore` — nothing keeps the files of that page from being written;
* `Invocation.EndsIn` — **how a command ends that writes a page**: both files are written, or the
  command is interrupted before the first of them;
* `saveDocument_ends`, `saveLinked_ends`, `render_ends` — one command after the other ends so;
* `runCommand_writes_both_or_none` — **every command line that asks for a page.**

That the files can be written is asked of the page and the title that a command arrives at, and of
no others: some titles are too long for the name of a file.
-/

namespace Mockup

open Command

/-! ### What a command arrives at -/

namespace Invocation

/-- The directory that an invocation writes a page to, if it asks for one. -/
def output? : Invocation → Option String
  | .convert _ output _ => some output
  | .render _ output _ => some output
  | .help | .info _ => none

/-- **The document that an invocation leads to**, from a report: what the remote side has for a
link, or what stands in a file. -/
inductive LeadsTo (settings : Settings) (report : Report) : Invocation → Json → Prop
  | convert {link output fileKey : String} {token nodeId : Option String} {client : Client}
      {document : Json} (parsed : Link.parse link = .ok ⟨some fileKey, nodeId⟩)
      (made : Client.make settings token = .ok client)
      (fetched : ((fetch client fileKey nodeId).runFrom report.session).1 = .ok document) :
      LeadsTo settings report (.convert link output token) document
  | render {path output text : String} {value : Json}
      (file : report.storage.entryAt path = .ok (.file (some text)))
      (decoded : Json.read text = .ok value) :
      LeadsTo settings report (.render path output []) (documentIn value)

/-- **The page and the title that an invocation yields**: those of the document that it leads to. -/
def Yields (invocation : Invocation) (settings : Settings) (report : Report) (page : Conversion)
    (title : String) : Prop :=
  ∃ document, invocation.LeadsTo settings report document
    ∧ convertDocument settings.gap document = .ok page ∧ document.HasTitle title

/-- **The files can be written**: the directory of the page that an invocation yields can be made,
and both files in it. -/
def CanStore (invocation : Invocation) (settings : Settings) (report : Report) (output : String) :
    Prop :=
  ∀ page title, invocation.Yields settings report page title →
    ∃ after, report.storage.Saves page title output after

/-- **How a command ends that writes a page.** Both files are written; or there is no page to write,
the command is interrupted with an exit code that tells so, and the storage is as it was. -/
inductive EndsIn {α : Type} (invocation : Invocation) (settings : Settings) (report : Report)
    (output : String) : Except Interruption α × Report → Prop
  | saved {a : α} {after : Report} {page : Conversion} {title : String}
      (yields : invocation.Yields settings report page title)
      (saves : report.storage.Saves page title output after.storage) :
      EndsIn invocation settings report output (.ok a, after)
  | stopped {stop : Interruption} {after : Report}
      (nothing : ∀ page title, ¬ invocation.Yields settings report page title)
      (failed : exitCode (.error stop) ≠ 0) (same : after.storage = report.storage) :
      EndsIn invocation settings report output (.error stop, after)

variable {settings : Settings} {invocation : Invocation} {report : Report} {document : Json}

/-- An invocation leads to one document at most. -/
theorem LeadsTo.unique {other : Json} (h : invocation.LeadsTo settings report document)
    (h' : invocation.LeadsTo settings report other) : document = other := by
  cases h with
  | convert parsed made fetched =>
    obtain ⟨parsed', made', fetched'⟩ := h'
    cases parsed.symm.trans parsed'
    obtain rfl := Except.ok.inj (made.symm.trans made')
    exact Except.ok.inj (fetched.symm.trans fetched')
  | render file decoded =>
    obtain ⟨⟩ | ⟨file', decoded'⟩ := h'
    cases file.symm.trans file'
    obtain rfl := Except.ok.inj (decoded.symm.trans decoded')
    rfl

/-- What an invocation yields is what its document does. -/
theorem LeadsTo.yields_iff (h : invocation.LeadsTo settings report document) {page : Conversion}
    {title : String} : invocation.Yields settings report page title
      ↔ convertDocument settings.gap document = .ok page ∧ document.HasTitle title := by
  constructor
  · rintro ⟨other, leads, yields⟩
    rwa [h.unique leads]
  · exact fun yields => ⟨document, h, yields⟩

namespace EndsIn

variable {α : Type} {output : String}

/-- A command that is interrupted before there is a document. -/
theorem of_no_document {stop : Interruption} {after : Report}
    (nothing : ∀ document, ¬ invocation.LeadsTo settings report document)
    (failed : exitCode (.error stop) ≠ 0) (same : after.storage = report.storage) :
    EndsIn (α := α) invocation settings report output (.error stop, after) :=
  .stopped (fun _ _ ⟨document, leads, _⟩ => nothing document leads) failed same

/-- A command that ends so still does when the page is announced and refusals are handled. -/
theorem announced {command : Command String} {start : Report}
    (h : EndsIn invocation settings report output (command.runFrom start)) :
    EndsIn invocation settings report output
      ((handlingRefusals do announce (← command)).runFrom start) := by
  rw [runFrom_handlingRefusals, runFrom_bind]
  generalize command.runFrom start = ended at h
  cases h with
  -- what is written stays written
  | saved yields saves => exact .saved yields saves
  | @stopped stop after nothing failed same =>
    -- a refusal is told and ends the command with an exit code of its own
    cases stop with
    | usage error => exact .stopped nothing failed same
    | exit code => exact .stopped nothing failed same
    | fault fault =>
      cases fault with
      | refused refusal => exact .stopped nothing Nat.one_ne_zero same
      | _ => exact .stopped nothing failed same

end EndsIn

end Invocation

/-! ### The commands -/

section Commands

variable {settings : Settings} {output : String} {report : Report}

/-- **A document ends with both files or none.** -/
theorem saveDocument_ends {invocation : Invocation} {document : Json} {start : Report}
    (leads : invocation.LeadsTo settings report document) (same : start.storage = report.storage)
    (stored : invocation.CanStore settings report output) :
    invocation.EndsIn settings report output
      ((saveDocument settings.gap document output).runFrom start) := by
  rcases saveDocument_cases settings.gap document output with ⟨fault, hfault, run⟩
    | ⟨page, hpage, untitled, run⟩ | ⟨page, title, hpage, titled, run⟩
  · -- the document is not converted
    rw [run]
    refine .stopped (fun page title yields => ?_) Nat.one_ne_zero same
    cases hfault.symm.trans (leads.yields_iff.mp yields).1
  · -- the page has no title
    rw [run]
    refine .stopped (fun page title yields => ?_) Nat.one_ne_zero same
    exact untitled title (leads.yields_iff.mp yields).2
  -- the page has a title, and the directory takes the files
  · have yields := leads.yields_iff.mpr ⟨hpage, titled⟩
    obtain ⟨after, saves⟩ := stored page title yields
    rw [run, runFrom_saveConversion (same ▸ saves)]
    exact .saved yields saves

/-- **A link ends with both files or none**, whatever the remote side does. -/
theorem saveLinked_ends {link : String} {token : Option String}
    (stored : (Invocation.convert link output token).CanStore settings report output) :
    (Invocation.convert link output token).EndsIn settings report output
      ((saveLinked settings link output token).runFrom report) := by
  -- up to the document there is a message, and the link, the client and the answer one by one
  rw [saveLinked, runFrom_log_bind, runFrom_ofResult_bind]
  -- the link is not read
  cases hparse : Link.parse link with
  | error fault =>
    refine .of_no_document ?_ Nat.one_ne_zero rfl
    rintro document ⟨parsed, -, -⟩
    cases hparse.symm.trans parsed
  | ok target =>
    obtain ⟨_ | fileKey, nodeId⟩ := target
    -- the link names no file
    · refine .of_no_document ?_ (Nat.succ_ne_zero 1) rfl
      rintro document ⟨parsed, -, -⟩
      cases hparse.symm.trans parsed
    dsimp only
    rw [runFrom_ofResult_bind]
    -- there is no token
    cases hmake : Client.make settings token with
    | error fault =>
      refine .of_no_document ?_ Nat.one_ne_zero rfl
      rintro document ⟨-, made, -⟩
      cases hmake.symm.trans made
    | ok client =>
      dsimp only
      rw [runFrom_exchange_bind, runFrom_ofResult_bind]
      dsimp only
      -- the document is not fetched
      rcases hfetch : (fetch client fileKey nodeId).runFrom report.session with
        ⟨fault | document, session⟩
      · refine .of_no_document ?_ Nat.one_ne_zero rfl
        rintro document ⟨parsed, made, fetched⟩
        cases hparse.symm.trans parsed
        obtain rfl := Except.ok.inj (hmake.symm.trans made)
        rw [hfetch] at fetched
        cases fetched
      · -- the document is there, and nothing has been written
        dsimp only
        rw [runFrom_log_bind]
        exact saveDocument_ends (.convert hparse hmake (by rw [hfetch])) rfl stored

/-- A file that is text ends with both files or none. -/
theorem render_text_ends {path text : String}
    (hentry : report.storage.entryAt path = .ok (.file (some text)))
    (stored : (Invocation.render path output []).CanStore settings report output) :
    (Invocation.render path output []).EndsIn settings report output
      ((render settings.gap path output []).runFrom report) := by
  rw [runFrom_render_of_text hentry]
  -- the text is no JSON, so it leads to no document
  cases hread : Json.read text with
  | error problem =>
    have undecoded (document : Json) :
        ¬ (Invocation.render path output []).LeadsTo settings report document := by
      rintro (⟨⟩ | ⟨file, decoded⟩)
      cases hentry.symm.trans file
      cases hread.symm.trans decoded
    cases problem with
    | malformed => exact .of_no_document undecoded Nat.one_ne_zero rfl
    | tooManyDigits => exact .of_no_document undecoded Nat.one_ne_zero rfl
    | undecodable => exact .of_no_document undecoded Nat.one_ne_zero rfl
    | loneHalf => exact .of_no_document undecoded Nat.one_ne_zero rfl
  | ok value => exact .announced (saveDocument_ends (.render hentry hread) rfl stored)

/-- **A file ends with both files or none**, whatever its content is. -/
theorem render_ends {path : String} {extra : List String}
    (stored : (Invocation.render path output extra).CanStore settings report output) :
    (Invocation.render path output extra).EndsIn settings report output
      ((render settings.gap path output extra).runFrom report) := by
  -- the file has no text, or the command line goes on
  by_cases unread : ∀ text, report.storage.entryAt path = .ok (.file (some text)) → extra ≠ []
  · obtain ⟨stop, run, failed⟩ := runFrom_render_of_unread output unread
    rw [run]
    refine .of_no_document ?_ failed rfl
    rintro document (⟨⟩ | ⟨file, -⟩)
    exact unread _ file rfl
  -- the file is read and nothing is left over
  · obtain ⟨text, h⟩ := not_forall.mp unread
    obtain ⟨hentry, hextra⟩ := Classical.not_imp.mp h
    obtain rfl := not_not.mp hextra
    exact render_text_ends hentry stored

/-- **An invocation that asks for a page ends with both files or none.** -/
theorem ofInvocation_ends {invocation : Invocation} (asked : invocation.output? = some output)
    (stored : invocation.CanStore settings report output) :
    invocation.EndsIn settings report output ((ofInvocation settings invocation).runFrom report) := by
  cases invocation with
  | help => cases asked
  | info link => cases asked
  | convert link output token =>
    obtain rfl := Option.some.inj asked
    exact .announced (saveLinked_ends stored)
  | render path output extra =>
    obtain rfl := Option.some.inj asked
    exact render_ends stored

end Commands

/-- The record of a page that is written where nothing was before. -/
theorem Storage.Saves.written_of_fresh {storage after : Storage} {page : Conversion}
    {title output : String} (h : storage.Saves page title output after)
    (fresh : storage.written = []) :
    after.written =
      [⟨storage.place (PagePaths.of title output).html,
          some (completePage page.html (stylesheetName title) title)⟩,
        ⟨storage.place (PagePaths.of title output).css, some page.css⟩] := by
  have different := (Storage.place_css_ne_html storage title output).symm
  rw [h.written_eq, fresh, Storage.overwrite, Storage.overwrite, List.filter_nil, List.nil_append,
    List.filter_cons_of_pos (by simpa using different), List.filter_nil, List.singleton_append]

/-- **A command line that asks for a page writes both of its files or none**, whatever is in the
files and whatever the remote side does. Either the exit code is zero, and the two files that are
written are those of one name in a directory of that name below the one that was chosen, with the
page and the stylesheet that the command arrives at. Or the exit code is not zero, the command line
is wrong or arrives at no page, and no file is written. -/
theorem runCommand_writes_both_or_none {reader : CommandReader} {settings : Settings}
    {arguments : List String} {report : Report}
    (asked : ∀ invocation, reader arguments = .ok invocation →
      invocation.output?.isSome = true)
    (fresh : report.storage.written = [])
    (stored : ∀ invocation output, reader arguments = .ok invocation →
      invocation.output? = some output → invocation.CanStore settings report output) :
    (exitCode ((runCommand reader settings arguments).runFrom report).1 = 0
      ∧ ∃ invocation output page title name,
        reader arguments = .ok invocation ∧ invocation.output? = some output
        ∧ invocation.Yields settings report page title ∧ name = FileName.ofTitle title
        ∧ report.storage.place (Path.join (Path.join output name) (name ++ ".html"))
          ≠ report.storage.place (Path.join (Path.join output name) (name ++ ".css"))
        ∧ ((runCommand reader settings arguments).runFrom report).2.storage.written =
          [⟨report.storage.place (Path.join (Path.join output name) (name ++ ".html")),
              some (completePage page.html (name ++ ".css") title)⟩,
            ⟨report.storage.place (Path.join (Path.join output name) (name ++ ".css")),
              some page.css⟩])
    ∨ (exitCode ((runCommand reader settings arguments).runFrom report).1 ≠ 0
      ∧ (∀ invocation, reader arguments = .ok invocation →
          ∀ page title, ¬ invocation.Yields settings report page title)
      ∧ ((runCommand reader settings arguments).runFrom report).2.storage.written = []) := by
  rw [runCommand]
  cases hline : reader arguments with
  | error error =>
    -- the command line is wrong
    exact .inr ⟨Nat.succ_ne_zero 1, by rintro _ ⟨⟩, fresh⟩
  | ok invocation =>
    -- the invocation has a directory, since it was asked for one
    obtain ⟨output, houtput⟩ := Option.isSome_iff_exists.mp (asked invocation hline)
    have ends := ofInvocation_ends houtput (stored invocation output hline houtput)
    dsimp only
    generalize (ofInvocation settings invocation).runFrom report = ended at ends ⊢
    -- the command has saved a page, or it has stopped before that
    cases ends with
    | @saved _ after page title yields saves =>
      -- the record holds the two files, at places that differ
      have hwritten := saves.written_of_fresh fresh
      have hplaces := (Storage.place_css_ne_html report.storage title output).symm
      rw [PagePaths.of_html, PagePaths.of_css] at hwritten hplaces
      rw [PagePaths.of_directory] at hwritten hplaces
      exact .inl ⟨rfl, invocation, output, page, title, FileName.ofTitle title, rfl, houtput,
        yields, rfl, hplaces, hwritten⟩
    | @stopped stop after nothing failed same =>
      refine .inr ⟨failed, ?_, ?_⟩
      · rintro _ ⟨⟩
        exact nothing
      · rw [same, fresh]

/-- The command line that renders the answer on the desk. -/
def cardLine : Invocation := .render "card.json" "output" []

theorem cardLine_leadsTo : cardLine.LeadsTo {} desk card := by
  obtain ⟨text, file, decoded⟩ := desk_sameDesign.file
  exact .render file decoded

/-- What it yields has the name of the card, and nothing keeps it from being written. -/
theorem title_of_cardLine {page : Conversion} {title : String}
    (h : cardLine.Yields {} desk page title) : title = "Card" := by
  obtain ⟨name, hname, htitle⟩ := (cardLine_leadsTo.yields_iff.mp h).2
  obtain rfl := Except.ok.inj hname
  exact (Option.some.inj htitle).symm

/-- Rendering the answer on the desk writes the two files of the card. -/
theorem cardLine_writes_both :
    exitCode ((runCommand Invocation.ofArguments {} ["render", "card.json"]).runFrom desk).1 = 0
      ∧ ((runCommand Invocation.ofArguments {} ["render", "card.json"]).runFrom
          desk).2.storage.written.map StoredFile.place
        = [["desk", "output", "Card", "Card.html"], ["desk", "output", "Card", "Card.css"]] := by
  -- the line is read, and the desk can take the files
  have hline : Invocation.ofArguments ["render", "card.json"] = .ok cardLine := rfl
  have asked : ∀ invocation, Invocation.ofArguments ["render", "card.json"] = .ok invocation →
      invocation.output?.isSome = true := by
    intro invocation h
    obtain rfl := Except.ok.inj (hline.symm.trans h)
    rfl
  have stored : ∀ invocation output,
      Invocation.ofArguments ["render", "card.json"] = .ok invocation →
      invocation.output? = some output → invocation.CanStore {} desk output := by
    intro invocation output h houtput page title yields
    obtain rfl := Except.ok.inj (hline.symm.trans h)
    obtain rfl : "output" = output := Option.some.inj houtput
    rw [title_of_cardLine yields]
    exact desk_saves page
  rcases runCommand_writes_both_or_none asked rfl stored with ⟨hcode, written⟩ | ⟨-, nothing, -⟩
  -- the two places are those below the directory of the card
  · obtain ⟨invocation, output, page, title, name, h, houtput, yields, rfl, -, hwritten⟩ := written
    obtain rfl := Except.ok.inj (hline.symm.trans h)
    obtain rfl : "output" = output := Option.some.inj houtput
    obtain rfl := title_of_cardLine yields
    refine ⟨hcode, ?_⟩
    rw [hwritten]
    rfl
  · -- the card is converted, so there is a page to write
    obtain ⟨page, hpage⟩ := exists_ok_of_isSome
      (show (convertDocument defaultGap card).toOption.isSome = true by decide +kernel)
    have titled : card.HasTitle "Card" := ⟨.str "Card", rfl, rfl⟩
    have yields : cardLine.Yields {} desk page "Card" :=
      cardLine_leadsTo.yields_iff.mpr ⟨hpage, titled⟩
    exact absurd yields (nothing cardLine hline page "Card")

end Mockup
