import Mockup.Proofs.Command.Steps
import Mockup.Proofs.Command.Storage

/-!
# A document on a command line

Two commands convert a document and write its page to files, and both do it by the same steps. This
module says what these come to: which title the page has, which faults there are before a file is
written, and what has happened when the files are.

* `Json.HasTitle` — the title of a document's page;
* `saveDocument_cases` — **what becomes of a document**, one case for each way in which it can go on;
* `runFrom_saveConversion`, `saveConversion_ends` — the writing of the files, when nothing is in the
  way, and what it leaves alone in any case;
* `runFrom_fileText`, `runFrom_render_of_unread`, `runFrom_render_of_text` — the way to a document
  that stands in a file.
-/

namespace Mockup

open Command

/-! ### Titles -/

/-- **The title of a page** by the name of its document. A name that does not count as given leaves
the standing title, and one that counts and is no text gives none. -/
def titleOf? (name : Json) : Option String :=
  if name.truthy then
    match name with
    | .str title => some title
    | _ => none
  else some FileName.fallback

/-- **A document has a title.** -/
def Json.HasTitle (document : Json) (title : String) : Prop :=
  ∃ name, document.member "name" = .ok name ∧ titleOf? name = some title

/-- A document has one title at most. -/
theorem Json.HasTitle.unique {document : Json} {first second : String}
    (h : document.HasTitle first) (h' : document.HasTitle second) : first = second := by
  obtain ⟨name, hname, hfirst⟩ := h
  obtain ⟨name', hname', hsecond⟩ := h'
  obtain rfl := Except.ok.inj (hname.symm.trans hname')
  exact Option.some.inj (hfirst.symm.trans hsecond)

/-- What is written on the page of a document is its title. -/
theorem titleOf?_eq_some_iff {name : Json} {title : String} :
    titleOf? name = some title
      ↔ (name.orElse (.str "")).orElse (.str FileName.fallback) = .str title := by
  unfold titleOf?
  cases given : name.truthy with
  | false =>
    -- neither the name nor the empty text in its place counts
    have hname : name.orElse (.str "") = .str "" := by rw [Json.orElse, given, if_neg (by decide)]
    have hempty : (Json.str "").orElse (.str FileName.fallback) = .str FileName.fallback :=
      if_neg (by decide)
    rw [if_neg (by decide), hname, hempty, Option.some_inj, Json.str.injEq]
  -- a name that counts is kept, and must be a text
  | true =>
    have hname (default : Json) : name.orElse default = name := by
      rw [Json.orElse, given, if_pos rfl]
    rw [if_pos rfl, hname, hname]
    cases name with
    | str text => rw [Option.some_inj, Json.str.injEq]
    | _ => exact ⟨nofun, nofun⟩

/-- A name that is `null` or empty leaves the standing title, and any other text is a title. -/
example : titleOf? .null = some "figma_design" ∧ titleOf? (.str "") = some "figma_design"
    ∧ titleOf? (.str "Card") = some "Card" := ⟨rfl, rfl, rfl⟩

/-- The name of a node is the one that its value gives. -/
theorem Traits.name_of_ofJson {j name : Json} (h : j.member "name" = .ok name) :
    Ensures (Traits.ofJson j) fun t => t.name = name.orElse (.str "") := by
  refine Ensures.andThen fun id => ?_
  refine Ensures.bind (P := fun given => given = name) ?_ ?_
  · rw [h]
    exact .ok rfl
  rintro _ rfl
  -- what follows says nothing of the name
  repeat refine Ensures.andThen fun _ => ?_
  exact .ok rfl

/-- The name of a tree is that of its document. -/
theorem Node.name_of_ofJson {document : Json} {root : Node} (h : Node.ofJson document = .ok root) :
    ∃ name, document.member "name" = .ok name ∧ root.name = name.orElse (.str "") := by
  cases document with
  | obj fields =>
    rw [Node.ofJson] at h
    obtain ⟨children, -, h⟩ := bind_eq_ok h
    obtain ⟨traits, htraits, h⟩ := bind_eq_ok h
    obtain rfl := Except.ok.inj h
    exact ⟨_, rfl, Traits.name_of_ofJson rfl traits htraits⟩
  | _ => cases h

/-! ### Documents on a command line -/

/-- A page whose document has a name that is no title is not written. -/
theorem runFrom_saveConversion_of_untitled {name : Json} (h : titleOf? name = none)
    (page : Conversion) (output : String) (report : Report) :
    (saveConversion page ((name.orElse (.str "")).orElse (.str FileName.fallback)) output).runFrom report
      = (.error (.fault .wrongKind), report) := by
  cases hgiven : (name.orElse (.str "")).orElse (.str FileName.fallback) with
  | str title =>
    -- a text would be a title
    cases h.symm.trans (titleOf?_eq_some_iff.mpr hgiven)
  | _ => rfl

/-- **What becomes of a document on a command line.** It is not converted; or it is, and has no
title; or the files of its page are written. Until then nothing happens to the report. -/
theorem saveDocument_cases (gap : Int) (document : Json) (output : String) :
    (∃ fault, convertDocument gap document = .error fault
      ∧ ∀ report, (saveDocument gap document output).runFrom report = (.error (.fault fault), report))
    ∨ (∃ page, convertDocument gap document = .ok page
      ∧ (∀ title, ¬ document.HasTitle title)
      ∧ ∀ report, (saveDocument gap document output).runFrom report
        = (.error (.fault .wrongKind), report))
    ∨ ∃ page title, convertDocument gap document = .ok page ∧ document.HasTitle title
      ∧ ∀ report, (saveDocument gap document output).runFrom report
        = (saveConversion page (.str title) output).runFrom report := by
  rw [convertDocument]
  -- the document is no node
  cases hread : Node.ofJson document with
  | error fault =>
    refine .inl ⟨fault, rfl, fun report => ?_⟩
    rw [saveDocument, runFrom_ofResult_bind, hread]
  | ok root =>
    -- from here on the command does what the conversion does, and the name is the document's
    obtain ⟨name, hname, hroot⟩ := Node.name_of_ofJson hread
    have run (report : Report) : (saveDocument gap document output).runFrom report
        = (ofResult (Mockup.convert gap root) >>= fun page =>
            saveConversion page (root.name.orElse (.str FileName.fallback)) output).runFrom report := by
      rw [saveDocument, runFrom_ofResult_bind, hread]
    change (∃ fault, Mockup.convert gap root = .error fault ∧ _)
      ∨ (∃ page, Mockup.convert gap root = .ok page ∧ _)
      ∨ ∃ page title, Mockup.convert gap root = .ok page ∧ _
    -- its tree does not convert
    cases hpage : Mockup.convert gap root with
    | error fault =>
      refine .inl ⟨fault, rfl, fun report => ?_⟩
      rw [run, runFrom_ofResult_bind, hpage]
    | ok page =>
      rw [hroot] at run
      -- the name is a text or empty
      cases htitle : titleOf? name with
      | some title =>
        refine .inr (.inr ⟨page, title, rfl, ⟨name, hname, htitle⟩, fun report => ?_⟩)
        rw [run, runFrom_ofResult_bind, hpage, titleOf?_eq_some_iff.mp htitle]
      -- or it is neither, and the page has no title
      | none =>
        have untitled : ∀ title, ¬ document.HasTitle title := by
          rintro title ⟨name', hname', htitle'⟩
          obtain rfl := Except.ok.inj (hname.symm.trans hname')
          cases htitle.symm.trans htitle'
        refine .inr (.inl ⟨page, rfl, untitled, fun report => ?_⟩)
        rw [run, runFrom_ofResult_bind, hpage]
        dsimp only
        rw [runFrom_saveConversion_of_untitled htitle]

/-- **Writing the files of a page** when nothing keeps them from being written. -/
theorem runFrom_saveConversion {report : Report} {page : Conversion} {title output : String}
    {after : Storage} (h : report.storage.Saves page title output after) :
    (saveConversion page (.str title) output).runFrom report
      = (.ok (PagePaths.of title output).directory, { report with
          storage := after
          messages := report.messages ++ [(.info, "HTML: " ++ (PagePaths.of title output).html)]
            ++ [(.info, "CSS: " ++ (PagePaths.of title output).css)] }) := by
  -- the directory is made, the page written, the stylesheet written, and both are announced
  obtain ⟨made, half, hmade, hhtml, hcss⟩ := h
  rw [saveConversion, runFrom_store_bind, hmade]
  dsimp only
  rw [runFrom_store_bind, hhtml]
  dsimp only
  rw [runFrom_store_bind, hcss]
  dsimp only
  rw [runFrom_log_bind, runFrom_log_bind, runFrom_pure]

/-- **Frame.** Writing the files of a page asks for nothing and is no error of usage, also when a
file cannot be written. -/
theorem saveConversion_ends (page : Conversion) (title output : String) (report : Report) :
    ∃ (ended : Result String) (storage : Storage) (messages : List (Level × String)),
      (saveConversion page (.str title) output).runFrom report
        = (ended.mapError .fault, { report with storage, messages }) := by
  -- each of the three steps may fail, and then the others are not taken
  rw [saveConversion, runFrom_store_bind]
  cases report.storage.makeDirectories (PagePaths.of title output).directory with
  | error fault => exact ⟨.error fault, _, _, rfl⟩
  | ok made =>
    dsimp only
    rw [runFrom_store_bind]
    dsimp only
    cases made.write (PagePaths.of title output).html _ with
    | error fault => exact ⟨.error fault, _, _, rfl⟩
    | ok half =>
      dsimp only
      rw [runFrom_store_bind]
      dsimp only
      cases half.write (PagePaths.of title output).css page.css with
      | error fault => exact ⟨.error fault, _, _, rfl⟩
      | ok after => exact ⟨.ok _, _, _, rfl⟩

/-! ### Documents in files -/

section Rendering

variable {gap : Int} {output : String} {report : Report}

/-- The text of a file: it is there, or the command line is wrong, or the path is. -/
theorem runFrom_fileText (path : String) (report : Report) : (fileText path).runFrom report
    = match report.storage.entryAt path with
      | .ok (.file text) => (.ok text, report)
      | .ok .directory => (.error (.usage (.directoryGiven "JSON_FILE" path)), report)
      | .ok .absent => (.error (.usage (.absentFile "JSON_FILE" path)), report)
      | .error fault => (.error (.fault fault), report) := by
  rw [fileText, runFrom_get_bind, runFrom_ofResult_bind]
  rcases report.storage.entryAt path with fault | (text | _ | _)
  · rfl
  · rfl
  · rfl
  · rfl

/-- Rendering ends at once where there is no text to read or a further argument is given. -/
theorem runFrom_render_of_unread {path : String} {extra : List String} (output : String)
    (unread : ∀ text, report.storage.entryAt path = .ok (.file (some text)) → extra ≠ []) :
    ∃ stop, (render gap path output extra).runFrom report = (.error stop, report)
      ∧ exitCode (.error stop) ≠ 0 := by
  rw [render, runFrom_bind, runFrom_fileText]
  -- what is found at the path
  rcases hentry : report.storage.entryAt path with fault | (text | _ | _)
  · exact ⟨_, rfl, Nat.one_ne_zero⟩
  -- a file, which is read unless there are arguments too many
  · cases extra with
    | cons argument rest => exact ⟨_, rfl, Nat.succ_ne_zero 1⟩
    | nil =>
      cases text with
      | none => exact ⟨_, rfl, Nat.one_ne_zero⟩
      | some text => exact absurd rfl (unread text hentry)
  · exact ⟨_, rfl, Nat.succ_ne_zero 1⟩
  · exact ⟨_, rfl, Nat.succ_ne_zero 1⟩

/-- Rendering a file that is text, without further arguments, is what comes of its text. -/
theorem runFrom_render_of_text {path text : String}
    (hentry : report.storage.entryAt path = .ok (.file (some text))) :
    (render gap path output []).runFrom report = match Json.read text with
      | .error .malformed => (fail "JSON 파싱 실패").runFrom report
      | .error .tooManyDigits => (.error (.fault .badValue), report)
      | .error .undecodable | .error .loneHalf => (.error (.fault .undecodable), report)
      | .ok value =>
        (handlingRefusals do
          announce (← saveDocument gap (documentIn value) output)).runFrom report := by
  -- no argument is left over
  have hextra : noExtra [] = .ok () := rfl
  rw [render, runFrom_bind, runFrom_fileText, hentry]
  dsimp only
  rw [hextra]
  dsimp only
  rw [runFrom_ofResult_bind]
  dsimp only [orFault]
  -- each way of reading the text is one branch of the command
  rcases Json.read text with (_ | _ | _ | _) | value
  · rfl
  · rfl
  · rfl
  · rfl
  · rfl

end Rendering

end Mockup
