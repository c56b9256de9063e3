import Mockup.Page.File
import Mockup.Proofs.Text.Search
import Mockup.Proofs.Text.Tag
import Mockup.Proofs.Text.Unescape

/-!
# The page around a body

A page is the same for every document but for three places: the title, the address of the stylesheet
and the body. This module names what stands between them and says what a reader finds who looks for
one of the three: the first mark of each is that of the page, since neither a title nor an address
has a bracket or a quote when it is written.

* `Template.toList_completePage` — **a page in pieces**;
* `Template.stylesheetHref?` — the address of the first stylesheet of a page;
* `Template.stylesheetHref?_completePage` — **it is the one that was written**, whatever the title and
  the body are;
* `Template.titleOf?`, `Template.bodyOf?` — the title and the body that a reader finds;
* `Template.headTags`, `Template.tagsOf_completePage` — **the tags of a page**: its own, in which only
  the address differs from page to page, and those of the body;
* `Template.completePage_unambiguous` — **a page has its three parts**, and determines them.
-/

namespace Mockup

open Text

namespace Template

/-! ### Pieces -/

/-- What stands before the title. -/
def opening : List Char :=
  "<!DOCTYPE html>\n<html lang=\"en\">\n<head>\n    <meta charset=\"UTF-8\">\n".toList
    ++ "    <meta name=\"viewport\" content=\"width=device-width, initial-scale=1.0\">\n    <title>".toList

/-- What stands between the title and the link to the stylesheet. -/
def titleEnd : List Char := "</title>\n    ".toList

/-- What announces the address of a stylesheet. -/
def linkOpening : List Char := "<link rel=\"stylesheet\" href=\"".toList

/-- What stands between the address and the body. -/
def linkEnd : List Char := "\">\n</head>\n<body>\n".toList

/-- What stands after the body. -/
def closing : List Char := "\n</body>\n</html>".toList

/-- **A page in pieces.** -/
theorem toList_completePage (body stylesheet title : String) :
    (completePage body stylesheet title).toList =
      opening ++ ((escapeAttribute title).toList ++ (titleEnd ++ (linkOpening
        ++ ((escapeAttribute stylesheet).toList ++ (linkEnd ++ (body.toList ++ closing)))))) := by
  -- each piece, by the lines that the page is made of
  have hopening : opening = "<!DOCTYPE html>".toList ++ ("\n".toList
      ++ ("<html lang=\"en\">".toList ++ ("\n".toList ++ ("<head>".toList ++ ("\n".toList
      ++ ("    <meta charset=\"UTF-8\">".toList ++ ("\n".toList
      ++ ("    <meta name=\"viewport\" content=\"width=device-width, initial-scale=1.0\">".toList
      ++ ("\n".toList ++ "    <title>".toList))))))))) := by decide +kernel
  have hlink : titleEnd ++ linkOpening = "</title>".toList ++ ("\n".toList
      ++ "    <link rel=\"stylesheet\" href=\"".toList) := by decide +kernel
  have hlinkEnd : linkEnd = "\">".toList ++ ("\n".toList ++ ("</head>".toList ++ ("\n".toList
      ++ ("<body>".toList ++ "\n".toList)))) := by decide +kernel
  have hclosing : closing = "\n".toList ++ ("</body>".toList ++ ("\n".toList
      ++ "</html>".toList)) := by decide +kernel
  -- the pieces are the lines joined with line ends
  rw [completePage, ← List.append_assoc titleEnd, hopening, hlink, hlinkEnd, hclosing]
  generalize escapeAttribute title = writtenTitle
  generalize escapeAttribute stylesheet = writtenStylesheet
  simp only [String.toList_intercalate, String.toList_append, List.map_cons, List.map_nil,
    List.intercalate_cons_cons, List.intercalate_singleton, List.append_assoc]

/-! ### The address of the stylesheet -/

/-- **The address of the first stylesheet of a page**, as it is written: it ends at a quote. -/
def stylesheetHref? (page : List Char) : Option (List Char) :=
  (afterFirst? linkOpening page).map (·.takeWhile (· ≠ '"'))

theorem skipped_opening : Skipped linkOpening opening := by decide +kernel

theorem skipped_titleEnd : Skipped linkOpening titleEnd := by decide +kernel

/-- No title begins a tag. -/
theorem skipped_title {mark : List Char} (h : mark.head? = some '<') (title : String) :
    Skipped mark (escapeAttribute title).toList := by
  obtain ⟨more, rfl⟩ := List.head?_eq_some_iff.mp h
  exact skipped_of_notMem (notMem_escapeAttribute (by decide) title) more

/-- **A reader finds the address that was written**, whatever the title and the body are. -/
theorem stylesheetHref?_completePage (body stylesheet title : String) :
    stylesheetHref? (completePage body stylesheet title).toList
      = some (escapeAttribute stylesheet).toList := by
  have quote : '"' ∉ (escapeAttribute stylesheet).toList := notMem_escapeAttribute (by decide) stylesheet
  have plain : ∀ c ∈ (escapeAttribute stylesheet).toList, (c ≠ '"' : Bool) = true := fun c hc =>
    decide_eq_true fun same => quote (same ▸ hc)
  have hquote : linkEnd = '"' :: linkEnd.tail := by decide +kernel
  rw [stylesheetHref?, toList_completePage, afterFirst?_of_skipped skipped_opening,
    afterFirst?_of_skipped (skipped_title (by decide) title), afterFirst?_of_skipped skipped_titleEnd,
    afterFirst?_mark_append, Option.map_some, List.takeWhile_append_of_pos plain, hquote,
    List.cons_append, List.takeWhile_cons_of_neg (by decide), List.append_nil]

/-! ### The title -/

/-- **The title of a page**, as it is written: it ends with the first end tag of a title. -/
def titleOf? (page : List Char) : Option (List Char) :=
  between? "<title>".toList "</title>".toList page

/-- The title begins where the first tag of a title ends. -/
theorem opening_eq_append : ∃ before, opening = before ++ "<title>".toList
    ∧ Skipped "<title>".toList before :=
  ⟨opening.take (opening.length - 7), by decide +kernel⟩

/-- **A reader finds the title that was written**, whatever the address and the body are. -/
theorem titleOf?_completePage (body stylesheet title : String) :
    titleOf? (completePage body stylesheet title).toList = some (escapeAttribute title).toList := by
  -- neither the opening nor the title has the end of a title in it
  have hopening : Skipped "</title>".toList opening := by decide +kernel
  have htitleEnd : titleEnd = "</title>".toList ++ "\n    ".toList := by decide
  obtain ⟨before, hbefore, hskipped⟩ := opening_eq_append
  rw [titleOf?, toList_completePage, htitleEnd, List.append_assoc]
  generalize "\n    ".toList ++ _ = tail
  -- so the first end of a title is that after it
  have hclosing : afterFirst? "</title>".toList
      (opening ++ ((escapeAttribute title).toList ++ ("</title>".toList ++ tail))) = some tail := by
    rw [afterFirst?_of_skipped hopening, afterFirst?_of_skipped (skipped_title (by decide) title),
      afterFirst?_mark_append]
  refine between?_of_afterFirst? ?_ hclosing
  rw [hbefore, List.append_assoc, afterFirst?_of_skipped hskipped, afterFirst?_mark_append]

/-! ### The body -/

/-- The line that opens the body. -/
def bodyLine : List Char := "\n<body>\n".toList

/-- **The body of a page**: what stands between the first line that opens a body and the last lines. -/
def bodyOf? (page : List Char) : Option (List Char) := (afterFirst? bodyLine page).bind (before? closing)

/-- No line that opens a body begins in what is written for a text, nor in what comes after it there:
the line goes on with a bracket. -/
theorem skipped_bodyLine (text : String) (next : List Char)
    (hclash : Clashes bodyLine.tail next) (hnext : Skipped bodyLine next) :
    Skipped bodyLine ((escapeAttribute text).toList ++ next) := by
  have hline : bodyLine = '\n' :: '<' :: "body>\n".toList := by decide
  rw [hline] at hclash hnext ⊢
  exact skipped_append_of_notMem (notMem_escapeAttribute (by decide) text) hclash hnext

/-- **A reader finds the body**, whatever the title and the address are. -/
theorem bodyOf?_completePage (body stylesheet title : String) :
    bodyOf? (completePage body stylesheet title).toList = some body.toList := by
  -- the body begins after the first line that says so, which none of the pieces before it has
  have hopening : Skipped bodyLine opening := by decide +kernel
  have htitle := skipped_bodyLine title titleEnd (by decide) (by decide +kernel)
  have hlink : Skipped bodyLine linkOpening := by decide +kernel
  have haddress := skipped_bodyLine stylesheet "\">\n</head>".toList (by decide) (by decide +kernel)
  have hlinkEnd : linkEnd = "\">\n</head>".toList ++ bodyLine := by decide
  -- a line end at the end of a title or of an address goes on with what comes after it
  rw [bodyOf?, toList_completePage, hlinkEnd, afterFirst?_of_skipped hopening,
    ← List.append_assoc _ titleEnd, afterFirst?_of_skipped htitle, afterFirst?_of_skipped hlink,
    List.append_assoc _ bodyLine, ← List.append_assoc _ "\">\n</head>".toList,
    afterFirst?_of_skipped haddress, afterFirst?_mark_append, Option.bind_some, before?_append]

/-! ### The tags -/

/-- The link to the stylesheet, as far as its address. -/
def linkTag : Tag := .of "link" [("rel", "stylesheet")]

/-- **The tags that stand before a body**, of which one has the address of the stylesheet. -/
def headTags (address : List Char) : List Tag :=
  [.of "!DOCTYPE" [("html", "")], .of "html" [("lang", "en")], .of "head" [],
   .of "meta" [("charset", "UTF-8")],
   .of "meta" [("name", "viewport"), ("content", "width=device-width, initial-scale=1.0")],
   .of "title" [], .of "/title" [], linkTag.withAttribute "href".toList address,
   .of "/head" [], .of "body" []]

/-- **The tags of a page** are those before a body and those that the body and the last lines have. -/
theorem tagsOf_completePage (body stylesheet title : String) :
    Tag.tagsOf (completePage body stylesheet title).toList
      = headTags (escapeAttribute stylesheet).toList ++ Tag.tagsOf (body.toList ++ closing) := by
  -- an escaped text has neither a bracket nor a quote
  have bracket : '<' ∉ (escapeAttribute title).toList := notMem_escapeAttribute (by decide) title
  have quote : '"' ∉ (escapeAttribute stylesheet).toList :=
    notMem_escapeAttribute (by decide) stylesheet
  rw [Tag.tagsOf, toList_completePage]
  generalize (escapeAttribute title).toList = writtenTitle at bracket ⊢
  generalize (escapeAttribute stylesheet).toList = address at quote ⊢
  -- the link is open where the address stands, and a reader is in the text after every other piece
  have hopening : Tag.Place.text.Reads opening ((headTags []).take 6) .text :=
    ⟨by decide +kernel, by decide +kernel⟩
  have htitleEnd : Tag.Place.text.Reads titleEnd [.of "/title" []] .text :=
    ⟨by decide +kernel, by decide +kernel⟩
  have hlink : Tag.Place.text.Reads linkOpening [] (.value linkTag "href".toList (some '"') []) :=
    ⟨by decide +kernel, by decide +kernel⟩
  have hlinkEnd : Tag.Place.text.Reads (linkEnd.drop 2) [.of "/head" [], .of "body" []] .text :=
    ⟨by decide +kernel, by decide +kernel⟩
  -- the address is read up to the quote that closes it
  have haddress := (Tag.Place.reads_value quote linkTag "href".toList []).append
    (Tag.Place.reads_valueEnd '"' linkTag "href".toList ([] ++ address))
  -- the head is read piece by piece
  have hhead := hopening.append <| (Tag.Place.reads_text bracket).append <| htitleEnd.append <|
    hlink.append <| haddress.append hlinkEnd
  have hsplit : linkEnd = ['"', '>'] ++ linkEnd.drop 2 := by decide +kernel
  -- and the body from the text on
  have hpage := hhead.tags_append (body.toList ++ closing)
  rw [hsplit]
  simp only [List.append_assoc] at hpage ⊢
  exact hpage

/-- **A page is unambiguous**, whatever its title, the address of its stylesheet and its body are. Each
of the three is found by its marks, and read without its references; the tags are those of the template
and those of the body, so that neither a title nor an address adds a tag or an attribute; and
pages with different parts are different. -/
theorem completePage_unambiguous (references : References) (body stylesheet title : String) :
    (titleOf? (completePage body stylesheet title).toList).map references.unescape = some title.toList
      ∧ (stylesheetHref? (completePage body stylesheet title).toList).map references.unescape
        = some stylesheet.toList
      ∧ bodyOf? (completePage body stylesheet title).toList = some body.toList
      ∧ Tag.tagsOf (completePage body stylesheet title).toList
        = headTags (escapeAttribute stylesheet).toList ++ Tag.tagsOf (body.toList ++ closing)
      ∧ ∀ otherBody otherStylesheet otherTitle,
        completePage otherBody otherStylesheet otherTitle = completePage body stylesheet title →
        otherBody = body ∧ otherStylesheet = stylesheet ∧ otherTitle = title := by
  have htitle (body stylesheet title : String) :
      (titleOf? (completePage body stylesheet title).toList).map references.unescape
        = some title.toList := by
    rw [titleOf?_completePage, Option.map_some, references.unescape_escapeAttribute]
  -- what an escaped text is unescaped to is the text
  have haddress (body stylesheet title : String) :
      (stylesheetHref? (completePage body stylesheet title).toList).map references.unescape
        = some stylesheet.toList := by
    rw [stylesheetHref?_completePage, Option.map_some, references.unescape_escapeAttribute]
  -- each piece is read from the page
  refine ⟨htitle .., haddress .., bodyOf?_completePage .., tagsOf_completePage .., ?_⟩
  intro otherBody otherStylesheet otherTitle same
  -- so the pieces of two equal pages are equal
  have sameBody := bodyOf?_completePage otherBody otherStylesheet otherTitle
  have sameAddress := haddress otherBody otherStylesheet otherTitle
  have sameTitle := htitle otherBody otherStylesheet otherTitle
  rw [same, bodyOf?_completePage] at sameBody
  rw [same, haddress] at sameAddress
  rw [same, htitle] at sameTitle
  exact ⟨String.toList_inj.mp (Option.some.inj sameBody).symm,
    String.toList_inj.mp (Option.some.inj sameAddress).symm,
    String.toList_inj.mp (Option.some.inj sameTitle).symm⟩

end Template

end Mockup
