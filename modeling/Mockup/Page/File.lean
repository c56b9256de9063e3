import Mockup.Page.Conversion
import Mockup.Text.Character

/-!
# The files of a page

A converted document is written as two files, a page and its stylesheet, in a directory of their own
named after the document. Paths are texts of names with slashes between them, which begin at the root
or somewhere else.

* `Path.isAbsolute`, `Path.segments`, `Path.join` — paths, their names, and a path below a directory;
* `FileName.ofTitle` — a file name from any title;
* `PagePaths.of` — where the two files go;
* `completePage` — the page around a body.
-/

namespace Mockup

/-! ### Paths -/

namespace Path

/-- Whether a path begins at the root. -/
def isAbsolute (path : String) : Bool := path.toList.head? == some '/'

/-- The names of a path. -/
def segments (path : String) : List String := (path.toList.splitOn '/').map .ofList

/-- Whether a directory can stand before a name without a slash between them. -/
def isOpen (directory : String) : Bool :=
  directory.toList.isEmpty || directory.toList.getLast? == some '/'

/-- **A path below a directory.** An absolute path stands alone, and so does any path below no
directory. -/
def join (directory path : String) : String :=
  if isAbsolute path then path
  else if isOpen directory then directory ++ path
  else directory ++ "/" ++ path

end Path

/-! ### Names of files -/

namespace FileName

/-- Whether a character may not stand in a file name. -/
def isForbidden (c : Char) : Bool := "<>:\"/\\|?*".toList.contains c

/-- One underscore in place of each run of blanks; `inRun` tells that a run has begun. -/
def joinBlanks (inRun : Bool) : List Char → List Char
  | [] => []
  | c :: rest =>
    if Text.isBlank c then
      if inRun then joinBlanks true rest else '_' :: joinBlanks true rest
    else c :: joinBlanks false rest

/-- Whether a character is left out at the ends of a file name. -/
def isEdge (c : Char) : Bool := c == '.' || c == '_'

/-- The name of a file whose title leaves nothing of a name. -/
def fallback : String := "figma_design"

/-- **A file name from a title**: forbidden characters and runs of blanks become underscores, and
neither points nor underscores stand at the ends. -/
def ofTitle (title : String) : String :=
  let replaced := title.toList.map fun c => if isForbidden c then '_' else c
  let trimmed := Text.trimBoth isEdge (joinBlanks false replaced)
  if trimmed.isEmpty then fallback else .ofList trimmed

end FileName

/-! ### The two files -/

/-- The paths of a page and of its stylesheet. -/
structure PagePaths where
  directory : String
  html : String
  css : String
  deriving DecidableEq

/-- **Where the files of a page go**: in a directory of the name of the page, below another one. -/
def PagePaths.of (title directory : String) : PagePaths :=
  let name := FileName.ofTitle title
  let directory := Path.join directory name
  ⟨directory, Path.join directory (name ++ ".html"), Path.join directory (name ++ ".css")⟩

theorem PagePaths.of_directory (title directory : String) :
    (PagePaths.of title directory).directory = Path.join directory (FileName.ofTitle title) := by
  simp only [PagePaths.of]

theorem PagePaths.of_html (title directory : String) :
    (PagePaths.of title directory).html
      = Path.join (PagePaths.of title directory).directory (FileName.ofTitle title ++ ".html") := by
  simp only [PagePaths.of]

theorem PagePaths.of_css (title directory : String) :
    (PagePaths.of title directory).css
      = Path.join (PagePaths.of title directory).directory (FileName.ofTitle title ++ ".css") := by
  simp only [PagePaths.of]

/-- The name of the stylesheet's file. -/
def stylesheetName (title : String) : String := FileName.ofTitle title ++ ".css"

/-- **The page around a body**, with a title and a link to its stylesheet. -/
def completePage (body stylesheet title : String) : String :=
  "\n".intercalate
    ["<!DOCTYPE html>",
     "<html lang=\"en\">",
     "<head>",
     "    <meta charset=\"UTF-8\">",
     "    <meta name=\"viewport\" content=\"width=device-width, initial-scale=1.0\">",
     "    <title>" ++ Text.escapeAttribute title ++ "</title>",
     "    <link rel=\"stylesheet\" href=\"" ++ Text.escapeAttribute stylesheet ++ "\">",
     "</head>",
     "<body>",
     body,
     "</body>",
     "</html>"]

end Mockup
