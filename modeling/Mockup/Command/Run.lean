import Mockup.Command.Arguments
import Mockup.Command.Storage
import Mockup.Page.File
import Mockup.Remote.Client

/-!
# Commands

What the commands do: `convert` fetches and converts a linked design, `render` converts a document
in a file, and `info` tells what a link points to. The first two write a page and its stylesheet.

* `Report` — what a command has done so far: messages, output, files, requests;
* `Interruption` — how a command ends before it is through;
* `Command` — work on a report;
* `saveConversion` — writes the two files;
* `saveDocument`, `saveLinked` — convert a document, or what a link points to, and write its files;
* `CommandReader`, `runCommand` — what reads a command line, and running one.
-/

namespace Mockup

/-- The weight of a message. -/
inductive Level where
  | debug
  | info
  | warning
  | error
  deriving DecidableEq

/-- The name of a weight. -/
def Level.name : Level → String
  | .debug => "DEBUG"
  | .info => "INFO"
  | .warning => "WARNING"
  | .error => "ERROR"

/-- **What a command has done so far.** -/
structure Report where
  session : Session
  storage : Storage
  messages : List (Level × String) := []
  output : String := ""

/-- **How a command ends before it is through**: the command line is wrong, or the command ends by
itself with an exit code, or a fault is not handled. -/
inductive Interruption where
  | usage (error : UsageError)
  | exit (code : Nat)
  | fault (fault : Fault)

/-- Work on a report. -/
abbrev Command := ExceptT Interruption (StateM Report)

namespace Command

/-! ### Steps of commands -/

/-- A result as a step. -/
def ofResult {α : Type} : Result α → Command α
  | .ok a => pure a
  | .error fault => throw (.fault fault)

/-- A message. -/
def log (level : Level) (text : String) : Command Unit :=
  modify fun report => { report with messages := report.messages ++ [(level, text)] }

/-- A line of output, which is not for a terminal. -/
def print (line : String) : Command Unit :=
  modify fun report => { report with output := report.output ++ Terminal.plain line ++ "\n" }

/-- Work on the session. -/
def exchange {α : Type} (work : Exchange α) : Command α := do
  let report ← get
  let (result, session) := work.runFrom report.session
  set { report with session }
  ofResult result

/-- Work on the files. -/
def store (work : Storage → Result Storage) : Command Unit := do
  let report ← get
  set { report with storage := ← ofResult (work report.storage) }

/-- A text in a colour of the terminal, given by its number. -/
def coloured (colour text : String) : String := "\x1b[" ++ colour ++ "m" ++ text ++ "\x1b[0m"

/-- A text in red. -/
def red : String → String := coloured "31"

/-- A text in green. -/
def green : String → String := coloured "32"

/-- A text in yellow. -/
def yellow : String → String := coloured "33"

/-- A text in blue. -/
def blue : String → String := coloured "34"

/-- Ends the command after an error message. -/
def fail {α : Type} (text : String) : Command α := do
  log .error (red ("❌ " ++ text))
  throw (.exit 1)

/-- **Handles refusals**: they are told to the user and end the command. Other faults go on. -/
def handlingRefusals {α : Type} (command : Command α) : Command α :=
  tryCatch command fun
    | .fault (.refused refusal) => fail refusal.message.plain
    | stop => throw stop

/-! ### The commands -/

/-- **Writes the files of a converted page**, named after the document, and tells where they are.
The name of a document must be a text. -/
def saveConversion (conversion : Conversion) (name : Json) (output : String) : Command String := do
  match name with
  | .str title =>
    let paths := PagePaths.of title output
    store (·.makeDirectories paths.directory)
    store (·.write paths.html (completePage conversion.html (stylesheetName title) title))
    store (·.write paths.css conversion.css)
    log .info ("HTML: " ++ paths.html)
    log .info ("CSS: " ++ paths.css)
    return paths.directory
  | _ => throw (.fault .wrongKind)

/-- **Converts a document and writes the files of the page.** -/
def saveDocument (gap : Int) (document : Json) (output : String) : Command String := do
  let root ← ofResult (Node.ofJson document)
  let conversion ← ofResult (Mockup.convert gap root)
  saveConversion conversion (root.name.orElse (.str FileName.fallback)) output

/-- Tells that the files of a page have been written. -/
def announce (directory : String) : Command Unit :=
  log .info (green ("🎉 " ++ directory ++ "에 저장되었습니다"))

/-- The error of usage for a link that names no file. -/
def invalidLinkError : UsageError :=
  .invalidValue "잘못된 Figma URL입니다. 올바른 Figma 디자인 URL을 제공해주세요."

/-- The document to convert: that of a node when one is named, and else the whole one. -/
def fetch (client : Client) (fileKey : String) (nodeId : Option String) : Exchange Json :=
  match nodeId with
  | some id => do
    let nodes ← client.nodes fileKey [id]
    if (Json.find? id nodes).isNone then throw (.refused (missingNode fileKey id))
    return (Json.find? id nodes).getD .null
  | none => client.document fileKey

/-- **Converts what a link points to and writes the files of the page.** -/
def saveLinked (settings : Settings) (link output : String) (token : Option String) :
    Command String := do
  log .info (blue ("🔄 Figma URL 파싱 중: " ++ link))
  let target ← ofResult (Link.parse link)
  match target.fileKey with
  | none => throw (.usage invalidLinkError)
  | some fileKey =>
    let client ← ofResult (Client.make settings token)
    let document ← exchange (fetch client fileKey target.nodeId)
    log .info (green "✅ Figma 데이터 가져오기 성공")
    saveDocument settings.gap document output

/-- **The command that converts a linked design.** -/
def convert (settings : Settings) (link output : String) (token : Option String) : Command Unit :=
  handlingRefusals do announce (← saveLinked settings link output token)

/-- The text of a file that must be there. -/
def fileText (path : String) : Command (Option String) := do
  match ← ofResult ((← get).storage.entryAt path) with
  | .file text => return text
  | .directory => throw (.usage (.directoryGiven "JSON_FILE" path))
  | .absent => throw (.usage (.absentFile "JSON_FILE" path))

/-- The document in a file: what stands under that name, or all of it. -/
def documentIn : Json → Json
  | .obj fields => (Json.find? "document" fields).getD (.obj fields)
  | _ => .null

/-- **The command that converts a document in a file.** -/
def render (gap : Int) (path output : String) (extra : List String) : Command Unit := do
  let text ← fileText path
  match noExtra extra with
  | .error error => throw (.usage error)
  | .ok () =>
    match Json.read (← ofResult (orFault .undecodable text)) with
    | .error .malformed => fail "JSON 파싱 실패"
    | .error .tooManyDigits => throw (.fault .badValue)
    | .error .undecodable | .error .loneHalf => throw (.fault .undecodable)
    | .ok document => handlingRefusals do announce (← saveDocument gap (documentIn document) output)

/-- **The command that tells what a link points to.** -/
def info (link : String) : Command Unit := do
  let target ← ofResult (Link.parse link)
  match target.fileKey with
  | none =>
    log .error (red "❌ 잘못된 Figma URL")
    log .warning (yellow
      "💡 예상 형식: https://www.figma.com/design/[file-key]/[name]?node-id=[node-id]")
    throw (.exit 1)
  | some fileKey =>
    print ("file_key: " ++ fileKey)
    print ("node_id: " ++ target.nodeId.getD "-")
    if target.nodeId.isNone then log .debug "특정 노드가 선택되지 않음 (전체 파일 변환)"

/-- The command of an invocation. -/
def ofInvocation (settings : Settings) : Invocation → Command Unit
  | .help => pure ()
  | .convert link output token => convert settings link output token
  | .render path output extra => render settings.gap path output extra
  | .info link => info link

end Command

/-- **What reads a command line**: it finds the invocation that is meant, or what is wrong. -/
abbrev CommandReader := List String → Except UsageError Invocation

/-- **Runs a command line.** -/
def runCommand (reader : CommandReader) (settings : Settings) (arguments : List String) :
    Command Unit :=
  match reader arguments with
  | .ok invocation => Command.ofInvocation settings invocation
  | .error error => throw (.usage error)

/-- The exit code of a command that ended so. -/
def exitCode : Except Interruption Unit → Nat
  | .ok () => 0
  | .error (.usage _) => 2
  | .error (.exit code) => code
  | .error (.fault _) => 1

end Mockup
