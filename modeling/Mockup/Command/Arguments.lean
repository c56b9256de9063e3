import Mockup.Json.Plain
import Mockup.Text.Similar

/-!
# Command line arguments

A command line is a command with options and one argument. Options have a long name and some a short
one; a value follows as the next argument, after an equals sign, or directly after the short name.
Of repeated options the last one counts, and after `--` no options are looked for. A name that is
not known is answered with the known names that are similar to it.

What a command prints has no control sequences where the output is no terminal. Such a sequence is an
escape character, an opening bracket, parameters, and a letter.

* `Terminal.plain` — a text without control sequences;
* `UsageError` — what can be wrong with a command line, with its message;
* `CommandSpec` — the options and the argument of a command;
* `Parsed`, `parseArguments` — the options and arguments of a command line;
* `Invocation`, `Invocation.ofArguments` — the command that is meant.
-/

namespace Mockup

/-! ### Output -/

namespace Terminal

/-- The character with which a sequence begins. -/
def escape : Char := '\x1b'

/-- Whether a character may be a parameter of a sequence. -/
def isParameter (c : Char) : Bool := c == ';' || c == '?' || c.isDigit

/-- Whether a character goes on with a sequence of which so much is there. -/
def goesOn (begun : List Char) (c : Char) : Bool :=
  if begun = [escape] then c == '[' else isParameter c

/-- Whether a character completes a sequence of which so much is there. -/
def completes (begun : List Char) (c : Char) : Bool := begun.length ≥ 2 && c.isAlpha

/-- What is left of a text that follows what may be the beginning of a sequence. -/
def plainAfter (begun : List Char) : List Char → List Char
  | [] => begun
  | c :: rest =>
    if !begun.isEmpty && goesOn begun c then plainAfter (begun ++ [c]) rest
    else if completes begun c then plainAfter [] rest
    else if c = escape then begun ++ plainAfter [escape] rest
    else begun ++ c :: plainAfter [] rest

/-- **A text without control sequences.** -/
def plain (text : String) : String := .ofList (plainAfter [] text.toList)

end Terminal

/-! ### Errors of usage -/

/-- **What can be wrong with a command line.** -/
inductive UsageError where
  | nothingAsked
  | missingCommand
  | noSuchCommand (name : String) (similar : List String)
  | noSuchOption (name : String) (similar : List String)
  | optionNeedsValue (name : String)
  | optionTakesNoValue (name : String)
  | missingArgument (name : String)
  | unexpectedArguments (extra : List String)
  | absentFile (argument path : String)
  | directoryGiven (argument path : String)
  | invalidValue (reason : String)

namespace UsageError

/-- The question whether a similar name was meant. -/
def suggestion : List String → String
  | [] => ""
  | [name] => " Did you mean " ++ Text.quote name ++ "?"
  | names => " (Did you mean one of: " ++ ", ".intercalate (names.map Text.quote) ++ "?)"

/-- The message for an error. -/
def message : UsageError → String
  | nothingAsked => ""
  | missingCommand => "Missing command."
  | noSuchCommand name similar =>
    "No such command " ++ Text.quote name ++ "." ++ suggestion similar
  | noSuchOption name similar =>
    "No such option " ++ Text.quote name ++ "." ++ suggestion similar
  | optionNeedsValue name => "Option " ++ Text.quote name ++ " requires an argument."
  | optionTakesNoValue name => "Option " ++ Text.quote name ++ " does not take a value."
  | missingArgument name => "Missing argument '" ++ name ++ "'."
  | unexpectedArguments extra =>
    (match extra with
      | [_] => "Got unexpected extra argument ("
      | _ => "Got unexpected extra arguments (") ++ " ".intercalate extra ++ ")"
  | absentFile argument path =>
    "Invalid value for '" ++ argument ++ "': File " ++ Text.quote path ++ " does not exist."
  | directoryGiven argument path =>
    "Invalid value for '" ++ argument ++ "': File " ++ Text.quote path ++ " is a directory."
  | invalidValue reason => "Invalid value: " ++ reason

/-- What is reported of an error. Where nothing was asked for, only help is given. -/
def report? : UsageError → Option String
  | nothingAsked => none
  | error => some (Terminal.plain ("Error: " ++ error.message))

end UsageError

/-! ### Options -/

/-- **An option** with a value: its long name and its short one. -/
structure OptionSpec where
  long : String
  short : Char
  deriving DecidableEq

/-- **The options of a command**, and whether options may follow its arguments. -/
structure CommandSpec where
  options : List OptionSpec
  interspersed : Bool

/-- **The arguments of a command line**: the values of options by their long names, the last one
first, whether help is asked for, and the other arguments. -/
structure Parsed where
  values : List (String × String) := []
  help : Bool := false
  arguments : List String := []

/-- The long names that a command line may have, those of the options and the one for help. -/
def CommandSpec.longNames (spec : CommandSpec) : List String :=
  "--help" :: spec.options.map ("--" ++ ·.long)

/-- The value of an option. -/
def Parsed.value? (parsed : Parsed) (long : String) : Option String :=
  (parsed.values.find? fun entry => entry.1 = long).map (·.2)

/-- What one argument is: the end of the options, an option with the value that is attached to it, a
request for help, a name that no option has with those that are similar, or an argument proper. -/
inductive ArgumentKind where
  | endOfOptions
  | option (spec : OptionSpec) (shown : String) (attached : Option String)
  | help
  | helpWithValue
  | unknown (shown : String) (similar : List String)
  | plain

/-- A name and what follows an equals sign after it. -/
def splitAttached (cs : List Char) : String × Option String :=
  (.ofList (cs.takeWhile (· ≠ '=')),
    match cs.dropWhile (· ≠ '=') with
    | _ :: value => some (.ofList value)
    | [] => none)

/-- **What one argument is.** Only for a long name similar ones are looked for. -/
def CommandSpec.classify (spec : CommandSpec) (argument : String) : ArgumentKind :=
  if argument = "--" then .endOfOptions
  else
    let (name, attached) := splitAttached argument.toList
    match argument.toList with
    | '-' :: letter :: rest =>
      match spec.options.find? fun option => "--" ++ option.long = name with
      | some option => .option option name attached
      | none =>
        if name = "--help" then if attached.isSome then .helpWithValue else .help
        else if letter = '-' then .unknown name (Text.Similar.among spec.longNames name)
        else match spec.options.find? fun option => option.short = letter with
          | some option =>
            let attached := if rest.isEmpty then none else some (.ofList rest)
            .option option (.ofList ['-', letter]) attached
          | none => .unknown (.ofList ['-', letter]) []
    | _ => .plain

namespace Parsed

/-- With a further value of an option, which counts only when no value of it follows. -/
def addValue (parsed : Parsed) (option : OptionSpec) (value : String) : Parsed :=
  { parsed with values := parsed.values ++ [(option.long, value)] }

/-- With a further argument before the others. -/
def addArgument (parsed : Parsed) (argument : String) : Parsed :=
  { parsed with arguments := argument :: parsed.arguments }

end Parsed

/-- **Parses a command line** against a specification. -/
def parseArguments (spec : CommandSpec) : List String → Except UsageError Parsed
  | [] => .ok {}
  | argument :: rest =>
    match spec.classify argument with
    | .endOfOptions => .ok { arguments := rest }
    | .unknown name similar => .error (.noSuchOption name similar)
    | .helpWithValue => .error (.optionTakesNoValue "--help")
    | .help => do return { ← parseArguments spec rest with help := true }
    | .option option _ (some value) => do return (← parseArguments spec rest).addValue option value
    | .option option shown none =>
      match rest with
      | value :: rest => do return (← parseArguments spec rest).addValue option value
      | [] => .error (.optionNeedsValue shown)
    | .plain =>
      if spec.interspersed then do return (← parseArguments spec rest).addArgument argument
      else .ok { arguments := argument :: rest }

/-! ### Commands -/

/-- **What is asked for.** -/
inductive Invocation where
  | help
  | convert (link output : String) (token : Option String)
  | render (path output : String) (extra : List String)
  | info (link : String)
  deriving DecidableEq

/-- The paths that a command looks at or writes to. -/
def Invocation.paths : Invocation → List String
  | .render path output _ => [path, output]
  | .convert _ output _ => [output]
  | .help | .info _ => []

/-- The directory for files when none is chosen. -/
def defaultOutput : String := "output"

/-- The option for the directory. -/
def outputOption : OptionSpec := ⟨"output", 'o'⟩

/-- The option for the token. -/
def tokenOption : OptionSpec := ⟨"token", 't'⟩

/-- The one argument of a command, which must be there. -/
def Parsed.required (parsed : Parsed) (name : String) : Except UsageError (String × List String) :=
  match parsed.arguments with
  | argument :: extra => .ok (argument, extra)
  | [] => .error (.missingArgument name)

/-- Refuses arguments beyond the one of a command. -/
def noExtra (extra : List String) : Except UsageError Unit :=
  if extra.isEmpty then .ok () else .error (.unexpectedArguments extra)

namespace Invocation

/-- The names of the commands. -/
def commandNames : List String := ["convert", "render", "info"]

/-- The command line of a command: help when it is asked for, and else what the command makes
of it. -/
def ofCommand (options : List OptionSpec) (arguments : List String)
    (make : Parsed → Except UsageError Invocation) : Except UsageError Invocation := do
  let parsed ← parseArguments ⟨options, true⟩ arguments
  if parsed.help then return .help else make parsed

/-- The invocation of a command with its arguments. An argument that is a file is looked at before
arguments beyond it are refused, so those are handed on. -/
def ofName (name : String) (arguments : List String) : Except UsageError Invocation :=
  match name with
  | "convert" =>
    ofCommand [outputOption, tokenOption] arguments fun parsed => do
      let (link, extra) ← parsed.required "FIGMA_URL"
      noExtra extra
      return .convert link ((parsed.value? "output").getD defaultOutput) (parsed.value? "token")
  | "render" =>
    ofCommand [outputOption] arguments fun parsed => do
      let (path, extra) ← parsed.required "JSON_FILE"
      return .render path ((parsed.value? "output").getD defaultOutput) extra
  | "info" =>
    ofCommand [] arguments fun parsed => do
      let (link, extra) ← parsed.required "FIGMA_URL"
      noExtra extra
      return .info link
  | name => do
    -- what looks like an option is looked for among those before the command
    let parsed ← parseArguments ⟨[], false⟩ (name :: arguments)
    if parsed.help then return .help
    throw (.noSuchCommand name (Text.Similar.among commandNames name))

/-- **The invocation that a command line means.** -/
def ofArguments (arguments : List String) : Except UsageError Invocation := do
  if arguments.isEmpty then throw .nothingAsked
  let parsed ← parseArguments ⟨[], false⟩ arguments
  if parsed.help then return .help
  match parsed.arguments with
  | name :: rest => ofName name rest
  | [] => throw .missingCommand

end Invocation

end Mockup
