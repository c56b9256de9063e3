import Mockup.Command.Run

/-!
# The program

The outermost layer of the command line. It looks at the files that a command names, runs the
command on what it saw, and then writes what the command has written. The remote side is out of
reach from here, so every request stays unanswered.
-/

namespace Mockup

/-- The level from which on messages are shown. -/
def Level.isShown : Level → Bool
  | .debug => false
  | _ => true

/-- What is told of a command that ended before it was through and has not said why itself. -/
def Interruption.report? : Interruption → Option String
  | .usage error => error.report?
  | .exit _ => none
  | .fault cause => some ("Error: " ++ cause.message)

/-- The path of a place. -/
def Storage.path (place : List String) : String := "/" ++ "/".intercalate place

namespace Program

/-- Looks at what is at a place. -/
def look (place : List String) : IO Entry := do
  try
    let path ← IO.FS.realPath (Storage.path place)
    if ← path.isDir then return .directory
    return .file (String.fromUTF8? (← IO.FS.readBinFile path))
  catch _ => return .absent

/-- Looks at each place on the way of a path. -/
def survey (storage : Storage) (path : String) : IO Storage := do
  let mut storage := storage
  let mut place := storage.start path
  for name in Path.segments path do
    place := Storage.next place name
    match ← look place with
    | .file text => storage := { storage with files := ⟨place, text⟩ :: storage.files }
    | .directory => storage := { storage with directories := place :: storage.directories }
    | .absent => pure ()
  return storage

/-- Shows and writes what a command has done. -/
def carryOut (report : Report) (result : Except Interruption Unit) : IO Unit := do
  for file in report.storage.written do
    IO.FS.createDirAll (Storage.path file.place.dropLast)
    IO.FS.writeFile (Storage.path file.place) (file.text.getD "")
  for (level, text) in report.messages do
    if level.isShown then IO.eprintln text
  IO.print report.output
  if let .error interruption := result then
    if let some line := interruption.report? then IO.eprintln line

end Program

end Mockup

open Mockup in
/-- **Runs a command line.** -/
def main (arguments : List String) : IO UInt32 := do
  let here ← IO.currentDir
  let home := (Path.segments here.toString).filter (!Storage.isIdle ·)
  let reader : CommandReader := Invocation.ofArguments
  let paths := match reader arguments with
    | .ok invocation => invocation.paths
    | .error _ => []
  let storage ← paths.foldlM Program.survey { home : Storage }
  let (result, report) :=
    (runCommand reader {} arguments).run { session := .fresh fun _ => .unanswered, storage }
  Program.carryOut report result
  return (exitCode result).toUInt32
