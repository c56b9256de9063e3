import Mockup.Json.Basic

/-!
# What can go wrong

An operation ends with a value or with a `Fault`, which tells the cause. Some faults are refusals
that the program states itself, with a code, a status and a message for the one who asked; the
others say that a value of the document was not of the kind that its use required.

* `ErrorCode` — the codes of refusals, each with its standing message and status;
* `Refusal` — a refusal with its message and where it comes from;
* `Fault` — all causes.
-/

namespace Mockup

/-- The codes of refusals. -/
inductive ErrorCode where
  | invalidInput
  | invalidLink
  | missingToken
  | forbidden
  | notFound
  | rateLimited
  | remoteFailure
  | internalError
  deriving DecidableEq

namespace ErrorCode

/-- All codes. -/
def all : List ErrorCode :=
  [invalidInput, invalidLink, missingToken, forbidden, notFound, rateLimited, remoteFailure,
   internalError]

/-- The name under which a code is reported. -/
def name : ErrorCode → String
  | invalidInput => "INVALID_INPUT"
  | invalidLink => "INVALID_FIGMA_URL"
  | missingToken => "MISSING_TOKEN"
  | forbidden => "FIGMA_FORBIDDEN"
  | notFound => "FIGMA_NOT_FOUND"
  | rateLimited => "FIGMA_RATE_LIMITED"
  | remoteFailure => "FIGMA_API_ERROR"
  | internalError => "INTERNAL_SERVER_ERROR"

/-- The message of a refusal that brings none of its own. -/
def message : ErrorCode → String
  | invalidInput => "Invalid input: root node is null or undefined"
  | invalidLink => "Could not extract a file key from the Figma URL"
  | missingToken => "Figma API token is required. Set FIGMA_API_TOKEN or pass a token"
  | forbidden => "Access to the Figma file was denied"
  | notFound => "Figma file or node not found"
  | rateLimited => "Figma API rate limit exceeded"
  | remoteFailure => "Failed to fetch Figma file"
  | internalError => "Internal server error"

/-- The status with which a refusal is answered. -/
def status : ErrorCode → Nat
  | invalidInput => 400
  | invalidLink => 400
  | missingToken => 401
  | forbidden => 403
  | notFound => 404
  | rateLimited => 429
  | remoteFailure => 502
  | internalError => 500

/-- The code of a given name. -/
def ofName? (name : String) : Option ErrorCode := all.find? (·.name = name)

end ErrorCode

/-- Where a refusal comes from: the program itself, the check of the document given, or the remote
side, which answered with a status unless there was no answer. -/
inductive Origin where
  | program
  | input
  | remote (status : Option Int)

/-- **A refusal.** The message is a text unless the remote side sent something else as
the message. -/
structure Refusal where
  code : ErrorCode
  message : Json
  origin : Origin := .program

/-- A refusal with a message of its own, or the standing one where that does not count as given. -/
def Refusal.of (code : ErrorCode) (message : Json) (origin : Origin) : Refusal :=
  ⟨code, message.orElse (.str code.message), origin⟩

/-- Why a file is not written. -/
inductive StorageFault where
  | notDirectory
  | occupied
  | isDirectory
  | nameTooLong
  deriving DecidableEq

/-- **A fault**, by its cause:

* `absentMember` — a field was asked of a value that has no fields;
* `wrongKind` — a value is of a kind that the operation is not defined on;
* `badValue` — a value of the right kind is not acceptable;
* `outOfRange` — a number lies beyond the range of doubles, or has no integer below it;
* `undecodable` — bytes are not text;
* `storage` — a file is not written;
* `refused` — the program refuses. -/
inductive Fault where
  | absentMember
  | wrongKind
  | badValue
  | outOfRange
  | undecodable
  | storage (cause : StorageFault)
  | refused (refusal : Refusal)

/-- The message for a file that is not written. -/
def StorageFault.message : StorageFault → String
  | .notDirectory => "a part of the path is not a directory"
  | .occupied => "there is a file in place of the directory"
  | .isDirectory => "there is a directory in place of the file"
  | .nameTooLong => "the name is too long for a file"

/-- The message for a fault, for whoever runs the program. -/
def Fault.message : Fault → String
  | .absentMember => "a value without fields was asked for one"
  | .wrongKind => "a value is of a kind that is of no use here"
  | .badValue => "a value is not acceptable"
  | .outOfRange => "a number is out of range"
  | .undecodable => "the file is not text"
  | .storage cause => cause.message
  | .refused refusal => refusal.code.message

/-! ### Outcomes -/

/-- An outcome that may be a fault. -/
abbrev Result := Except Fault

/-- The value of an option, or a fault in place of none. -/
def orFault {α : Type} (fault : Fault) : Option α → Result α
  | some a => .ok a
  | none => .error fault

/-- **Work on a state that a fault interrupts but does not undo.** The state is what has been built
so far; a fault ends the work and leaves it. -/
abbrev Work (σ : Type) := ExceptT Fault (StateM σ)

namespace Work

variable {σ α : Type}

/-- A result as work that leaves the state alone. -/
def ofResult (result : Result α) : Work σ α := fun s => (result, s)

/-- Runs the work from a state. -/
def runFrom (work : Work σ α) (s : σ) : Result α × σ := work s

@[simp] theorem runFrom_ofResult (result : Result α) (s : σ) :
    runFrom (ofResult result) s = (result, s) := rfl

@[simp] theorem runFrom_pure (a : α) (s : σ) : runFrom (pure a) s = (.ok a, s) := rfl

/-- Work after work: a fault of the first is the fault of both. -/
theorem runFrom_bind {β : Type} (work : Work σ α) (next : α → Work σ β) (s : σ) :
    runFrom (work >>= next) s = match runFrom work s with
      | (.ok a, s) => runFrom (next a) s
      | (.error fault, s) => (.error fault, s) := by
  show (ExceptT.bind work next) s = _
  simp only [ExceptT.bind, ExceptT.mk, runFrom]
  show StateT.bind work _ s = _
  simp only [StateT.bind]
  rcases work s with ⟨_ | _, _⟩ <;> rfl

end Work

end Mockup
