import Mockup.Command.Run
import Mockup.Proofs.Outcome

/-!
# Reasoning about commands

A command is work on a report that an interruption ends. It is run from a report, and its steps are
taken apart here: a result, a message, work on the session and work on the files. A step that is
interrupted interrupts the command and leaves the report as it was before.

* `Command.runFrom` — a command, run from a report;
* `Command.runFrom_bind` — a command after a command;
* `Command.runFrom_ofResult_bind`, `runFrom_get_bind`, `runFrom_log_bind`, `runFrom_exchange_bind`,
  `runFrom_store_bind` — each step;
* `Command.runFrom_handlingRefusals` — what is made of a refusal.
-/

namespace Mockup.Command

variable {α β : Type}

/-- Runs a command from a report. -/
def runFrom (command : Command α) (report : Report) : Except Interruption α × Report :=
  command report

theorem runFrom_pure (a : α) (report : Report) : runFrom (pure a) report = (.ok a, report) := rfl

/-- A command after a command: an interruption of the first is that of both. -/
theorem runFrom_bind (command : Command α) (next : α → Command β) (report : Report) :
    runFrom (command >>= next) report = match runFrom command report with
      | (.ok a, report) => runFrom (next a) report
      | (.error stop, report) => (.error stop, report) := by
  change (ExceptT.bind command next) report = _
  simp only [ExceptT.bind, ExceptT.mk, runFrom]
  change StateT.bind command _ report = _
  simp only [StateT.bind]
  rcases command report with ⟨_ | _, _⟩
  · rfl
  · rfl

section Steps

variable (next : α → Command β) (report : Report)

/-- A result: its fault is not handled. -/
theorem runFrom_ofResult_bind (result : Result α) :
    runFrom (ofResult result >>= next) report = match result with
      | .ok a => runFrom (next a) report
      | .error fault => (.error (.fault fault), report) := by
  rw [runFrom_bind]
  cases result with
  | ok a => rfl
  | error fault => rfl

/-- A look at the report. -/
theorem runFrom_get_bind (next : Report → Command β) :
    runFrom (get >>= next) report = runFrom (next report) report := by
  rw [runFrom_bind]
  rfl

/-- A message. -/
theorem runFrom_log_bind (level : Level) (text : String) (next : Unit → Command β) :
    runFrom (log level text >>= next) report
      = runFrom (next ()) { report with messages := report.messages ++ [(level, text)] } := by
  rw [runFrom_bind]
  rfl

/-- Work on the session: what it does to the session stays also when it ends with a fault. -/
theorem runFrom_exchange_bind (work : Exchange α) :
    runFrom (exchange work >>= next) report
      = runFrom (ofResult (work.runFrom report.session).1 >>= next)
          { report with session := (work.runFrom report.session).2 } := by
  have hstep : runFrom (exchange work) report
      = runFrom (ofResult (work.runFrom report.session).1)
          { report with session := (work.runFrom report.session).2 } := rfl
  rw [runFrom_bind, hstep, ← runFrom_bind]

/-- Work on the files, which are as before when it ends with a fault. -/
theorem runFrom_store_bind (work : Storage → Result Storage) (next : Unit → Command β) :
    runFrom (store work >>= next) report = match work report.storage with
      | .ok storage => runFrom (next ()) { report with storage }
      | .error fault => (.error (.fault fault), report) := by
  have hstep : runFrom (store work) report = match work report.storage with
      | .ok storage => (.ok (), { report with storage })
      | .error fault => (.error (.fault fault), report) := by
    change runFrom (do set { report with storage := ← ofResult (work report.storage) }) report = _
    cases work report.storage with
    | ok storage => rfl
    | error fault => rfl
  rw [runFrom_bind, hstep]
  cases work report.storage with
  | ok storage => rfl
  | error fault => rfl

end Steps

/-- **Refusals are told** and end the command with an exit code; nothing else is changed. -/
theorem runFrom_handlingRefusals (command : Command α) (report : Report) :
    runFrom (handlingRefusals command) report = match runFrom command report with
      | (.error (.fault (.refused refusal)), report) =>
        runFrom (fail refusal.message.plain) report
      | ended => ended := by
  change (ExceptT.tryCatch command _) report = _
  simp only [ExceptT.tryCatch, ExceptT.mk, runFrom]
  change StateT.bind command _ report = _
  simp only [StateT.bind]
  rcases command report with ⟨(_ | _ | fault) | a, after⟩
  · rfl
  · rfl
  · cases fault with
    | refused refusal => rfl
    | _ => rfl
  · rfl

end Mockup.Command
