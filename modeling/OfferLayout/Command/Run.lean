/-
**Commands.**

A command line is read, the command is carried out on the files it names, and what comes of it is
reported.  Where nothing is to be shown, only the exit code tells how it went.

Main definitions:

* `Command.run`, `Invocation.run` — carrying out a command;
* `Stop.report` — what is reported when there is none;
* `runArguments` — **what a command line does**;
* `Command.paths`, `pathsOfArguments` — the files that are read.

Main results:

* `Invocation.run_quiet_stdout` — where nothing is to be shown, nothing is.
-/

import OfferLayout.Command.Evaluate
import OfferLayout.Command.Expand
import OfferLayout.Command.Replay

set_option relaxedAutoImplicit false
set_option autoImplicit false

namespace OfferLayout

/-! ### Carrying out commands -/

/-- What a command reports, if it can be carried out. -/
def Command.run (format : OutputFormat) (files : Files) : Command → Except Failure Report
  | .expand r => (r.run files).map fun e => e.report format
  | .eval r => (r.run files).map fun e => e.report format
  | .replay r => (r.run files).map fun p => p.2.report format p.1

/-- **Carries out what was asked for.** -/
def Invocation.run (i : Invocation) (files : Files) : Report :=
  match i.command.run i.format files with
  | .error f => Report.ofFailure i.format i.quiet f
  | .ok report => if i.quiet then {} else report

/-- Where nothing is to be shown, nothing is. -/
theorem Invocation.run_quiet_stdout (i : Invocation) (files : Files) (h : i.quiet = true) :
    (i.run files).stdout = "" ∧ (i.run files).stderr = "" := by
  unfold Invocation.run
  rw [h]
  split
  · simp
  · exact ⟨rfl, rfl⟩

/-! ### Command lines -/

/-- The version of the program. -/
def versionLine : String := "placard 0.1.0\n"

/-- What is said about how to use the program. -/
def synopsis : String :=
  "Usage: placard [--output text|json] [--quiet] <command>\n\n" ++
  "Commands:\n" ++
  "  expand <template> --schema <path> [--slot <n>] [--catalog-item <n>]\n" ++
  "         [--response positive|negative] [--position <n>]\n" ++
  "  eval   --predicates <path> --state <path> [--schema <path>] [--slot <n>] [--catalog-item <n>]\n" ++
  "  replay --events <path> [--config <path>] [--interval-ms <n>]\n"

/-- What is reported when no command is carried out. -/
def Stop.report : Stop → Report
  | .version => { stdout := versionLine }
  | .help => { stdout := synopsis }
  | .usage e => { exit := 2, stderr := lineOf e.message ++ "\n" ++ synopsis }

/-- **What a command line does.** -/
def runArguments (args : List String) (files : Files) : Report :=
  match Invocation.ofArguments args with
  | .error stop => stop.report
  | .ok i => i.run files

/-! ### The files that are read -/

/-- The paths of the files that a command may read. -/
def Command.paths : Command → List String
  | .expand r => [r.schema]
  | .eval r => r.predicates :: r.state :: r.schema.toList
  | .replay r => r.events :: r.config.toList

/-- The paths of the files that a command line may read. -/
def pathsOfArguments (args : List String) : List String :=
  match Invocation.ofArguments args with
  | .error _ => []
  | .ok i => i.command.paths

end OfferLayout
