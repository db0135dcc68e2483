/-
**The arguments of the command line.**

A command line names one of three commands.  Options may stand before the name of the command and
after it; those that concern the output are admitted in both places, and what is said after the name
counts.  Arguments are read from left to right, and the first fault, or the first request for help
or for the version, decides.

Main definitions:

* `Invocation` — what a command line asks for;
* `Stop`, `UsageError` — why there is nothing to be done, or nothing that can be;
* `Level`, `Level.read` — the arguments before and after the name of a command;
* `Invocation.ofArguments` — **what a command line asks for**.

Main results:

* `Level.read_nil` — where nothing is given, nothing is added.
-/

import OfferLayout.Record.Response
import OfferLayout.Text.Cut
import OfferLayout.Text.Numeral

set_option relaxedAutoImplicit false
set_option autoImplicit false

namespace OfferLayout

/-! ### What can be asked for -/

/-- How results are shown. -/
inductive OutputFormat where
  /-- As plain text. -/
  | text
  /-- As a document. -/
  | json
deriving DecidableEq, Repr

/-- The format of a name. -/
def OutputFormat.named? (s : String) : Option OutputFormat :=
  if s = "text" then some .text else if s = "json" then some .json else none

/-- What is expanded, and with which data. -/
structure ExpandRequest where
  /-- The template. -/
  template : String
  /-- The path of the layout. -/
  schema : String
  /-- The index of the slot whose offer supplies the data. -/
  slot : Nat := 0
  /-- The index of the catalog item in scope. -/
  catalogItem : Option Nat := none
  /-- The response in scope. -/
  response : Option ResponseKey := none
  /-- The place of the offer on the screen, from zero. -/
  position : UInt64 := 0
deriving DecidableEq, Repr

/-- Which predicates are tested, and against what. -/
structure EvalRequest where
  /-- The path of the predicates. -/
  predicates : String
  /-- The path of the state. -/
  state : String
  /-- The path of the layout. -/
  schema : Option String := none
  /-- The index of the slot whose offer is in view. -/
  slot : Nat := 0
  /-- The index of the catalog item in view. -/
  catalogItem : Option Nat := none
deriving DecidableEq, Repr

/-- Which events are fed to the pipeline, and how. -/
structure ReplayRequest where
  /-- The path of the events. -/
  events : String
  /-- The path of the settings. -/
  config : Option String := none
  /-- The time between two events, in milliseconds. -/
  interval : Nat := 0
deriving DecidableEq, Repr

/-- A command. -/
inductive Command where
  /-- Expands a template. -/
  | expand (r : ExpandRequest)
  /-- Tests predicates. -/
  | eval (r : EvalRequest)
  /-- Feeds events to the pipeline. -/
  | replay (r : ReplayRequest)
deriving DecidableEq, Repr

/-- **What a command line asks for.** -/
structure Invocation where
  /-- How results are shown. -/
  format : OutputFormat
  /-- Whether nothing is to be shown. -/
  quiet : Bool
  /-- The command. -/
  command : Command
deriving DecidableEq, Repr

/-! ### Faults -/

/-- What is wrong with a command line. -/
inductive UsageError where
  /-- There is no such option. -/
  | unknownOption (name : String)
  /-- An option needs a value. -/
  | missingValue (name : String)
  /-- An option does not take a value. -/
  | unexpectedValue (name : String)
  /-- An option does not take this value. -/
  | badValue (name value : String)
  /-- An option is given twice. -/
  | repeated (name : String)
  /-- There are too many arguments. -/
  | unexpectedArgument (argument : String)
  /-- Something that is needed is missing. -/
  | missingArgument (name : String)
  /-- There is no such command. -/
  | unknownCommand (name : String)
  /-- No command is named. -/
  | noCommand
deriving DecidableEq, Repr

/-- What is said about the fault. -/
def UsageError.message : UsageError → String
  | .unknownOption name => s!"error: unexpected argument '{name}' found"
  | .missingValue name => s!"error: a value is required for '--{name}' but none was supplied"
  | .unexpectedValue name => s!"error: unexpected value for '--{name}' found"
  | .badValue name value => s!"error: invalid value '{value}' for '--{name}'"
  | .repeated name => s!"error: the argument '--{name}' cannot be used multiple times"
  | .unexpectedArgument argument => s!"error: unexpected argument '{argument}' found"
  | .missingArgument name => s!"error: the required argument '{name}' was not provided"
  | .unknownCommand name => s!"error: unrecognized subcommand '{name}'"
  | .noCommand => "error: a subcommand is required"

/-- Why no command is carried out. -/
inductive Stop where
  /-- The version is asked for. -/
  | version
  /-- Help is asked for. -/
  | help
  /-- Something is wrong. -/
  | usage (e : UsageError)
deriving DecidableEq, Repr

/-! ### One level of arguments -/

/-- What may be given on one level of a command line. -/
structure Level where
  /-- The options that take a value, each with the test for its values. -/
  valued : List (String × (String → Bool))
  /-- The options that take no value. -/
  flags : List String
  /-- The number of arguments that are not options. -/
  plain : Nat := 0
  /-- The commands that may follow. -/
  commands : List String := []
  /-- Whether the version may be asked for. -/
  hasVersion : Bool := false

/-- What was given on one level. -/
structure Given where
  /-- The values of options. -/
  values : List (String × String) := []
  /-- The options without a value. -/
  flags : List String := []
  /-- The arguments that are not options. -/
  plain : List String := []
deriving DecidableEq, Repr

/-- The kinds of arguments. -/
inductive Argument where
  /-- Two dashes alone: no option comes after them. -/
  | separator
  /-- An option by its name, with its value if it is attached. -/
  | long (name : String) (value : Option String)
  /-- Options by letters, of which the first counts. -/
  | short (letter : Char)
  /-- Anything else. -/
  | plain (s : String)
deriving DecidableEq, Repr

/-- The kind of an argument. -/
def Argument.ofString (s : String) : Argument :=
  match s.toList with
  | ['-', '-'] => .separator
  | '-' :: '-' :: r =>
      let parts := Text.splitFirst '=' r
      .long (String.ofList parts.1) (parts.2.map String.ofList)
  | '-' :: c :: _ => .short c
  | _ => .plain s

namespace Level

/-- Adds the value of an option. -/
def withValue (l : Level) (g : Given) (name value : String) : Except Stop Given :=
  match l.valued.lookup name with
  | none => .error (.usage (.unknownOption name))
  | some admits =>
      if (g.values.lookup name).isSome then .error (.usage (.repeated name))
      else if admits value then .ok { g with values := g.values ++ [(name, value)] }
      else .error (.usage (.badValue name value))

/-- Adds an option without a value. -/
def withFlag (g : Given) (name : String) : Except Stop Given :=
  if name ∈ g.flags then .error (.usage (.repeated name))
  else .ok { g with flags := g.flags ++ [name] }

/-- Adds an argument that is not an option. -/
def withPlain (l : Level) (g : Given) (s : String) : Except Stop Given :=
  if g.plain.length < l.plain then .ok { g with plain := g.plain ++ [s] }
  else .error (.usage (.unexpectedArgument s))

/-- What the letter of an option asks for. -/
def shortStop (l : Level) (c : Char) : Stop :=
  if c = 'h' then .help
  else if c = 'V' ∧ l.hasVersion then .version
  else .usage (.unknownOption (String.ofList ['-', c]))

/-- **Reads the arguments of a level**, up to the name of a command if one comes. -/
def read (l : Level) (g : Given) :
    List String → Except Stop (Given × Option (String × List String))
  | [] => .ok (g, none)
  | a :: rest =>
      match Argument.ofString a with
      | .separator => (rest.foldlM l.withPlain g).map fun g => (g, none)
      | .short c => .error (l.shortStop c)
      | .plain s =>
          if s ∈ l.commands then .ok (g, some (s, rest))
          else if l.commands ≠ [] then .error (.usage (.unknownCommand s))
          else (l.withPlain g s).bind fun g => read l g rest
      | .long name none =>
          if name = "help" then .error .help
          else if name = "version" ∧ l.hasVersion then .error .version
          else if name ∈ l.flags then (withFlag g name).bind fun g => read l g rest
          else if (l.valued.lookup name).isNone then .error (.usage (.unknownOption name))
          else
            match rest with
            | [] => .error (.usage (.missingValue name))
            | v :: rest =>
                match Argument.ofString v with
                | .plain value => (l.withValue g name value).bind fun g => read l g rest
                | _ => .error (.usage (.missingValue name))
      | .long name (some value) =>
          if name ∈ l.flags ∨ name = "help" then .error (.usage (.unexpectedValue name))
          else (l.withValue g name value).bind fun g => read l g rest

/-- Where nothing is given, nothing is added. -/
@[simp] theorem read_nil (l : Level) (g : Given) : l.read g [] = .ok (g, none) := by
  rw [read]

end Level

/-! ### The levels of the command line -/

/-- The number of a word of 64 bits. -/
def wordOf? (s : String) : Option Nat := (Text.uint64? s.toList).map UInt64.toNat

/-- The options about the output, which every level has. -/
def sharedValues : List (String × (String → Bool)) :=
  [("output", fun s => (OutputFormat.named? s).isSome)]

/-- Whether a text is a path. -/
def isPath (s : String) : Bool := !s.isEmpty

/-- Whether a text is the number of a word of 64 bits. -/
def isWord (s : String) : Bool := (wordOf? s).isSome

namespace Level

/-- The arguments before the name of a command. -/
def root : Level where
  valued := sharedValues
  flags := ["quiet"]
  commands := ["expand", "eval", "replay", "help"]
  hasVersion := true

/-- The arguments of the command that expands. -/
def expand : Level where
  valued := sharedValues ++ [("schema", isPath), ("slot", isWord), ("catalog-item", isWord),
    ("response", fun s => (ResponseKey.named? s).isSome), ("position", isWord)]
  flags := ["quiet"]
  plain := 1

/-- The arguments of the command that tests predicates. -/
def eval : Level where
  valued := sharedValues ++ [("predicates", isPath), ("state", isPath), ("schema", isPath),
    ("slot", isWord), ("catalog-item", isWord)]
  flags := ["quiet"]

/-- The arguments of the command that replays events. -/
def replay : Level where
  valued := sharedValues ++ [("events", isPath), ("config", isPath), ("interval-ms", isWord)]
  flags := ["quiet"]

end Level

/-! ### From arguments to commands -/

namespace Given

/-- The value of an option that must be given. -/
def required (g : Given) (name : String) : Except Stop String :=
  match g.values.lookup name with
  | none => .error (.usage (.missingArgument name))
  | some v => .ok v

/-- The number that an option gives. -/
def word? (g : Given) (name : String) : Option Nat := (g.values.lookup name).bind wordOf?

/-- The request to expand. -/
def expandRequest (g : Given) : Except Stop ExpandRequest :=
  match g.plain with
  | [] => .error (.usage (.missingArgument "template"))
  | template :: _ => do
      let schema ← g.required "schema"
      return { template, schema, slot := (g.word? "slot").getD 0,
               catalogItem := g.word? "catalog-item",
               response := (g.values.lookup "response").bind ResponseKey.named?,
               position := UInt64.ofNat ((g.word? "position").getD 0) }

/-- The request to test predicates. -/
def evalRequest (g : Given) : Except Stop EvalRequest := do
  let predicates ← g.required "predicates"
  let state ← g.required "state"
  return { predicates, state, schema := g.values.lookup "schema",
           slot := (g.word? "slot").getD 0, catalogItem := g.word? "catalog-item" }

/-- The request to replay events. -/
def replayRequest (g : Given) : Except Stop ReplayRequest := do
  let events ← g.required "events"
  return { events, config := g.values.lookup "config",
           interval := (g.word? "interval-ms").getD 0 }

/-- The format that an option gives. -/
def format? (g : Given) : Option OutputFormat := (g.values.lookup "output").bind OutputFormat.named?

end Given

namespace Invocation

/-- A command with what was given before and after its name. -/
def ofLevels (top given : Given) (command : Command) : Invocation where
  format := (given.format?.or top.format?).getD .text
  quiet := "quiet" ∈ top.flags || "quiet" ∈ given.flags
  command := command

/-- Reads the arguments after the name of a command. -/
def ofCommand (top : Given) (level : Level) (make : Given → Except Stop Command)
    (rest : List String) : Except Stop Invocation := do
  let r ← level.read {} rest
  let command ← make r.1
  return ofLevels top r.1 command

/-- What is asked for by asking for help. -/
def helpStop : List String → Stop
  | [] => .help
  | [name] => if name ∈ Level.root.commands then .help else .usage (.unknownCommand name)
  | _ :: name :: _ => .usage (.unknownCommand name)

/-- **What a command line asks for.** -/
def ofArguments (args : List String) : Except Stop Invocation :=
  match Level.root.read {} args with
  | .error stop => .error stop
  | .ok (_, none) => .error (.usage .noCommand)
  | .ok (top, some (name, rest)) =>
      if name = "expand" then
        ofCommand top .expand (fun g => g.expandRequest.map .expand) rest
      else if name = "eval" then ofCommand top .eval (fun g => g.evalRequest.map .eval) rest
      else if name = "replay" then
        ofCommand top .replay (fun g => g.replayRequest.map .replay) rest
      else .error (helpStop rest)

end Invocation

end OfferLayout
