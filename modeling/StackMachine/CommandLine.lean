import StackMachine.Listing
import StackMachine.Session

/-!
# The command line

    run FILE [--max-steps N] [--dump-state]     runs a program
    check FILE                                  shows the listing of a program
    repl                                        holds a session

The flag `-v` or `--verbose` may be given once before the command and once behind it; it has no influence
on what is written here. Options stand before or after the file. Behind `--` there are no options. All
else is a usage error.

`Command.ofArguments?` reads the arguments, and `Command.perform` carries a command out, given what its
file and the standard input hold.
-/

namespace StackMachine

/-- A command with its arguments. -/
inductive Command where
  /-- Runs the program in a file, with a step limit or without, and shows the state at the end or not. -/
  | run (file : String) (limit : Option Nat) (showState : Bool)
  /-- Shows the listing of the program in a file. -/
  | check (file : String)
  /-- Holds a session on the standard input. -/
  | repl
deriving DecidableEq, Repr

/-! ### Reading the arguments -/

/-- The arguments behind a command, sorted. -/
structure Arguments where
  /-- The arguments that are no options. -/
  files : List String := []
  /-- The value of `--max-steps`. -/
  limit : Option Nat := none
  /-- Whether `--dump-state` is given. -/
  showState : Bool := false
  /-- Whether `-v` or `--verbose` is given. -/
  verbose : Bool := false

namespace Arguments

/-- Takes the step limit into account, unless there is one already. -/
def addLimit (arguments : Arguments) (numeral : List Char) : Option Arguments :=
  match arguments.limit, Text.Decimal.uint64? numeral with
  | none, some limit => some { arguments with limit := some limit }
  | _, _ => none

/-- What follows the equals sign in `--max-steps=N`. -/
def limitText? (argument : String) : Option (List Char) :=
  let option := "--max-steps=".toList
  if option.isPrefixOf argument.toList then some (argument.toList.drop option.length) else none

/-- Takes one argument into account that needs no other one, if this is possible. -/
def add (arguments : Arguments) (argument : String) : Option Arguments :=
  if argument = "-v" ∨ argument = "--verbose" then
    if arguments.verbose then none else some { arguments with verbose := true }
  else if argument = "--dump-state" then
    if arguments.showState then none else some { arguments with showState := true }
  else
    match limitText? argument with
    | some numeral => arguments.addLimit numeral
    | none =>
      if argument.startsWith "-" ∧ argument ≠ "-" then none
      else some { arguments with files := arguments.files ++ [argument] }

/-- Takes further arguments into account. -/
def addAll (arguments : Arguments) : List String → Option Arguments
  | [] => some arguments
  | "--" :: rest => some { arguments with files := arguments.files ++ rest }
  | "--max-steps" :: numeral :: rest => (arguments.addLimit numeral.toList).bind (·.addAll rest)
  | argument :: rest => (arguments.add argument).bind (·.addAll rest)

/-- The one file, if there is one with a name. -/
def file? (arguments : Arguments) : Option String :=
  match arguments.files with
  | [file] => if file = "" then none else some file
  | _ => none

end Arguments

namespace Command

/-- The command that its name and the arguments behind it stand for. -/
def ofWords? : List String → Option Command
  | [] => none
  | name :: rest =>
    (Arguments.addAll {} rest).bind fun arguments =>
      if name = "run" then arguments.file?.map (.run · arguments.limit arguments.showState)
      else if arguments.limit.isSome || arguments.showState then none
      else if name = "check" then arguments.file?.map .check
      else if name = "repl" ∧ arguments.files = [] then some .repl
      else none

/-- The command that the arguments stand for, unless they are a usage error. -/
def ofArguments? : List String → Option Command
  | "-v" :: rest | "--verbose" :: rest => ofWords? rest
  | arguments => ofWords? arguments

end Command

/-! ### Carrying out a command -/

/-- What there is at a place in the file system. -/
inductive Source where
  /-- Nothing. -/
  | missing
  /-- Something that is no readable file. -/
  | unreadable
  /-- A file with these bytes. -/
  | file (contents : ByteArray)

/-- The program that a source holds, if it is text. -/
def Source.program? : Source → Option Program
  | .missing | .unreadable => none
  | .file contents => (String.fromUTF8? contents).map .ofText

/-- What comes of a command. -/
structure Outcome where
  /-- What is written to the standard output. -/
  output : ByteArray
  /-- The exit code. -/
  exitCode : UInt32

namespace Outcome

/-- A text is written, and the exit code tells whether all went well. -/
def ofText (text : String) (good : Bool) : Outcome :=
  ⟨text.toUTF8, if good then 0 else 1⟩

/-- The answer to a usage error. -/
def usageError : Outcome :=
  ⟨.empty, 2⟩

end Outcome

namespace Run

/-- What is shown of a run: a line for each event and then, on request and unless the run was broken off,
the state. -/
def render (run : Run) (showState : Bool) : String :=
  let reports := String.join (run.events.toList.map fun event => event.report ++ "\n")
  match run.result with
  | .error _ => reports
  | .ok _ => if showState then reports ++ run.state.dump else reports

/-- The outcome of a run. -/
def outcome (run : Run) (showState : Bool) : Outcome :=
  .ofText (run.render showState) run.result.isOk

end Run

/-- The outcome of a listing. -/
def Listing.outcome (listing : Listing) : Outcome :=
  .ofText listing.render listing.failures.isEmpty

/-- The outcome of a session. -/
def Session.outcome (session : Session) : Outcome :=
  ⟨session.written, if session.ending.isRegular then 0 else 1⟩

/-- The answer to a program that is not there or is no text. -/
def Source.refusal : Source → Outcome
  | .missing => .ofText "File not found. Invalid path.\n" false
  | .unreadable | .file _ => .ofText "" false

namespace Command

/-- The outcome of a command, given what there is at each path and what the standard input holds. There is
none if the command runs a program that does not end. -/
def perform (command : Command) (source : String → Source) (input : ByteArray) : Option Outcome :=
  match command with
  | .run file limit showState =>
    match (source file).program? with
    | none => some (source file).refusal
    | some program => (program.run limit .initial #[]).map (·.outcome showState)
  | .check file =>
    match (source file).program? with
    | none => some (source file).refusal
    | some program => some program.listing.outcome
  | .repl => some (Session.run .initial (.new none) input).outcome

end Command

end StackMachine
