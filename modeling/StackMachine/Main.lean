import StackMachine.CommandLine

/-!
# The program

`main` reads the arguments and the file, and writes the outcome of the command. A session is held line by
line, so that each answer can be read before the next line is entered.
-/

namespace StackMachine

/-- What there is at a path. -/
def readSource (path : String) : IO Source := do
  try
    return .file (← IO.FS.readBinFile path)
  catch
    | .noFileOrDirectory .. => return .missing
    | _ => return .unreadable

/-- Holds a session. -/
partial def converse (input output : IO.FS.Stream) (s : State) : IO UInt32 := do
  output.putStr Session.prompt
  output.flush
  match Text.charLines (← input.getLine) with
  | [] => return 0
  | line :: _ =>
    let answer := s.answer line
    answer.texts.forM output.putStr
    if answer.isLast then return 0 else converse input output answer.state

/-- Carries out a command. -/
def execute (command : Command) (input output : IO.FS.Stream) : IO UInt32 := do
  match command with
  | .repl => converse input output .initial
  | .run file .. | .check file =>
    let source ← readSource file
    match command.perform (fun _ => source) .empty with
    | none => return 1
    | some outcome =>
      output.write outcome.output
      return outcome.exitCode

end StackMachine

/-- Carries out the command that the arguments stand for. -/
def main (arguments : List String) : IO UInt32 := do
  match StackMachine.Command.ofArguments? arguments with
  | some command => StackMachine.execute command (← IO.getStdin) (← IO.getStdout)
  | none =>
    (← IO.getStderr).putStrLn "usage: run FILE [--max-steps N] [--dump-state] | check FILE | repl"
    return StackMachine.Outcome.usageError.exitCode
