import StackMachine.Text.Decimal

/-!
# What can go wrong

A `Fault` is the reason why one line fails. It does not end a run: the line is reported as a
`LineFailure` and skipped. A `RunError` ends a run.

All texts that are shown to a user are written here.
-/

namespace StackMachine

/-- The reason why a line cannot be read or executed. -/
inductive Fault where
  /-- The stack holds fewer values than the instruction takes. -/
  | stackUnderflow
  /-- The statement or the instruction has a wrong number of operands. -/
  | operandCount
  /-- An operand is of the wrong kind for its position. -/
  | operandKind
  /-- A jump on the comparison does not follow a comparison. -/
  | jumpWithoutComparison
  /-- The first word of the statement is no mnemonic. -/
  | unknownKeyword
  /-- A cell is named by more or less than one character, or has an address outside 1 to 8. -/
  | badAddress
  /-- An operand that does not name a cell is no 64-bit numeral. -/
  | badInteger (token : String)
deriving DecidableEq, Repr

/-- The text for a fault. -/
def Fault.message : Fault → String
  | .stackUnderflow => "Stack not ready to execute this instruction"
  | .operandCount => "Invalid number of parameters"
  | .operandKind => "Invalid operand"
  | .jumpWithoutComparison => "Illegal Instruction: Last instruction was not a comparison"
  | .unknownKeyword => "Invalid command"
  | .badAddress => "Illegal memory address"
  | .badInteger token => "Invalid integer literal '" ++ token ++ "'"

/-- A line that failed. -/
structure LineFailure where
  /-- The number of the line, from 1. -/
  line : Nat
  /-- The line as it stands in the program. -/
  text : String
  /-- Why it failed. -/
  fault : Fault
deriving DecidableEq, Repr

/-- The report on a line with the given text. It does not name the line's number. -/
def failureReport (text : String) (fault : Fault) : String :=
  "Instruction failed \"" ++ text ++ "\" Error: " ++ fault.message

/-- The report on the failure. -/
def LineFailure.report (failure : LineFailure) : String :=
  failureReport failure.text failure.fault

/-- The reason why a run ends before its program does. -/
inductive RunError where
  /-- The jump at the given line, counted from 1, leads to a place before the first line. -/
  | jumpBeforeStart (line : Nat) (distance : Int64)
  /-- The run has already dispatched as many instructions as it may. -/
  | stepLimit (limit : Nat)
deriving DecidableEq, Repr

/-- The text for a run error. -/
def RunError.message : RunError → String
  | .jumpBeforeStart line distance =>
    "jump of " ++ String.ofList (Text.Decimal.ofInt distance.toInt) ++ " from line " ++
      String.ofList (Text.Decimal.ofNat line) ++ " lands before the start of the program"
  | .stepLimit limit =>
    "execution step limit exceeded (" ++ String.ofList (Text.Decimal.ofNat limit) ++ ")"

end StackMachine
