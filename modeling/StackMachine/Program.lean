import StackMachine.Text.Lines

/-!
# Programs

A program is a sequence of lines of text. Positions count its lines from 0, and the numbers that are
shown count them from 1. Nothing is read before it is needed, so a program may hold lines that are no
statements.
-/

namespace StackMachine

/-- The lines of a program. -/
structure Program where
  /-- The lines, in order. -/
  lines : Array String

namespace Program

/-- The program that a text holds, one line of text for each line. -/
def ofText (text : String) : Program :=
  ⟨(Text.charLines text).toArray⟩

/-- The number of lines. -/
def length (program : Program) : Nat :=
  program.lines.size

end Program

end StackMachine
