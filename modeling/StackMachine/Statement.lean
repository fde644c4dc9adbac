import StackMachine.Fault
import StackMachine.Instruction
import StackMachine.Text.Blank
import StackMachine.Text.UpperCase

/-!
# Statements

A line holds at most one statement, a keyword with operands, and a comment after the first semicolon:

    [keyword [operand ["," operand]]] [";" comment]

`Statement.parse` reads it. The keyword is a mnemonic in any case. An operand is `M` or `m` with one
character, which names a cell, or a signed 64-bit numeral; blanks around it do not count. A line without
a statement is no fault: it reads as no instruction.

Of several faults in one line the first of these is reported: an unknown keyword, a third operand, the
first operand that cannot be read.
-/

namespace StackMachine

/-- Reads one operand, with blanks around it or not. -/
def Operand.parse (token : List Char) : Except Fault Operand :=
  match Text.trim token with
  | 'M' :: name | 'm' :: name =>
    match name with
    | [c] => .ok (.memory (cellAddress c))
    | _ => .error .badAddress
  | numeral =>
    match Text.Decimal.int64? numeral with
    | some value => .ok (.integer value)
    | none => .error (.badInteger (String.ofList numeral))

namespace Statement

/-- The part of a line before the comment. -/
def code (line : List Char) : List Char :=
  line.takeWhile (· ≠ ';')

/-- The first word of a statement. -/
def keyword (code : List Char) : List Char :=
  (Text.trimStart code).takeWhile (! Text.isBlank ·)

/-- What follows the first word of a statement, from the blank that ends the word. -/
def argumentText (code : List Char) : List Char :=
  (Text.trimStart code).dropWhile (! Text.isBlank ·)

/-- The opcode that a keyword stands for in any case. -/
def opcode? (keyword : List Char) : Option Opcode :=
  Opcode.ofMnemonic? (String.ofList (Text.toUpperCase keyword))

/-- Reads the operands behind a keyword. -/
def parseOperands (text : List Char) : Except Fault (List Operand) :=
  if text.all Text.isBlank then .ok []
  else
    let tokens := text.splitOn ','
    if maxOperands < tokens.length then .error .operandCount else tokens.mapM Operand.parse

/-- Reads the statement of a line, if it has one. -/
def parse (line : String) : Except Fault (Option Instruction) :=
  let code := code line.toList
  if code.all Text.isBlank then .ok none
  else
    match opcode? (keyword code) with
    | none => .error .unknownKeyword
    | some op =>
      match parseOperands (argumentText code) with
      | .error fault => .error fault
      | .ok operands => .ok (some (.ofOperands op operands))

end Statement

end StackMachine
