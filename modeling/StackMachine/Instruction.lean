import StackMachine.Opcode
import StackMachine.Text.Decimal

/-!
# Operands and instructions

An instruction is an opcode with at most two operands; the bound is part of the type. The number of
operands is not checked against the opcode here: that is the business of execution.

`Instruction.render` writes the canonical statement, such as `MOV M1, 5`. A cell is written with the
character that names it in a statement, `M` followed by the character whose code point is the address
plus 48, so that `M1` is cell 1. An address for which there is no such character is written in angle
brackets, as in `M<-100>`.
-/

namespace StackMachine

/-- An argument of an instruction. -/
inductive Operand where
  /-- The memory cell with this address. Any address can be written; only 1 to 8 can be used. -/
  | memory (address : Int64)
  /-- A literal. -/
  | integer (value : Int64)
deriving DecidableEq, Repr

/-- The character that names a cell in a statement: the one at the address plus 48, if the sum is a
Unicode scalar value. -/
def cellName? (address : Int64) : Option Char :=
  let code := address.toInt + 48
  if 0 ≤ code ∧ code.toNat.isValidChar then some (Char.ofNat code.toNat) else none

/-- The address of the cell that a character names. -/
def cellAddress (name : Char) : Int64 :=
  Int64.ofInt ((name.toNat : Int) - 48)

/-- The text of an operand in a statement. -/
def Operand.render : Operand → String
  | .memory address =>
    match cellName? address with
    | some name => String.ofList ['M', name]
    | none => "M<" ++ String.ofList (Text.Decimal.ofInt address.toInt) ++ ">"
  | .integer value => String.ofList (Text.Decimal.ofInt value.toInt)

/-- The greatest number of operands of an instruction. -/
def maxOperands : Nat := 2

/-- An opcode with its operands. -/
structure Instruction where
  /-- What the instruction does. -/
  opcode : Opcode
  /-- What it does it to. -/
  operands : List Operand
  /-- There are never more than two operands. -/
  length_operands_le : operands.length ≤ maxOperands := by decide
deriving DecidableEq, Repr

namespace Instruction

/-- The instruction with the first two of the given operands. -/
def ofOperands (op : Opcode) (operands : List Operand) : Instruction where
  opcode := op
  operands := operands.take maxOperands
  length_operands_le := List.length_take_le maxOperands operands

/-- The instruction with one more operand, or the same instruction if there is no room. -/
def push (i : Instruction) (operand : Operand) : Instruction :=
  ofOperands i.opcode (i.operands ++ [operand])

/-- The canonical statement for the instruction. -/
def render (i : Instruction) : String :=
  match i.operands with
  | [] => i.opcode.mnemonic
  | operands => i.opcode.mnemonic ++ " " ++ ", ".intercalate (operands.map Operand.render)

@[simp] theorem opcode_ofOperands (op : Opcode) (operands : List Operand) :
    (ofOperands op operands).opcode = op := rfl

@[simp] theorem operands_ofOperands (op : Opcode) (operands : List Operand) :
    (ofOperands op operands).operands = operands.take maxOperands := rfl

/-- An instruction is made of its opcode and its operands. -/
theorem ofOperands_operands (i : Instruction) : ofOperands i.opcode i.operands = i := by
  cases i with
  | mk op operands h => simp [ofOperands, List.take_of_length_le h]

end Instruction

/-! ### Cell names -/

/-- The address of a cell with a name is 48 less than the code point of the name. -/
theorem toInt_cellAddress (name : Char) : (cellAddress name).toInt = (name.toNat : Int) - 48 := by
  have hlt : name.toNat < 0x110000 := by
    have hv := name.valid
    simp only [UInt32.isValidChar, Nat.isValidChar] at hv
    have he : name.val.toNat = name.toNat := rfl
    omega
  exact Int64.toInt_ofInt_of_le (by omega) (by omega)

/-- A cell named by a character has that character as its name. -/
theorem cellName?_cellAddress (name : Char) : cellName? (cellAddress name) = some name := by
  have hcode : ((name.toNat : Int) - 48 + 48).toNat = name.toNat := by omega
  simp only [cellName?, toInt_cellAddress, hcode]
  rw [if_pos ⟨by omega, name.valid⟩, Char.ofNat_toNat]

end StackMachine
