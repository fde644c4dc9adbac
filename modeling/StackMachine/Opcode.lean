/-!
# Opcodes

The eleven opcodes of the machine, the mnemonic of each, and the category that the machine remembers of
the instruction it dispatched last. A comparison leaves one of three results for the jumps to look at.
-/

namespace StackMachine

/-- What an instruction does. -/
inductive Opcode where
  /-- Replaces the two top values of the stack by their sum. -/
  | add
  /-- Replaces the two top values of the stack by their product. -/
  | mul
  /-- Copies a value into a memory cell. -/
  | mov
  /-- Puts a value on the stack. -/
  | push
  /-- Moves the top of the stack into a memory cell. -/
  | pop
  /-- Compares two values. -/
  | cmp
  /-- Jumps on equality, or on zero. -/
  | jz
  /-- Jumps on inequality, or on a value other than zero. -/
  | jnz
  /-- Jumps on "greater than", or on a positive value. -/
  | jpos
  /-- Emits a value. -/
  | output
  /-- Ends the program. -/
  | exit
deriving DecidableEq, Repr

/-- The kind of the instruction dispatched last; `none` before the first one. -/
inductive Category where
  | none
  | data
  | comparison
  | jump
  | exit
deriving DecidableEq, Repr

/-- The result of a comparison, seen from its first operand. -/
inductive Comparison where
  | equal
  | greaterThan
  | lessThan
deriving DecidableEq, Repr

/-- How the first of two values compares with the second. -/
def Comparison.of (lhs rhs : Int64) : Comparison :=
  if lhs < rhs then .lessThan else if rhs < lhs then .greaterThan else .equal

namespace Opcode

/-- All opcodes. -/
def all : List Opcode :=
  [add, mul, mov, push, pop, cmp, jz, jnz, jpos, output, exit]

/-- The word that stands for the opcode in a statement, in upper case. -/
def mnemonic : Opcode → String
  | add => "ADD"
  | mul => "MUL"
  | mov => "MOV"
  | push => "PUSH"
  | pop => "POP"
  | cmp => "CMP"
  | jz => "JZ"
  | jnz => "JNZ"
  | jpos => "JPOS"
  | output => "OUTPUT"
  | exit => "EXIT"

/-- The opcode with the given mnemonic. Case matters, and so do blanks. -/
def ofMnemonic? (word : String) : Option Opcode :=
  all.find? (·.mnemonic == word)

/-- The category that an instruction with this opcode leaves behind. -/
def category : Opcode → Category
  | add | mul | mov | push | pop | output => .data
  | cmp => .comparison
  | jz | jnz | jpos => .jump
  | exit => .exit

/-- Whether the opcode is one of the three jumps. -/
def isJump (op : Opcode) : Bool :=
  op.category == .jump

theorem mem_all (op : Opcode) : op ∈ all := by
  cases op <;> decide

/-- Only an `EXIT` has its category. -/
theorem category_eq_exit_iff {op : Opcode} : op.category = .exit ↔ op = .exit := by
  cases op <;> decide

/-- Only a `CMP` has its category. -/
theorem category_eq_comparison_iff {op : Opcode} : op.category = .comparison ↔ op = .cmp := by
  cases op <;> decide

/-- Each mnemonic belongs to one opcode. -/
theorem ofMnemonic?_eq_some_iff {word : String} {op : Opcode} :
    ofMnemonic? word = some op ↔ op.mnemonic = word := by
  constructor
  · intro h
    simpa using List.find?_some h
  · rintro rfl
    cases op <;> decide

end Opcode

end StackMachine
