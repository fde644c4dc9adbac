import StackMachine.Format
import StackMachine.State

/-!
# Saved instructions and states

The saved forms of the machine's data:

    "Mov"                                                         an opcode, a category or a comparison
    {"Memory": 1}, {"Integer": 5}                                 an operand
    {"opcode": "Mov", "slots": [{"Memory": 1}, {"Integer": 5}], "len": 2}
    {"memory": [0, 0, 0, 0, 0, 0, 0, 0], "stack": [], "last_category": "None", "comparison": "Equal"}

An instruction is saved as a `Record` with two slots and the number of slots in use. A record may claim
more slots than it has; it is read and written all the same, but it stands for no instruction. The stack
of a saved state has its bottom first.
-/

namespace StackMachine

/-! ### Names -/

/-- The name under which an opcode is saved. -/
def Opcode.name : Opcode → String
  | .add => "Add"
  | .mul => "Mul"
  | .mov => "Mov"
  | .push => "Push"
  | .pop => "Pop"
  | .cmp => "Cmp"
  | .jz => "Jz"
  | .jnz => "Jnz"
  | .jpos => "Jpos"
  | .output => "Output"
  | .exit => "Exit"

/-- The name under which a category is saved. -/
def Category.name : Category → String
  | .none => "None"
  | .data => "Data"
  | .comparison => "Comparison"
  | .jump => "Jump"
  | .exit => "Exit"

/-- The name under which a comparison is saved. -/
def Comparison.name : Comparison → String
  | .equal => "Equal"
  | .greaterThan => "GreaterThan"
  | .lessThan => "LessThan"

/-- The saved form of an opcode. -/
def Opcode.format : Format Opcode :=
  .named all name

/-- The saved form of a category. -/
def Category.format : Format Category :=
  .named [.none, .data, .comparison, .jump, .exit] name

/-- The saved form of a comparison. -/
def Comparison.format : Format Comparison :=
  .named [.equal, .greaterThan, .lessThan] name

/-! ### Operands and instructions -/

/-- The saved form of an operand: its kind with its word. -/
def Operand.format : Format Operand where
  write
    | .memory address => .obj [("Memory", Format.word.write address)]
    | .integer value => .obj [("Integer", Format.word.write value)]
  read?
    | .obj [("Memory", address)] => (Format.word.read? address).map .memory
    | .obj [("Integer", value)] => (Format.word.read? value).map .integer
    | _ => none

/-- What is saved of an instruction. -/
structure Record where
  /-- What the instruction does. -/
  opcode : Opcode
  /-- The operands, and whatever is in the slots not in use. -/
  slots : Vector Operand maxOperands
  /-- The number of slots in use. -/
  count : UInt64
deriving DecidableEq, Repr

namespace Record

/-- The record of an instruction. A slot not in use holds the literal 0. -/
def ofInstruction (i : Instruction) : Record where
  opcode := i.opcode
  slots := .ofFn fun slot => i.operands.getD slot (.integer 0)
  count := .ofNat i.operands.length

/-- The saved form of a record. -/
def format : Format Record where
  write record := .obj [
    ("opcode", Opcode.format.write record.opcode),
    ("slots", (Operand.format.vector maxOperands).write record.slots),
    ("len", Format.count.write record.count)]
  read? saved :=
    match Format.fields? ["opcode", "slots", "len"] saved with
    | some [opcode, slots, count] => do
      return {
        opcode := ← Opcode.format.read? opcode
        slots := ← (Operand.format.vector maxOperands).read? slots
        count := ← Format.count.read? count }
    | _ => none

end Record

/-! ### States -/

namespace State

/-- The saved form of a state. -/
def format : Format State where
  write s := .obj [
    ("memory", (Format.word.vector cellCount).write s.memory),
    ("stack", Format.word.list.write s.stack.reverse),
    ("last_category", Category.format.write s.lastCategory),
    ("comparison", Comparison.format.write s.comparison)]
  read? saved :=
    match Format.fields? ["memory", "stack", "last_category", "comparison"] saved with
    | some [memory, stack, lastCategory, comparison] => do
      return {
        memory := ← (Format.word.vector cellCount).read? memory
        stack := (← Format.word.list.read? stack).reverse
        lastCategory := ← Category.format.read? lastCategory
        comparison := ← Comparison.format.read? comparison }
    | _ => none

/-- The text in which a state is shown. -/
def dump (s : State) : String :=
  (format.write s).render ++ "\n"

end State

/-! ### Reading back -/

theorem Opcode.format_faithful : Opcode.format.Faithful :=
  Format.named_faithful mem_all fun a b => by cases a <;> cases b <;> decide

theorem Category.format_faithful : Category.format.Faithful :=
  Format.named_faithful (fun a => by cases a <;> decide) fun a b => by cases a <;> cases b <;> decide

theorem Comparison.format_faithful : Comparison.format.Faithful :=
  Format.named_faithful (fun a => by cases a <;> decide) fun a b => by cases a <;> cases b <;> decide

theorem Operand.format_faithful : Operand.format.Faithful := by
  rintro (address | value) <;> simp [Operand.format, Format.word_faithful _]

theorem Record.format_faithful : Record.format.Faithful := by
  intro record
  simp [Record.format, Format.fields?, Format.member?, Opcode.format_faithful _,
    Format.vector_faithful Operand.format_faithful _ _, Format.count_faithful _]

theorem State.format_faithful : State.format.Faithful := by
  intro s
  simp [State.format, Format.fields?, Format.member?, Format.vector_faithful Format.word_faithful _ _,
    Format.list_faithful Format.word_faithful _, Category.format_faithful _,
    Comparison.format_faithful _]

end StackMachine
