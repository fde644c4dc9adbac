import StackMachine.Proofs.InstructionTable
import StackMachine.Proofs.RunImages

/-!
# Machines with their data in other places

An instruction finds its data by addresses and on top of the stack.  It should not matter to it where
else the data are: which cell of the memory an address belongs to, what the cells hold that it does not
name, and what lies further down on the stack.

A `Relocation` moves the data of a machine.  If it carries every operand of an instruction
(`Relocation.Carries`), then the same row of the instruction table applies on the relocated machine
(`row_map`), unless the instruction fails for want of values on the stack: then it could reach what has been
put underneath.  So the instruction does the same (`effect_instruction`), and `imitates` says what this means
for a line of a program.
-/

namespace StackMachine

/-- Other places for the data of a machine. -/
structure Relocation where
  /-- The address in the place of an address. -/
  address : Int64 → Int64
  /-- The memory in the place of a memory. -/
  memory : Vector Int64 cellCount → Vector Int64 cellCount
  /-- The values that are put underneath the stack. -/
  base : List Int64

namespace Relocation

/-- The state with its data in their new places. -/
def state (r : Relocation) (s : State) : State :=
  { s with memory := r.memory s.memory, stack := s.stack ++ r.base }

/-- The operand with its new address. -/
def operand (r : Relocation) : Operand → Operand
  | .memory address => .memory (r.address address)
  | .integer value => .integer value

/-- The instruction with its new addresses. -/
def instruction (r : Relocation) (i : Instruction) : Instruction where
  opcode := i.opcode
  operands := i.operands.map r.operand
  length_operands_le := by simpa using i.length_operands_le

/-- The access by an address is carried over to its new address: both have no cell, with the same fault, or
a value that is written by the one appears where the other one writes it. -/
inductive CarriesAddress (r : Relocation) (address : Int64) : Prop where
  | fault {fault : Fault} (hcell : State.cell address = .error fault)
    (hcell' : State.cell (r.address address) = .error fault)
  | cell {cell cell' : Fin cellCount} (hcell : State.cell address = .ok cell)
    (hcell' : State.cell (r.address address) = .ok cell')
    (hset : ∀ s value, r.state (s.setCell cell value) = (r.state s).setCell cell' value)

/-- The access to an operand is carried over. -/
def Carries (r : Relocation) : Operand → Prop
  | .memory address => r.CarriesAddress address
  | .integer _ => True

variable {r : Relocation} {s : State} {operands : List Operand}

@[simp] lemma operand_memory (r : Relocation) (address : Int64) :
    r.operand (.memory address) = .memory (r.address address) := rfl

/-! ### Operands -/

/-- Where writes are carried over, reads are: to write what a cell holds changes nothing. -/
lemma get_memory_state {cell cell' : Fin cellCount}
    (hset : ∀ s value, r.state (s.setCell cell value) = (r.state s).setCell cell' value) (s : State) :
    (r.state s).memory.get cell' = s.memory.get cell := by
  have hself : r.state s = (r.state s).setCell cell' (s.memory.get cell) := by
    rw [← hset, State.setCell_get]
  rw [hself, State.get_memory_setCell]

variable {operand : Operand} {value address : Int64}

/-- Where there is a cell, there is one in the new place, and values are written into the one as into the
other. -/
lemma exists_cell_address (h : r.CarriesAddress address) {cell : Fin cellCount}
    (hcell : address.toInt = (cell : Int) + 1) :
    ∃ cell' : Fin cellCount, (r.address address).toInt = (cell' : Int) + 1 ∧
      ∀ s value, r.state (s.setCell cell value) = (r.state s).setCell cell' value := by
  have hok := State.cell_eq_ok_iff.2 hcell
  cases h with
  | fault hfault _ =>
    rw [hok] at hfault
    cases hfault
  | @cell cell₀ cell' hcell₀ hcell' hset =>
    obtain rfl : cell = cell₀ := Except.ok.inj (hok.symm.trans hcell₀)
    exact ⟨cell', State.cell_eq_ok_iff.1 hcell', hset⟩

/-- An operand that is carried over has the same value. -/
lemma reads_operand (hcarries : r.Carries operand) (h : s.Reads operand value) :
    (r.state s).Reads (r.operand operand) value := by
  cases h with
  | integer => exact .integer value
  | memory cell hcell =>
    obtain ⟨cell', hcell', hset⟩ := exists_cell_address hcarries hcell
    rw [← get_memory_state hset s]
    exact .memory cell' hcell'

lemma addressable_address (h : r.CarriesAddress address) :
    Addressable (r.address address) ↔ Addressable address := by
  cases h with
  | fault hcell hcell' =>
    exact iff_of_false (State.cell_eq_error_iff.1 hcell').2 (State.cell_eq_error_iff.1 hcell).2
  | cell hcell hcell' _ =>
    exact iff_of_true (addressable_iff_exists_cell.2 ⟨_, State.cell_eq_ok_iff.1 hcell'⟩)
      (addressable_iff_exists_cell.2 ⟨_, State.cell_eq_ok_iff.1 hcell⟩)

/-- An operand that has no value has none in its new place. -/
lemma dangling_operand (hcarries : r.Carries operand) (h : operand.Dangling) :
    (r.operand operand).Dangling := by
  cases h with
  | memory h => exact .memory (mt (addressable_address hcarries).1 h)

/-! ### Instructions -/

/-- The effect does not fail for want of values on the stack, or there is nothing underneath. -/
def Spares (r : Relocation) (effect : Effect) : Prop :=
  r.base = [] ∨ effect.outcome ≠ .error .stackUnderflow

/-- The rows of the instruction table are the same for a relocated machine. -/
lemma row_map {op : Opcode} {effect : Effect} (h : Row s op operands effect)
    (hcarries : ∀ operand ∈ operands, r.Carries operand) (hspares : r.Spares effect) :
    Row (r.state s) op (operands.map r.operand) (effect.mapState r.state) := by
  cases h with
  | wrongCount h => exact .wrongCount (by rwa [List.length_map])
  | shortStack hop h =>
    have hbase : r.base = [] := hspares.resolve_right (not_not.2 rfl)
    exact .shortStack hop (by rwa [state, hbase, List.append_nil])
  | sum hstack hvalue => exact .sum (congrArg (· ++ r.base) hstack) hvalue
  | product hstack hvalue => exact .product (congrArg (· ++ r.base) hstack) hvalue
  | movToLiteral => exact .movToLiteral
  | @movNowhere target source h =>
    have htarget : r.CarriesAddress target := hcarries (.memory target) (by simp)
    have hsource : r.Carries source := hcarries source (by simp)
    exact .movNowhere (h.imp (mt (addressable_address htarget).1) (dangling_operand hsource))
  | @mov target source value cell htarget hsource =>
    obtain ⟨cell', htarget', hset⟩ := exists_cell_address (hcarries (.memory target) (by simp)) htarget
    rw [Effect.mapState_next, hset]
    exact .mov htarget' (reads_operand (hcarries source (by simp)) hsource)
  | @cmpNothing lhs rhs h =>
    exact .cmpNothing (h.imp (dangling_operand (hcarries lhs (by simp)))
      (dangling_operand (hcarries rhs (by simp))))
  | @cmp lhs rhs _ _ _ hlhs hrhs horder =>
    exact .cmp (reads_operand (hcarries lhs (by simp)) hlhs)
      (reads_operand (hcarries rhs (by simp)) hrhs) horder
  | pushNothing h => exact .pushNothing (dangling_operand (hcarries _ (by simp)) h)
  | push h => exact .push (reads_operand (hcarries _ (by simp)) h)
  | outputNothing h => exact .outputNothing (dangling_operand (hcarries _ (by simp)) h)
  | output h => exact .output (reads_operand (hcarries _ (by simp)) h)
  | popToLiteral => exact .popToLiteral
  | @popNowhere target h =>
    exact .popNowhere (mt (addressable_address (hcarries (.memory target) (by simp))).1 h)
  | @popNothing target htarget hstack =>
    have hbase : r.base = [] := hspares.resolve_right (not_not.2 rfl)
    exact .popNothing ((addressable_address (hcarries (.memory target) (by simp))).2 htarget)
      (by rw [state, hbase, List.append_nil, hstack])
  | @pop target value rest cell htarget hstack =>
    obtain ⟨cell', htarget', hset⟩ := exists_cell_address (hcarries (.memory target) (by simp)) htarget
    have hstate : r.state { s.setCell cell value with stack := rest } =
        { (r.state s).setCell cell' value with stack := rest ++ r.base } := hset { s with stack := rest } value
    rw [Effect.mapState_next, hstate]
    exact .pop htarget' (congrArg (· ++ r.base) hstack)
  | jumpUnprepared hop h => exact .jumpUnprepared hop h
  | jumpByCell hop h => exact .jumpByCell hop h
  | jumpTaken hop h hholds => exact .jumpTaken hop h hholds
  | jumpPassed hop h hholds => exact .jumpPassed hop h hholds
  | branchByCell hop => exact .branchByCell hop
  | branchOnNothing hop h => exact .branchOnNothing hop (dangling_operand (hcarries _ (by simp)) h)
  | branchTaken hop h hholds => exact .branchTaken hop (reads_operand (hcarries _ (by simp)) h) hholds
  | branchPassed hop h hholds => exact .branchPassed hop (reads_operand (hcarries _ (by simp)) h) hholds
  | exit => exact .exit

/-- So an opcode does the same on a relocated machine. -/
lemma effect_opcode {op : Opcode} (h : ∀ operand ∈ operands, r.Carries operand)
    (hspares : r.Spares (op.effect s operands)) :
    op.effect (r.state s) (operands.map r.operand) = (op.effect s operands).mapState r.state :=
  (row_map (op.row_effect s operands) h hspares).effect_eq

/-- So does an instruction. -/
theorem effect_instruction {i : Instruction} (h : ∀ operand ∈ i.operands, r.Carries operand)
    (hspares : r.Spares (i.effect s)) :
    (r.instruction i).effect (r.state s) = (i.effect s).mapState r.state := by
  have heffect : i.opcode.effect (r.state s) (i.operands.map r.operand) =
      (i.opcode.effect s i.operands).mapState r.state := effect_opcode h hspares
  simp only [Instruction.effect, instruction, heffect]
  rfl

/-- An instruction whose addresses stay is the same instruction. -/
lemma instruction_eq_self (h : r.address = id) (i : Instruction) : r.instruction i = i := by
  have hoperand : r.operand = id := by
    funext operand
    cases operand <;> simp [operand, h]
  cases i with
  | mk op operands hlength => simp only [instruction, hoperand, List.map_id]

/-! ### Lines -/

variable {g : String → String} {limit : Option Nat} {p : Progress} {text : String}

/-- A line does the same if it stands for the relocated instruction in its new form, or for no instruction
as before, and if the operands of the instruction are carried over. -/
lemma imitates
    (hparse : Statement.parse (g text) = (Statement.parse text).map (Option.map r.instruction))
    (hcarries : ∀ i, Statement.parse text = .ok (some i) → ∀ operand ∈ i.operands, r.Carries operand)
    (hspares : ∀ i, Statement.parse text = .ok (some i) →
      (∀ max, limit = some max → p.steps < max) → r.Spares (i.effect p.state)) :
    p.Imitates r.state g limit text := by
  rcases hread : Statement.parse text with fault | _ | i
  · rw [hread] at hparse
    exact .fault hread hparse
  · rw [hread] at hparse
    exact .nothing hread hparse
  · rw [hread] at hparse
    exact .instruction hread hparse fun hfree =>
      effect_instruction (hcarries i hread) (hspares i hread hfree)

/-- The same without a change of the text, where all addresses stay. -/
lemma imitates_self (haddress : r.address = id)
    (hcarries : ∀ i, Statement.parse text = .ok (some i) → ∀ operand ∈ i.operands, r.Carries operand)
    (hspares : ∀ i, Statement.parse text = .ok (some i) →
      (∀ max, limit = some max → p.steps < max) → r.Spares (i.effect p.state)) :
    p.Imitates r.state id limit text := by
  refine imitates ?_ hcarries hspares
  have hself : r.instruction = id := funext (instruction_eq_self haddress)
  rw [hself, id]
  rcases Statement.parse text with fault | _ | i <;> rfl

end Relocation

end StackMachine
