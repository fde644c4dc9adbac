import Mathlib.Tactic.Common
import StackMachine.Effect

/-!
# The cells of the memory

Every cell has one address (`State.cell_address`, `State.eq_address_of_cell`).  What a cell holds changes
only where this cell is written, and the cells together are all that there is in the memory
(`State.memory_ext`).
-/

namespace StackMachine.State

/-- The address of a cell. -/
def address (cell : Fin cellCount) : Int64 :=
  Int64.ofInt ((cell : Int) + 1)

@[simp] lemma cell_address (cell : Fin cellCount) : State.cell (address cell) = .ok cell := by
  revert cell
  decide

/-- A cell has no other address. -/
lemma eq_address_of_cell {address : Int64} {cell : Fin cellCount}
    (h : State.cell address = .ok cell) : address = State.address cell := by
  rw [← Int64.toInt_inj, cell_eq_ok_iff.1 h, cell_eq_ok_iff.1 (cell_address cell)]

/-- To write what a cell holds changes nothing. -/
lemma setCell_get (s : State) (cell : Fin cellCount) : s.setCell cell (s.memory.get cell) = s := by
  have hmemory : s.memory.set cell (s.memory.get cell) cell.isLt = s.memory :=
    Vector.set_getElem_self cell.isLt
  rw [setCell, hmemory]

@[simp] lemma get_memory_setCell (s : State) (cell : Fin cellCount) (value : Int64) :
    (s.setCell cell value).memory.get cell = value :=
  Vector.getElem_set_self _

lemma get_memory_setCell_of_ne {cell other : Fin cellCount} (h : other ≠ cell) (s : State)
    (value : Int64) : (s.setCell cell value).memory.get other = s.memory.get other :=
  Vector.getElem_set_ne cell.isLt other.isLt fun heq => h (Fin.ext heq).symm

/-- Writes into two cells do not depend on their order. -/
lemma setCell_comm {cell other : Fin cellCount} (h : other ≠ cell) (s : State) (value written : Int64) :
    (s.setCell other written).setCell cell value = (s.setCell cell value).setCell other written := by
  have hplaces : (other : Nat) ≠ cell := fun heq => h (Fin.ext heq)
  simp only [setCell, Vector.set_comm written value hplaces]

/-- The value of an operand with the address of a cell is the value of the cell. -/
lemma value_of_cell {s : State} {address : Int64} {cell : Fin cellCount}
    (hcell : State.cell address = .ok cell) : s.value (.memory address) = .ok (s.memory.get cell) := by
  simp only [value, read, hcell, Except.map]
  rfl

/-- A memory is given by the values of its cells. -/
lemma memory_ext {memory memory' : Vector Int64 cellCount}
    (h : ∀ cell, memory.get cell = memory'.get cell) : memory = memory' :=
  Vector.ext fun n hn => h ⟨n, hn⟩

end StackMachine.State
