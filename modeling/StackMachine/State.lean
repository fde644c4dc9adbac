import StackMachine.Fault
import StackMachine.Instruction

/-!
# The state of the machine

Eight memory cells, a stack, and two flags: the category of the instruction dispatched last and the
result of the last comparison. Cells have the addresses 1 to 8. Access to any other address is a fault,
and so is taking a value from the empty stack; neither changes the state.
-/

namespace StackMachine

/-- The number of memory cells. -/
def cellCount : Nat := 8

/-- Everything that an instruction can read or change. -/
structure State where
  /-- The cells, from address 1. -/
  memory : Vector Int64 cellCount
  /-- The stack, top first. -/
  stack : List Int64
  /-- The category of the instruction dispatched last. -/
  lastCategory : Category
  /-- The result of the last comparison. -/
  comparison : Comparison
deriving DecidableEq, Repr

namespace State

/-- The state of a new machine. -/
def initial : State where
  memory := Vector.replicate cellCount 0
  stack := []
  lastCategory := .none
  comparison := .equal

/-- The place in memory of the cell with the given address. -/
def cell (address : Int64) : Except Fault (Fin cellCount) :=
  if h : 1 ≤ address.toInt ∧ address.toInt ≤ cellCount then
    .ok ⟨(address.toInt - 1).toNat, by omega⟩
  else .error .badAddress

/-- The value of the cell with the given address. -/
def read (s : State) (address : Int64) : Except Fault Int64 :=
  (cell address).map fun i => s.memory[i]

/-- The state with a new value at a place in memory. -/
def setCell (s : State) (i : Fin cellCount) (value : Int64) : State :=
  { s with memory := s.memory.set i value }

/-- The state with a new value in the cell with the given address. -/
def write (s : State) (address value : Int64) : Except Fault State :=
  (cell address).map fun i => s.setCell i value

/-- The state with one more value on the stack. -/
def push (s : State) (value : Int64) : State :=
  { s with stack := value :: s.stack }

/-- The top of the stack, and the state without it. -/
def pop (s : State) : Except Fault (Int64 × State) :=
  match s.stack with
  | [] => .error .stackUnderflow
  | value :: rest => .ok (value, { s with stack := rest })

/-- The value of an operand. -/
def value (s : State) : Operand → Except Fault Int64
  | .memory address => s.read address
  | .integer n => .ok n

/-! ### Which addresses have a cell -/

/-- The cells have the addresses 1 to 8. -/
theorem cell_eq_ok_iff {address : Int64} {i : Fin cellCount} :
    cell address = .ok i ↔ address.toInt = (i : Int) + 1 := by
  have hi := i.isLt
  unfold cell
  split
  · next h =>
    simp only [Except.ok.injEq, Fin.ext_iff]
    omega
  · next h =>
    simp only [reduceCtorEq, false_iff]
    omega

/-- Every other address is a fault. -/
theorem cell_eq_error_iff {address : Int64} {fault : Fault} :
    cell address = .error fault ↔
      fault = .badAddress ∧ ¬ (1 ≤ address.toInt ∧ address.toInt ≤ cellCount) := by
  unfold cell
  split
  · next h => simp [h]
  · next h => simp only [Except.error.injEq, h, not_false_eq_true, and_true, eq_comm]

end State

end StackMachine
