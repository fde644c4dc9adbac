import Mathlib.Data.List.Basic
import Mathlib.Tactic.Ring
import StackMachine.Proofs.Cells

/-!
# The instruction table

`Row` is the table of the instructions.  A row has a condition on the state and on the operands, and the
effect where the condition holds.  The conditions are about numbers: the addresses of the cells are 1 to
8, sums and products are those of integers wrapped to 64 bits, and values are compared as integers.

In every state there is a row for every opcode with any operands (`exists_row`), and no row says anything
else than what the machine does (`Row.effect_eq`).  So the rows of one instruction agree, and the table
determines the machine (`Instruction.effect_eq_iff_row`).  Which fault is reported where several conditions
fail is part of the table: every row says that no earlier check has failed.
-/

namespace StackMachine

/-! ### Reading operands -/

/-- There is a cell with the given address. -/
def Addressable (address : Int64) : Prop :=
  1 ≤ address.toInt ∧ address.toInt ≤ 8

/-- The operand has no value, for it is an address without a cell. -/
inductive Operand.Dangling : Operand → Prop
  | memory {address : Int64} (h : ¬ Addressable address) : Dangling (.memory address)

/-- The value of an operand: a literal stands for itself, and the address of a cell for what the cell
holds. -/
inductive State.Reads (s : State) : Operand → Int64 → Prop
  | integer (n : Int64) : s.Reads (.integer n) n
  | memory {address : Int64} (cell : Fin cellCount) (h : address.toInt = (cell : Int) + 1) :
      s.Reads (.memory address) (s.memory.get cell)

section Reading

variable {s : State} {operand : Operand} {address value : Int64}

/-- The cells of the memory are those that can be addressed. -/
lemma addressable_iff_exists_cell :
    Addressable address ↔ ∃ cell : Fin cellCount, address.toInt = (cell : Int) + 1 := by
  constructor
  · rintro ⟨hlo, hhi⟩
    have hlt : (address.toInt - 1).toNat < cellCount := by
      rw [cellCount]
      omega
    exact ⟨⟨(address.toInt - 1).toNat, hlt⟩, by simp only; omega⟩
  · rintro ⟨cell, hcell⟩
    have hlt : (cell : Nat) < 8 := cell.isLt
    exact ⟨by omega, by omega⟩

lemma cell_of_not_addressable (h : ¬ Addressable address) : State.cell address = .error .badAddress :=
  State.cell_eq_error_iff.2 ⟨rfl, h⟩

lemma State.Reads.value_eq (h : s.Reads operand value) : s.value operand = .ok value := by
  cases h with
  | integer n => rfl
  | memory cell hcell => exact State.value_of_cell (State.cell_eq_ok_iff.2 hcell)

lemma Operand.Dangling.value_eq (h : operand.Dangling) : s.value operand = .error .badAddress := by
  cases h with
  | memory h => simp only [State.value, State.read, cell_of_not_addressable h, Except.map]

/-- No operand has a value and is an address without a cell. -/
lemma State.Reads.not_dangling (h : s.Reads operand value) : ¬ operand.Dangling := by
  intro hdangling
  have hboth := h.value_eq.symm.trans hdangling.value_eq
  cases hboth

/-- Every operand is one of the two. -/
lemma exists_reads_or_dangling (s : State) (operand : Operand) :
    (∃ value, s.Reads operand value) ∨ operand.Dangling := by
  cases operand with
  | integer n => exact .inl ⟨n, .integer n⟩
  | memory address =>
    by_cases h : Addressable address
    · obtain ⟨cell, hcell⟩ := addressable_iff_exists_cell.1 h
      exact .inl ⟨s.memory.get cell, .memory cell hcell⟩
    · exact .inr (.memory h)

lemma State.reads_iff_value_eq : s.Reads operand value ↔ s.value operand = .ok value := by
  refine ⟨State.Reads.value_eq, fun h => ?_⟩
  rcases exists_reads_or_dangling s operand with ⟨value', hvalue⟩ | hdangling
  · obtain rfl : value' = value := Except.ok.inj (hvalue.value_eq.symm.trans h)
    exact hvalue
  · rw [hdangling.value_eq] at h
    cases h

/-- Reading the memory succeeds for the addresses 1 to 8. -/
lemma exists_read_eq_ok_iff : (∃ value, s.read address = .ok value) ↔ Addressable address := by
  constructor
  · rintro ⟨value, hvalue⟩
    by_contra h
    simp only [State.read, cell_of_not_addressable h, Except.map, reduceCtorEq] at hvalue
  · intro h
    obtain ⟨cell, hcell⟩ := addressable_iff_exists_cell.1 h
    exact ⟨_, State.value_of_cell (State.cell_eq_ok_iff.2 hcell)⟩

end Reading

/-! ### The order of two values -/

/-- Two integers are in the order that a comparison says. -/
def Comparison.Orders : Comparison → Int → Int → Prop
  | .lessThan => (· < ·)
  | .equal => (· = ·)
  | .greaterThan => (· > ·)

/-- The result of a comparison is the order of the two values. -/
lemma Comparison.of_eq_iff_orders {a b : Int64} {order : Comparison} :
    Comparison.of a b = order ↔ order.Orders a.toInt b.toInt := by
  simp only [Comparison.of, Int64.lt_iff_toInt_lt]
  cases order <;> simp only [Orders] <;> split <;> try split
  all_goals simp only [reduceCtorEq, true_iff, false_iff]
  all_goals omega

/-- The first of two values is greater if and only if the second one is less. -/
lemma Comparison.of_eq_greaterThan_iff {lhs rhs : Int64} :
    Comparison.of lhs rhs = .greaterThan ↔ rhs < lhs :=
  of_eq_iff_orders.trans Int64.lt_iff_toInt_lt.symm

/-! ### The conditions of the jumps -/

namespace Opcode

/-- Whether a jump on the comparison is taken. -/
def holdsFor : Opcode → Comparison → Bool
  | jz => (· == .equal)
  | jnz => (· != .equal)
  | jpos => (· == .greaterThan)
  | _ => fun _ => false

/-- Whether a jump on a value is taken. -/
def holdsAt : Opcode → Int64 → Bool
  | jz => (· == 0)
  | jnz => (· != 0)
  | jpos => (0 < ·)
  | _ => fun _ => false

/-- The jumps differ only in their conditions. -/
lemma effect_of_isJump {op : Opcode} (h : op.isJump = true) :
    op.effect = Effect.jumpIf op.holdsFor op.holdsAt := by
  cases op with
  | jz => rfl
  | jnz => rfl
  | jpos => rfl
  | _ => simp [isJump, category] at h

end Opcode

/-- The outcome of a jump. -/
lemma Instruction.outcome_of_isJump {i : Instruction} (h : i.opcode.isJump = true) (s : State) :
    (i.effect s).outcome =
      (Effect.jumpIf i.opcode.holdsFor i.opcode.holdsAt s i.operands).outcome := by
  rw [effect, Opcode.effect_of_isJump h]

/-! ### The rows -/

/-- The numbers of operands that an opcode takes. -/
def Opcode.Takes : Opcode → Nat → Prop
  | .add | .mul => (· = 0)
  | .push | .pop | .output => (· = 1)
  | .mov | .cmp => (· = 2)
  | .jz | .jnz | .jpos => fun n => n = 1 ∨ n = 2
  | .exit => fun _ => True

/-- What an opcode does with its operands in a state, apart from the record of its category. -/
inductive Row (s : State) : Opcode → List Operand → Effect → Prop
  /-- A wrong number of operands is noticed before anything else. -/
  | wrongCount {op operands} (h : ¬ op.Takes operands.length) : Row s op operands (.fail s .operandCount)
  /-- `ADD` and `MUL` need two values. -/
  | shortStack {op} (hop : op = .add ∨ op = .mul) (h : s.stack.length < 2) :
      Row s op [] (.fail s .stackUnderflow)
  /-- `ADD` replaces the two top values by their sum. -/
  | sum {a b value rest} (hstack : s.stack = a :: b :: rest)
      (hvalue : value.toInt = (a.toInt + b.toInt).bmod (2 ^ 64)) :
      Row s .add [] (.next { s with stack := value :: rest })
  /-- `MUL` replaces them by their product. -/
  | product {a b value rest} (hstack : s.stack = a :: b :: rest)
      (hvalue : value.toInt = (a.toInt * b.toInt).bmod (2 ^ 64)) :
      Row s .mul [] (.next { s with stack := value :: rest })
  /-- `MOV` does not move to a literal, whatever its source is. -/
  | movToLiteral {n source} : Row s .mov [.integer n, source] (.fail s .operandKind)
  /-- `MOV` needs an address that is there and a source that has a value. -/
  | movNowhere {target source} (h : ¬ Addressable target ∨ source.Dangling) :
      Row s .mov [.memory target, source] (.fail s .badAddress)
  /-- `MOV` changes one cell. -/
  | mov {target source value} {cell : Fin cellCount} (htarget : target.toInt = (cell : Int) + 1)
      (hsource : s.Reads source value) :
      Row s .mov [.memory target, source] (.next (s.setCell cell value))
  /-- `CMP` needs two operands with values. -/
  | cmpNothing {lhs rhs} (h : lhs.Dangling ∨ rhs.Dangling) : Row s .cmp [lhs, rhs] (.fail s .badAddress)
  /-- `CMP` records the order of the two values. -/
  | cmp {lhs rhs a b order} (hlhs : s.Reads lhs a) (hrhs : s.Reads rhs b)
      (horder : order.Orders a.toInt b.toInt) :
      Row s .cmp [lhs, rhs] (.next { s with comparison := order })
  /-- `PUSH` needs an operand with a value. -/
  | pushNothing {operand} (h : operand.Dangling) : Row s .push [operand] (.fail s .badAddress)
  /-- `PUSH` puts the value on the stack. -/
  | push {operand value} (h : s.Reads operand value) :
      Row s .push [operand] (.next { s with stack := value :: s.stack })
  /-- `OUTPUT` needs an operand with a value. -/
  | outputNothing {operand} (h : operand.Dangling) : Row s .output [operand] (.fail s .badAddress)
  /-- `OUTPUT` emits the value and changes nothing. -/
  | output {operand value} (h : s.Reads operand value) : Row s .output [operand] (.emit s value)
  /-- `POP` does not move to a literal. -/
  | popToLiteral {n} : Row s .pop [.integer n] (.fail s .operandKind)
  /-- `POP` needs an address that is there, whatever is on the stack. -/
  | popNowhere {target} (h : ¬ Addressable target) : Row s .pop [.memory target] (.fail s .badAddress)
  /-- `POP` needs a value. -/
  | popNothing {target} (htarget : Addressable target) (hstack : s.stack = []) :
      Row s .pop [.memory target] (.fail s .stackUnderflow)
  /-- `POP` moves the top of the stack into the cell. -/
  | pop {target value rest} {cell : Fin cellCount} (htarget : target.toInt = (cell : Int) + 1)
      (hstack : s.stack = value :: rest) :
      Row s .pop [.memory target] (.next { s.setCell cell value with stack := rest })
  /-- A jump with one operand has to follow a comparison, whatever the operand is. -/
  | jumpUnprepared {op operand} (hop : op.isJump = true) (h : s.lastCategory ≠ .comparison) :
      Row s op [operand] (.fail s .jumpWithoutComparison)
  /-- The distance of such a jump is a literal. -/
  | jumpByCell {op target} (hop : op.isJump = true) (h : s.lastCategory = .comparison) :
      Row s op [.memory target] (.fail s .operandKind)
  /-- The jump is taken if the comparison is as it says. -/
  | jumpTaken {op distance} (hop : op.isJump = true) (h : s.lastCategory = .comparison)
      (hholds : op.holdsFor s.comparison = true) : Row s op [.integer distance] (.jump s distance)
  /-- Otherwise the next line follows. -/
  | jumpPassed {op distance} (hop : op.isJump = true) (h : s.lastCategory = .comparison)
      (hholds : op.holdsFor s.comparison = false) : Row s op [.integer distance] (.next s)
  /-- The distance of a jump on a value is a literal, whatever the value is. -/
  | branchByCell {op operand target} (hop : op.isJump = true) :
      Row s op [operand, .memory target] (.fail s .operandKind)
  /-- A jump on a value needs an operand with a value, but no comparison. -/
  | branchOnNothing {op operand distance} (hop : op.isJump = true) (h : operand.Dangling) :
      Row s op [operand, .integer distance] (.fail s .badAddress)
  /-- The jump is taken if the value is as it says. -/
  | branchTaken {op operand value distance} (hop : op.isJump = true) (h : s.Reads operand value)
      (hholds : op.holdsAt value = true) :
      Row s op [operand, .integer distance] (.jump s distance)
  /-- Otherwise the next line follows. -/
  | branchPassed {op operand value distance} (hop : op.isJump = true) (h : s.Reads operand value)
      (hholds : op.holdsAt value = false) :
      Row s op [operand, .integer distance] (.next s)
  /-- `EXIT` changes nothing, whatever its operands are. -/
  | exit {operands} : Row s .exit operands (.next s)

/-! ### The machine keeps to the table -/

variable {s : State} {op : Opcode} {operands : List Operand} {effect : Effect}

/-- With a wrong number of operands every opcode fails. -/
lemma Opcode.effect_of_not_takes (h : ¬ op.Takes operands.length) (s : State) :
    op.effect s operands = .fail s .operandCount := by
  cases op with
  | add | mul =>
    cases operands with
    | nil => exact absurd rfl h
    | cons operand rest => rfl
  | mov =>
    simp only [effect, Effect.move]
    split
    · exact absurd rfl h
    · exact absurd rfl h
    · rfl
  | cmp =>
    simp only [effect, Effect.compare]
    split
    · exact absurd rfl h
    · rfl
  | push =>
    simp only [effect, Effect.push]
    split
    · exact absurd rfl h
    · rfl
  | output =>
    simp only [effect, Effect.output]
    split
    · exact absurd rfl h
    · rfl
  | pop =>
    simp only [effect, Effect.pop]
    split
    · exact absurd rfl h
    · exact absurd rfl h
    · rfl
  | jz | jnz | jpos =>
    simp only [effect, Effect.jumpIf]
    split
    · exact absurd (.inl rfl) h
    · exact absurd (.inr rfl) h
    · exact absurd (.inr rfl) h
    · rfl
  | exit => exact absurd trivial h

/-- What a row says is what the machine does. -/
theorem Row.effect_eq (h : Row s op operands effect) : op.effect s operands = effect := by
  cases h with
  | wrongCount h => exact Opcode.effect_of_not_takes h s
  | shortStack hop h =>
    have hcombine : ∀ f, Effect.combine f s [] = .fail s .stackUnderflow := by
      intro f
      match hstack : s.stack with
      | [] | [_] => simp only [Effect.combine, hstack]
      | _ :: _ :: _ =>
        simp only [hstack, List.length_cons] at h
        omega
    rcases hop with rfl | rfl
    · exact hcombine _
    · exact hcombine _
  | @sum a b value rest hstack hvalue =>
    obtain rfl : a + b = value := by rw [← Int64.toInt_inj, Int64.toInt_add, hvalue]
    simp only [Opcode.effect, Effect.combine, hstack]
  | @product a b value rest hstack hvalue =>
    obtain rfl : a * b = value := by rw [← Int64.toInt_inj, Int64.toInt_mul, hvalue]
    simp only [Opcode.effect, Effect.combine, hstack]
  | movToLiteral => rfl
  | @movNowhere target source h =>
    simp only [Opcode.effect, Effect.move]
    -- the source is read first, but both faults are the same
    rcases exists_reads_or_dangling s source with ⟨value, hvalue⟩ | hsource
    · have htarget : ¬ Addressable target := h.resolve_right hvalue.not_dangling
      simp only [hvalue.value_eq, State.write, cell_of_not_addressable htarget, Except.map]
    · simp only [hsource.value_eq]
  | mov htarget hsource =>
    simp only [Opcode.effect, Effect.move, hsource.value_eq, State.write,
      State.cell_eq_ok_iff.2 htarget, Except.map]
  | @cmpNothing lhs rhs h =>
    simp only [Opcode.effect, Effect.compare]
    rcases exists_reads_or_dangling s lhs with ⟨value, hvalue⟩ | hlhs
    · have hrhs : rhs.Dangling := h.resolve_left hvalue.not_dangling
      simp only [hvalue.value_eq, hrhs.value_eq]
    · simp only [hlhs.value_eq]
  | cmp hlhs hrhs horder =>
    simp only [Opcode.effect, Effect.compare, hlhs.value_eq, hrhs.value_eq,
      Comparison.of_eq_iff_orders.2 horder]
  | pushNothing h => simp only [Opcode.effect, Effect.push, h.value_eq]
  | push h => simp only [Opcode.effect, Effect.push, h.value_eq, State.push]
  | outputNothing h => simp only [Opcode.effect, Effect.output, h.value_eq]
  | output h => simp only [Opcode.effect, Effect.output, h.value_eq]
  | popToLiteral => rfl
  | popNowhere h => simp only [Opcode.effect, Effect.pop, cell_of_not_addressable h]
  | popNothing htarget hstack =>
    obtain ⟨cell, hcell⟩ := addressable_iff_exists_cell.1 htarget
    simp only [Opcode.effect, Effect.pop, State.cell_eq_ok_iff.2 hcell, State.pop, hstack]
  | pop htarget hstack =>
    simp only [Opcode.effect, Effect.pop, State.cell_eq_ok_iff.2 htarget, State.pop, hstack, State.setCell]
  | jumpUnprepared hop h =>
    simp only [Opcode.effect_of_isJump hop, Effect.jumpIf, ne_eq, h, not_false_eq_true, if_true]
  | jumpByCell hop h =>
    simp only [Opcode.effect_of_isJump hop, Effect.jumpIf, ne_eq, h, not_true_eq_false, if_false]
  | jumpTaken hop h hholds =>
    simp only [Opcode.effect_of_isJump hop, Effect.jumpIf, ne_eq, h, not_true_eq_false, if_false, hholds,
      if_true]
  | jumpPassed hop h hholds =>
    simp only [Opcode.effect_of_isJump hop, Effect.jumpIf, ne_eq, h, not_true_eq_false, if_false, hholds,
      Bool.false_eq_true, Effect.next]
  | branchByCell hop => simp only [Opcode.effect_of_isJump hop, Effect.jumpIf]
  | branchOnNothing hop h => simp only [Opcode.effect_of_isJump hop, Effect.jumpIf, h.value_eq]
  | branchTaken hop h hholds =>
    simp only [Opcode.effect_of_isJump hop, Effect.jumpIf, h.value_eq, hholds, if_true]
  | branchPassed hop h hholds =>
    simp only [Opcode.effect_of_isJump hop, Effect.jumpIf, h.value_eq, hholds, Bool.false_eq_true, if_false,
      Effect.next]
  | exit => rfl

/-! ### Nothing is left out -/

/-- A row applies to every jump with one or two operands. -/
lemma exists_row_of_isJump (s : State) (hop : op.isJump = true)
    (hcount : operands.length = 1 ∨ operands.length = 2) : ∃ effect, Row s op operands effect := by
  rcases hcount with hcount | hcount
  · obtain ⟨operand, rfl⟩ := List.length_eq_one_iff.1 hcount
    by_cases hcategory : s.lastCategory = .comparison
    · cases operand with
      | memory target => exact ⟨_, .jumpByCell hop hcategory⟩
      | integer distance =>
        cases hholds : op.holdsFor s.comparison with
        | true => exact ⟨_, .jumpTaken hop hcategory hholds⟩
        | false => exact ⟨_, .jumpPassed hop hcategory hholds⟩
    · exact ⟨_, .jumpUnprepared hop hcategory⟩
  · obtain ⟨operand, last, rfl⟩ := List.length_eq_two.1 hcount
    cases last with
    | memory target => exact ⟨_, .branchByCell hop⟩
    | integer distance =>
      rcases exists_reads_or_dangling s operand with ⟨value, hvalue⟩ | hdangling
      · cases hholds : op.holdsAt value with
        | true => exact ⟨_, .branchTaken hop hvalue hholds⟩
        | false => exact ⟨_, .branchPassed hop hvalue hholds⟩
      · exact ⟨_, .branchOnNothing hop hdangling⟩

/-- In every state a row applies to every opcode with any operands. -/
theorem exists_row (s : State) (op : Opcode) (operands : List Operand) :
    ∃ effect, Row s op operands effect := by
  by_cases hcount : op.Takes operands.length
  swap
  · exact ⟨_, .wrongCount hcount⟩
  cases op with
  | add =>
    obtain rfl := List.length_eq_zero_iff.1 hcount
    match hstack : s.stack with
    | a :: b :: rest => exact ⟨_, .sum hstack (Int64.toInt_add a b)⟩
    | [] | [_] => exact ⟨_, .shortStack (.inl rfl) (by simp [hstack])⟩
  | mul =>
    obtain rfl := List.length_eq_zero_iff.1 hcount
    match hstack : s.stack with
    | a :: b :: rest => exact ⟨_, .product hstack (Int64.toInt_mul a b)⟩
    | [] | [_] => exact ⟨_, .shortStack (.inr rfl) (by simp [hstack])⟩
  | mov =>
    obtain ⟨target, source, rfl⟩ := List.length_eq_two.1 hcount
    cases target with
    | integer n => exact ⟨_, .movToLiteral⟩
    | memory address =>
      by_cases htarget : Addressable address
      · obtain ⟨cell, hcell⟩ := addressable_iff_exists_cell.1 htarget
        rcases exists_reads_or_dangling s source with ⟨value, hvalue⟩ | hdangling
        · exact ⟨_, .mov hcell hvalue⟩
        · exact ⟨_, .movNowhere (.inr hdangling)⟩
      · exact ⟨_, .movNowhere (.inl htarget)⟩
  | cmp =>
    obtain ⟨lhs, rhs, rfl⟩ := List.length_eq_two.1 hcount
    rcases exists_reads_or_dangling s lhs with ⟨a, ha⟩ | hlhs
    · rcases exists_reads_or_dangling s rhs with ⟨b, hb⟩ | hrhs
      · exact ⟨_, .cmp ha hb (Comparison.of_eq_iff_orders.1 rfl)⟩
      · exact ⟨_, .cmpNothing (.inr hrhs)⟩
    · exact ⟨_, .cmpNothing (.inl hlhs)⟩
  | push =>
    obtain ⟨operand, rfl⟩ := List.length_eq_one_iff.1 hcount
    rcases exists_reads_or_dangling s operand with ⟨value, hvalue⟩ | hdangling
    · exact ⟨_, .push hvalue⟩
    · exact ⟨_, .pushNothing hdangling⟩
  | output =>
    obtain ⟨operand, rfl⟩ := List.length_eq_one_iff.1 hcount
    rcases exists_reads_or_dangling s operand with ⟨value, hvalue⟩ | hdangling
    · exact ⟨_, .output hvalue⟩
    · exact ⟨_, .outputNothing hdangling⟩
  | pop =>
    obtain ⟨target, rfl⟩ := List.length_eq_one_iff.1 hcount
    cases target with
    | integer n => exact ⟨_, .popToLiteral⟩
    | memory address =>
      by_cases htarget : Addressable address
      · obtain ⟨cell, hcell⟩ := addressable_iff_exists_cell.1 htarget
        cases hstack : s.stack with
        | nil => exact ⟨_, .popNothing htarget hstack⟩
        | cons value rest => exact ⟨_, .pop hcell hstack⟩
      · exact ⟨_, .popNowhere htarget⟩
  | jz | jnz | jpos => exact exists_row_of_isJump s rfl hcount
  | exit => exact ⟨_, .exit⟩

/-- So what holds of all rows holds of the machine. -/
lemma Opcode.row_effect (op : Opcode) (s : State) (operands : List Operand) :
    Row s op operands (op.effect s operands) := by
  obtain ⟨effect, hrow⟩ := exists_row s op operands
  rwa [hrow.effect_eq]

/-! ### Instructions -/

/-- An effect with the record of the instruction's category. -/
def Effect.recording (effect : Effect) (category : Category) : Effect :=
  { effect with state := { effect.state with lastCategory := category } }

/-- The table determines the machine.  An instruction has a certain effect if and only if a row says so,
and the category of the instruction is recorded in every case.  Reading the memory, which most of the
rows are about, succeeds for the addresses 1 to 8. -/
theorem Instruction.effect_eq_iff_row :
    (∀ (s : State) (address : Int64), (∃ value, s.read address = .ok value) ↔
      1 ≤ address.toInt ∧ address.toInt ≤ 8) ∧
    (∀ (i : Instruction) (s : State) (effect : Effect), i.effect s = effect ↔
      ∃ row, Row s i.opcode i.operands row ∧ effect = row.recording i.opcode.category) := by
  refine ⟨fun s address => exists_read_eq_ok_iff, fun i s effect => ⟨?_, ?_⟩⟩
  · rintro rfl
    obtain ⟨row, hrow⟩ := exists_row s i.opcode i.operands
    exact ⟨row, hrow, by rw [Instruction.effect, hrow.effect_eq, Effect.recording]⟩
  · rintro ⟨row, hrow, rfl⟩
    rw [Instruction.effect, hrow.effect_eq, Effect.recording]

end StackMachine
