import StackMachine.Proofs.InstructionTable

/-!
# What instructions can do

The instruction table says of each opcode what it can do, so what holds of all its rows holds of the
machine (`Opcode.row_effect`).  A row of a failure changes nothing and emits nothing (`Row.eq_fail`), only
an `OUTPUT` emits a value, only a `CMP` changes the comparison, and only a `MOV` or a `POP` changes the
memory.

Each opcode has its own faults.  `Opcode.faults` lists them, and no instruction fails with any other
(`Opcode.mem_faults_of_effect`).  The faults of lines that cannot be read as statements are not among
them, except for the address that no cell has and the wrong number of operands.
-/

namespace StackMachine

variable {s : State} {op : Opcode} {operands : List Operand} {effect : Effect} {fault : Fault}

/-! ### Faults by opcode -/

namespace Opcode

/-- The faults with which an instruction can fail. -/
def faults : Opcode → List Fault
  | add | mul => [.operandCount, .stackUnderflow]
  | mov => [.operandCount, .operandKind, .badAddress]
  | push | cmp | output => [.operandCount, .badAddress]
  | pop => [.operandCount, .operandKind, .badAddress, .stackUnderflow]
  | jz | jnz | jpos => [.operandCount, .operandKind, .badAddress, .jumpWithoutComparison]
  | exit => []

/-- The jumps have their faults in common. -/
lemma faults_of_isJump (h : op.isJump = true) :
    op.faults = [.operandCount, .operandKind, .badAddress, .jumpWithoutComparison] := by
  cases op with
  | jz | jnz | jpos => rfl
  | _ => cases h

end Opcode

/-! ### What the rows have in common -/

namespace Row

/-- A row of a failure changes nothing and emits nothing. -/
lemma eq_fail (h : Row s op operands effect) (hfault : effect.outcome = .error fault) :
    effect = .fail s fault := by
  -- the rows that do not fail go with `hfault`
  cases h <;> cases hfault <;> rfl

/-- Its fault is one of the opcode. -/
lemma mem_faults (h : Row s op operands effect) (hfault : effect.outcome = .error fault) :
    fault ∈ op.faults := by
  cases h with
  | wrongCount h =>
    cases hfault
    cases op with
    | exit => exact absurd trivial h
    | _ => decide
  | shortStack hop h =>
    cases hfault
    rcases hop with rfl | rfl <;> decide
  | jumpUnprepared hop _ | jumpByCell hop _ | branchByCell hop | branchOnNothing hop _ =>
    cases hfault
    rw [Opcode.faults_of_isJump hop]
    decide
  | _ => cases hfault <;> decide

/-- Only an `OUTPUT` emits a value. -/
lemma emitted_eq_none (h : Row s op operands effect) (hop : op ≠ .output) : effect.emitted = none := by
  cases h with
  | output _ => exact absurd rfl hop
  | _ => rfl

/-- Only a `CMP` changes the comparison. -/
lemma comparison_eq (h : Row s op operands effect) (hop : op ≠ .cmp) :
    effect.state.comparison = s.comparison := by
  cases h with
  | cmp _ _ _ => exact absurd rfl hop
  | _ => rfl

/-- Only a `MOV` or a `POP` changes the memory. -/
lemma memory_eq (h : Row s op operands effect) (hmov : op ≠ .mov) (hpop : op ≠ .pop) :
    effect.state.memory = s.memory := by
  cases h with
  | mov _ _ => exact absurd rfl hmov
  | pop _ _ => exact absurd rfl hpop
  | _ => rfl

end Row

/-! ### Failures -/

/-- An opcode that fails changes nothing and emits nothing. -/
lemma Opcode.effect_eq_fail (h : (op.effect s operands).outcome = .error fault) :
    op.effect s operands = .fail s fault :=
  (op.row_effect s operands).eq_fail h

/-- An opcode fails with no other faults than its own. -/
theorem Opcode.mem_faults_of_effect (h : (op.effect s operands).outcome = .error fault) :
    fault ∈ op.faults :=
  (op.row_effect s operands).mem_faults h

/-- An instruction that fails does so with a fault that reading a statement does not have. -/
lemma Instruction.fault_ne_of_effect {i : Instruction}
    (h : (i.effect s).outcome = .error fault) :
    fault ≠ .unknownKeyword ∧ ∀ token, fault ≠ .badInteger token := by
  have hmem : fault ∈ i.opcode.faults := Opcode.mem_faults_of_effect h
  have hkeyword : Fault.unknownKeyword ∉ i.opcode.faults := by
    cases i.opcode <;> decide
  have hinteger : ∀ token, Fault.badInteger token ∉ i.opcode.faults := by
    intro token
    cases i.opcode <;> simp [Opcode.faults]
  constructor
  · rintro rfl
    exact hkeyword hmem
  · rintro token rfl
    exact hinteger token hmem

/-! ### Emitted values -/

namespace Instruction

variable {i : Instruction}

/-- An instruction that fails emits nothing. -/
lemma emitted_of_error (h : (i.effect s).outcome = .error fault) : (i.effect s).emitted = none := by
  have hfail : i.opcode.effect s i.operands = .fail s fault := Opcode.effect_eq_fail h
  rw [Instruction.effect, hfail]
  rfl

/-- Neither does one that is no `OUTPUT`. -/
lemma emitted_of_ne (h : i.opcode ≠ .output) : (i.effect s).emitted = none :=
  (i.opcode.row_effect s i.operands).emitted_eq_none h

end Instruction

/-! ### Instructions that succeed -/

namespace Instruction

variable {operand lhs rhs : Operand} {value a b target : Int64} {rest : List Int64}
  {cell : Fin cellCount}

/-- An instruction records its category, and otherwise does what its row says. -/
lemma effect_of_row (hlength : operands.length ≤ maxOperands) (h : Row s op operands effect) :
    (ofOperands op operands).effect s = effect.recording op.category := by
  rw [Instruction.effect, opcode_ofOperands, operands_ofOperands, List.take_of_length_le hlength,
    h.effect_eq, Effect.recording]

lemma effect_mov (hvalue : s.value operand = .ok value) (hcell : State.cell target = .ok cell) :
    (ofOperands .mov [.memory target, operand]).effect s =
      .next { s.setCell cell value with lastCategory := .data } :=
  effect_of_row (Nat.le_refl _) (.mov (State.cell_eq_ok_iff.1 hcell) (State.reads_iff_value_eq.2 hvalue))

lemma effect_push (hvalue : s.value operand = .ok value) :
    (ofOperands .push [operand]).effect s =
      .next { s with stack := value :: s.stack, lastCategory := .data } :=
  effect_of_row (Nat.le_succ _) (.push (State.reads_iff_value_eq.2 hvalue))

lemma effect_pop (hcell : State.cell target = .ok cell) (hstack : s.stack = value :: rest) :
    (ofOperands .pop [.memory target]).effect s =
      .next { s.setCell cell value with stack := rest, lastCategory := .data } :=
  effect_of_row (Nat.le_succ _) (.pop (State.cell_eq_ok_iff.1 hcell) hstack)

lemma effect_add (hstack : s.stack = a :: b :: rest) :
    (ofOperands .add []).effect s = .next { s with stack := (a + b) :: rest, lastCategory := .data } :=
  effect_of_row (Nat.zero_le _) (.sum hstack (Int64.toInt_add a b))

lemma effect_mul (hstack : s.stack = a :: b :: rest) :
    (ofOperands .mul []).effect s = .next { s with stack := (a * b) :: rest, lastCategory := .data } :=
  effect_of_row (Nat.zero_le _) (.product hstack (Int64.toInt_mul a b))

lemma effect_cmp (hlhs : s.value lhs = .ok a) (hrhs : s.value rhs = .ok b) :
    (ofOperands .cmp [lhs, rhs]).effect s =
      .next { s with comparison := .of a b, lastCategory := .comparison } :=
  effect_of_row (Nat.le_refl _) (.cmp (State.reads_iff_value_eq.2 hlhs) (State.reads_iff_value_eq.2 hrhs)
    (Comparison.of_eq_iff_orders.1 rfl))

lemma effect_output (hvalue : s.value operand = .ok value) :
    (ofOperands .output [operand]).effect s = .emit { s with lastCategory := .data } value :=
  effect_of_row (Nat.le_succ _) (.output (State.reads_iff_value_eq.2 hvalue))

/-- The operands of an `EXIT` do not count. -/
lemma effect_exit (operands : List Operand) :
    (ofOperands .exit operands).effect s = .next { s with lastCategory := .exit } := rfl

/-- A jump right behind a comparison looks at its result. -/
lemma effect_jump_of_comparison (hjump : op.isJump = true) (hcategory : s.lastCategory = .comparison)
    (distance : Int64) :
    (ofOperands op [.integer distance]).effect s =
      .jump { s with lastCategory := .jump } (if op.holdsFor s.comparison then distance else 0) := by
  have hop : op.category = .jump := by simpa [Opcode.isJump] using hjump
  rw [← hop]
  cases hholds : op.holdsFor s.comparison with
  | true => exact effect_of_row (Nat.le_succ _) (.jumpTaken hjump hcategory hholds)
  | false => exact effect_of_row (Nat.le_succ _) (.jumpPassed hjump hcategory hholds)

/-- A jump on a value looks at nothing else. -/
lemma effect_jump_of_value (hjump : op.isJump = true) (hvalue : s.value operand = .ok value)
    (distance : Int64) :
    (ofOperands op [operand, .integer distance]).effect s =
      .jump { s with lastCategory := .jump } (if op.holdsAt value then distance else 0) := by
  have hop : op.category = .jump := by simpa [Opcode.isJump] using hjump
  have hreads : s.Reads operand value := State.reads_iff_value_eq.2 hvalue
  rw [← hop]
  cases hholds : op.holdsAt value with
  | true => exact effect_of_row (Nat.le_refl _) (.branchTaken hjump hreads hholds)
  | false => exact effect_of_row (Nat.le_refl _) (.branchPassed hjump hreads hholds)

end Instruction

end StackMachine
