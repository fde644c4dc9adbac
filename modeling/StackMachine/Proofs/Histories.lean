import Mathlib.Data.List.Induction
import StackMachine.Proofs.Effects
import StackMachine.Proofs.Landings

/-!
# What the machine remembers of its past

The flags and the memory of a machine tell its history (`State.Recalls`).  The category is that of the
last instruction, whether it succeeded or not.  The comparison is that of the last `CMP` that succeeded,
and each cell holds what the last `MOV` or `POP` that succeeded has put there.

An `Attempt` is an instruction together with the state in which it was carried out, so that the values of
its operands at that time can be looked up.  `Attempt.compared?` and `Attempt.stored?` say what an attempt
leaves behind, one instruction is a matter of `comparison_effect` and `memory_effect`, and the history of
many instructions follows by induction (`recalls_afterAll`).  The jumps on the comparison look at the two
flags, so they are decided by the history.
-/

namespace StackMachine

/-! ### Attempts -/

/-- An instruction that is carried out in some state. -/
structure Attempt where
  /-- The instruction. -/
  instruction : Instruction
  /-- The state before it. -/
  before : State

/-- The cell that an instruction names as its destination. -/
def Instruction.destination? (i : Instruction) : Option (Fin cellCount) :=
  match i.opcode, i.operands with
  | .mov, .memory address :: _ => (State.cell address).toOption
  | .pop, .memory address :: _ => (State.cell address).toOption
  | _, _ => none

/-- Only a `MOV` or a `POP` has a destination. -/
lemma Instruction.destination?_eq_none {i : Instruction} (hmov : i.opcode ≠ .mov)
    (hpop : i.opcode ≠ .pop) : i.destination? = none := by
  unfold destination?
  split
  · exact absurd ‹_› hmov
  · exact absurd ‹_› hpop
  · rfl

namespace Attempt

/-- Whether the instruction has succeeded. -/
def succeeds (a : Attempt) : Bool :=
  (a.instruction.effect a.before).outcome.isOk

/-- The ordering of the two values that the instruction has compared, if it is a `CMP` that succeeded. -/
def compared? (a : Attempt) : Option Comparison :=
  if a.succeeds then
    match a.instruction.opcode, a.instruction.operands with
    | .cmp, [lhs, rhs] =>
      match a.before.value lhs, a.before.value rhs with
      | .ok x, .ok y => some (.of x y)
      | _, _ => none
    | _, _ => none
  else none

/-- The value that a `MOV` or a `POP` has at hand: that of its second operand, or the top of the stack. -/
def moved? (a : Attempt) : Option Int64 :=
  match a.instruction.opcode, a.instruction.operands with
  | .mov, [_, source] => (a.before.value source).toOption
  | .pop, _ => a.before.stack.head?
  | _, _ => none

/-- The value that the instruction has put into the given cell, if it has succeeded with the cell as its
destination. -/
def stored? (cell : Fin cellCount) (a : Attempt) : Option Int64 :=
  if a.succeeds ∧ a.instruction.destination? = some cell then a.moved? else none

end Attempt

/-! ### What one instruction leaves behind -/

namespace Row

variable {s : State} {op : Opcode} {operands : List Operand} {effect : Effect}

/-- A `CMP` that succeeds records the ordering of two values. -/
lemma of_cmp (h : Row s op operands effect) (hop : op = .cmp) (hok : effect.outcome.isOk = true) :
    ∃ lhs rhs x y, operands = [lhs, rhs] ∧ s.value lhs = .ok x ∧ s.value rhs = .ok y ∧
      effect.state.comparison = .of x y := by
  subst hop
  cases h with
  | cmp hlhs hrhs horder =>
    exact ⟨_, _, _, _, rfl, hlhs.value_eq, hrhs.value_eq, (Comparison.of_eq_iff_orders.2 horder).symm⟩
  | jumpTaken hjump _ _ | jumpPassed hjump _ _ | branchTaken hjump _ _ | branchPassed hjump _ _ =>
    cases hjump
  | _ => cases hok

/-- A `MOV` that succeeds puts the value of its source into a cell. -/
lemma of_mov (h : Row s op operands effect) (hop : op = .mov) (hok : effect.outcome.isOk = true) :
    ∃ target source value cell, operands = [.memory target, source] ∧ State.cell target = .ok cell ∧
      s.value source = .ok value ∧ effect.state.memory = s.memory.set cell value cell.isLt := by
  subst hop
  cases h with
  | mov htarget hsource =>
    exact ⟨_, _, _, _, rfl, State.cell_eq_ok_iff.2 htarget, hsource.value_eq, rfl⟩
  | jumpTaken hjump _ _ | jumpPassed hjump _ _ | branchTaken hjump _ _ | branchPassed hjump _ _ =>
    cases hjump
  | _ => cases hok

/-- A `POP` that succeeds moves the top of the stack into a cell. -/
lemma of_pop (h : Row s op operands effect) (hop : op = .pop) (hok : effect.outcome.isOk = true) :
    ∃ target value cell, operands = [.memory target] ∧ State.cell target = .ok cell ∧
      s.stack.head? = some value ∧ effect.state.memory = s.memory.set cell value cell.isLt := by
  subst hop
  cases h with
  | pop htarget hstack =>
    exact ⟨_, _, _, rfl, State.cell_eq_ok_iff.2 htarget, congrArg List.head? hstack, rfl⟩
  | jumpTaken hjump _ _ | jumpPassed hjump _ _ | branchTaken hjump _ _ | branchPassed hjump _ _ =>
    cases hjump
  | _ => cases hok

end Row

namespace Attempt

/-- The row of the instruction table that applies to the attempt. -/
lemma row (a : Attempt) : Row a.before a.instruction.opcode a.instruction.operands
    (a.instruction.opcode.effect a.before a.instruction.operands) :=
  a.instruction.opcode.row_effect a.before a.instruction.operands

/-- An attempt that fails changes nothing but the category. -/
lemma state_of_not_succeeds {a : Attempt} (h : ¬ a.succeeds = true) :
    (a.instruction.effect a.before).state =
      { a.before with lastCategory := a.instruction.opcode.category } := by
  rcases houtcome : (a.instruction.effect a.before).outcome with fault | distance
  · rw [Instruction.effect, a.row.eq_fail houtcome]
    rfl
  · rw [succeeds, houtcome] at h
    exact absurd rfl h

/-- An attempt is a `CMP` that succeeds and records the ordering of its two values, or it leaves the
comparison alone. -/
lemma compare_cases (a : Attempt) :
    (¬ (a.instruction.opcode = .cmp ∧ a.succeeds = true) ∧
      (a.instruction.effect a.before).state.comparison = a.before.comparison) ∨
    (a.instruction.opcode = .cmp ∧ a.succeeds = true ∧
      ∃ lhs rhs x y, a.instruction.operands = [lhs, rhs] ∧ a.before.value lhs = .ok x ∧
        a.before.value rhs = .ok y ∧
        (a.instruction.effect a.before).state.comparison = .of x y) := by
  by_cases hsucceeds : a.succeeds = true
  swap
  · exact .inl ⟨fun h => hsucceeds h.2, by rw [state_of_not_succeeds hsucceeds]⟩
  by_cases hcmp : a.instruction.opcode = .cmp
  · exact .inr ⟨hcmp, hsucceeds, a.row.of_cmp hcmp hsucceeds⟩
  · exact .inl ⟨fun h => hcmp h.1, a.row.comparison_eq hcmp⟩

/-- An attempt succeeds and puts the value that it moves into its destination, or it leaves the memory
alone and has no destination or fails. -/
lemma store_cases (a : Attempt) :
    ((∀ cell, ¬ (a.succeeds = true ∧ a.instruction.destination? = some cell)) ∧
      (a.instruction.effect a.before).state.memory = a.before.memory) ∨
    (a.succeeds = true ∧ ∃ cell value, a.instruction.destination? = some cell ∧
      a.moved? = some value ∧
      (a.instruction.effect a.before).state.memory = a.before.memory.set cell value cell.isLt) := by
  by_cases hsucceeds : a.succeeds = true
  swap
  · exact .inl ⟨fun _ h => hsucceeds h.1, by rw [state_of_not_succeeds hsucceeds]⟩
  by_cases hmov : a.instruction.opcode = .mov
  · obtain ⟨target, source, value, cell, hoperands, hcell, hvalue, hmemory⟩ :=
      a.row.of_mov hmov hsucceeds
    refine .inr ⟨hsucceeds, cell, value, ?_, ?_, hmemory⟩
    · simp only [Instruction.destination?, hmov, hoperands, hcell, Except.toOption]
    · simp only [moved?, hmov, hoperands, hvalue, Except.toOption]
  by_cases hpop : a.instruction.opcode = .pop
  · obtain ⟨target, value, cell, hoperands, hcell, hvalue, hmemory⟩ := a.row.of_pop hpop hsucceeds
    refine .inr ⟨hsucceeds, cell, value, ?_, ?_, hmemory⟩
    · simp only [Instruction.destination?, hpop, hoperands, hcell, Except.toOption]
    · simp only [moved?, hpop, hoperands, hvalue]
  · refine .inl ⟨fun cell h => ?_, a.row.memory_eq hmov hpop⟩
    rw [Instruction.destination?_eq_none hmov hpop] at h
    cases h.2

/-- Nothing is compared by other instructions, and by those that fail. -/
lemma compared?_eq_none {a : Attempt} (h : ¬ (a.instruction.opcode = .cmp ∧ a.succeeds = true)) :
    a.compared? = none := by
  unfold compared?
  split
  · next hsucceeds =>
    split
    · next hopcode _ => exact absurd ⟨hopcode, hsucceeds⟩ h
    · rfl
  · rfl

/-- What is compared is what is recorded. -/
lemma comparison_effect (a : Attempt) :
    (a.instruction.effect a.before).state.comparison = a.compared?.getD a.before.comparison := by
  rcases a.compare_cases with ⟨hnot, hcomparison⟩ |
    ⟨hopcode, hsucceeds, lhs, rhs, x, y, hoperands, hx, hy, hcomparison⟩
  · rw [compared?_eq_none hnot, hcomparison, Option.getD_none]
  · simp only [compared?, hsucceeds, if_true, hopcode, hoperands, hx, hy, hcomparison, Option.getD_some]

/-- What is stored in a cell is what it holds. -/
lemma memory_effect (a : Attempt) (cell : Fin cellCount) :
    (a.instruction.effect a.before).state.memory.get cell =
      (a.stored? cell).getD (a.before.memory.get cell) := by
  rcases a.store_cases with ⟨hnot, hmemory⟩ | ⟨hsucceeds, cell', value, hdestination, hmoved, hmemory⟩
  · rw [stored?, if_neg (hnot cell), hmemory, Option.getD_none]
  · by_cases hsame : cell' = cell
    · subst hsame
      rw [stored?, if_pos ⟨hsucceeds, hdestination⟩, hmoved, hmemory, Option.getD_some]
      exact Vector.getElem_set_self _
    · have hother : ¬ (a.succeeds = true ∧ a.instruction.destination? = some cell) := by
        rintro ⟨-, hcell⟩
        rw [hdestination] at hcell
        exact hsame (Option.some.inj hcell)
      rw [stored?, if_neg hother, hmemory, Option.getD_none]
      exact Vector.getElem_set_ne _ _ fun h => hsame (Fin.ext h)

/-- Two values are compared by each `CMP` that succeeds. -/
lemma isSome_compared?_iff (a : Attempt) :
    a.compared?.isSome = true ↔ a.instruction.opcode = .cmp ∧ a.succeeds = true := by
  rcases a.compare_cases with ⟨hnot, -⟩ | ⟨hopcode, hsucceeds, lhs, rhs, x, y, hoperands, hx, hy, -⟩
  · simp [compared?_eq_none hnot, hnot]
  · simp [compared?, hsucceeds, hopcode, hoperands, hx, hy]

/-- A value is stored by each attempt that succeeds and has the cell as its destination. -/
lemma isSome_stored?_iff (a : Attempt) (cell : Fin cellCount) :
    (a.stored? cell).isSome = true ↔
      a.succeeds = true ∧ a.instruction.destination? = some cell := by
  rcases a.store_cases with ⟨hnot, -⟩ | ⟨hsucceeds, cell', value, hdestination, hmoved, -⟩
  · rw [stored?, if_neg (hnot cell)]
    simp [hnot cell]
  · simp [stored?, hsucceeds, hmoved]

end Attempt

/-! ### Many instructions -/

/-- With one more element, the last image is that of the element, if it has one. -/
lemma getLastD_filterMap_concat {α β : Type} (f : α → Option β) (l : List α) (a : α) (b : β) :
    ((l ++ [a]).filterMap f).getLastD b = (f a).getD ((l.filterMap f).getLastD b) := by
  rcases h : f a with _ | c
  · simp [h]
  · simp [h]

namespace Attempt

/-- The ordering found by the last `CMP` that succeeded, or `equal` if none did. -/
def lastCompared (attempts : List Attempt) : Comparison :=
  (attempts.filterMap compared?).getLastD .equal

/-- The value stored by the last attempt that succeeded with the cell as its destination, or 0. -/
def lastStored (cell : Fin cellCount) (attempts : List Attempt) : Int64 :=
  (attempts.filterMap (stored? cell)).getLastD 0

lemma lastCompared_concat (attempts : List Attempt) (a : Attempt) :
    lastCompared (attempts ++ [a]) = a.compared?.getD (lastCompared attempts) :=
  getLastD_filterMap_concat _ _ _ _

lemma lastStored_concat (cell : Fin cellCount) (attempts : List Attempt) (a : Attempt) :
    lastStored cell (attempts ++ [a]) = (a.stored? cell).getD (lastStored cell attempts) :=
  getLastD_filterMap_concat _ _ _ _

end Attempt

namespace State

/-- The instructions as they are carried out one after the other, each with the state before it. -/
def attempts (s : State) : List Instruction → List Attempt
  | [] => []
  | i :: rest => ⟨i, s⟩ :: (i.effect s).state.attempts rest

/-- The state after the instructions. -/
def afterAll (s : State) (instructions : List Instruction) : State :=
  instructions.foldl (fun s i => (i.effect s).state) s

@[simp] lemma afterAll_nil (s : State) : s.afterAll [] = s := rfl

@[simp] lemma afterAll_cons (s : State) (i : Instruction) (rest : List Instruction) :
    s.afterAll (i :: rest) = (i.effect s).state.afterAll rest := rfl

lemma afterAll_append (s : State) (first rest : List Instruction) :
    s.afterAll (first ++ rest) = (s.afterAll first).afterAll rest :=
  List.foldl_append

/-- The last instruction is carried out in the state to which the others have led. -/
lemma attempts_concat (s : State) (instructions : List Instruction) (i : Instruction) :
    s.attempts (instructions ++ [i]) =
      s.attempts instructions ++ [⟨i, s.afterAll instructions⟩] := by
  induction instructions generalizing s with
  | nil => rfl
  | cons j rest ih => rw [List.cons_append, attempts, ih, attempts, List.cons_append, afterAll_cons]

/-- The flags and the memory tell the history of a machine that was new before the instructions. -/
structure Recalls (s : State) (instructions : List Instruction) : Prop where
  /-- The category is that of the last instruction. -/
  lastCategory : s.lastCategory = (instructions.getLast?.map (·.opcode.category)).getD .none
  /-- The comparison is that of the last `CMP` that succeeded. -/
  comparison : s.comparison = Attempt.lastCompared (initial.attempts instructions)
  /-- Each cell holds what was stored there last. -/
  memory (cell : Fin cellCount) :
    s.memory.get cell = Attempt.lastStored cell (initial.attempts instructions)

/-- One more instruction, whatever it does, is remembered as well. -/
lemma Recalls.effect {instructions : List Instruction}
    (h : (initial.afterAll instructions).Recalls instructions) (i : Instruction) :
    (i.effect (initial.afterAll instructions)).state.Recalls (instructions ++ [i]) := by
  constructor
  · rw [Instruction.lastCategory_effect, List.getLast?_concat, Option.map_some, Option.getD_some]
  · rw [attempts_concat, Attempt.lastCompared_concat, ← h.comparison]
    exact Attempt.comparison_effect ⟨i, initial.afterAll instructions⟩
  · intro cell
    rw [attempts_concat, Attempt.lastStored_concat, ← h.memory cell]
    exact Attempt.memory_effect ⟨i, initial.afterAll instructions⟩ cell

/-- A new machine has no history, and after any instructions it tells what they were. -/
theorem recalls_afterAll (instructions : List Instruction) :
    (initial.afterAll instructions).Recalls instructions := by
  -- a history grows at its end, so this is where the induction takes it apart
  induction instructions using List.reverseRecOn with
  | nil =>
    refine ⟨rfl, rfl, fun cell => ?_⟩
    simp only [afterAll_nil, initial, attempts, Attempt.lastStored]
    exact Vector.getElem_replicate _
  | append_singleton instructions i ih =>
    rw [afterAll_append]
    exact ih.effect i

/-! ### Jumps on the comparison -/

section Jumps

variable {s : State} {instructions : List Instruction} {jump : Instruction} {operand : Operand}

/-- The last instruction was a `CMP`, whether it succeeded or not. -/
def AfterCmp (instructions : List Instruction) : Prop :=
  ∃ last, instructions.getLast? = some last ∧ last.opcode = .cmp

/-- The category of the last instruction tells whether it was a `CMP`. -/
lemma Recalls.lastCategory_eq_comparison_iff (h : s.Recalls instructions) :
    s.lastCategory = .comparison ↔ AfterCmp instructions := by
  rw [h.lastCategory, AfterCmp]
  rcases instructions.getLast? with _ | last
  · simp
  · simp [Opcode.category_eq_comparison_iff]

/-- The outcome of a jump with one operand. -/
lemma outcome_effect_of_isJump (hjump : jump.opcode.isJump = true)
    (hoperands : jump.operands = [operand]) (s : State) :
    (jump.effect s).outcome =
      (Effect.jumpIf jump.opcode.holdsFor jump.opcode.holdsAt s [operand]).outcome := by
  rw [Instruction.outcome_of_isJump hjump, hoperands]

/-- A jump on the comparison is illegal if and only if the instruction before it was no `CMP`. -/
lemma Recalls.outcome_eq_jumpWithoutComparison_iff (h : s.Recalls instructions)
    (hjump : jump.opcode.isJump = true) (hoperands : jump.operands = [operand]) :
    (jump.effect s).outcome = .error .jumpWithoutComparison ↔ ¬ AfterCmp instructions := by
  rw [outcome_effect_of_isJump hjump hoperands, ← h.lastCategory_eq_comparison_iff]
  simp only [Effect.jumpIf]
  by_cases hcategory : s.lastCategory = .comparison
  · rcases operand with address | distance
    · simp [hcategory, Effect.fail]
    · simp [hcategory, Effect.jump]
  · simp [hcategory, Effect.fail]

/-- Otherwise the last `CMP` that succeeded decides whether it is taken. -/
lemma Recalls.outcome_eq_of_afterCmp (h : s.Recalls instructions)
    (hjump : jump.opcode.isJump = true) {distance : Int64}
    (hoperands : jump.operands = [.integer distance]) (hcmp : AfterCmp instructions) :
    (jump.effect s).outcome =
      .ok (if jump.opcode.holdsFor (Attempt.lastCompared (initial.attempts instructions)) then distance
        else 0) := by
  have hcategory := h.lastCategory_eq_comparison_iff.2 hcmp
  rw [outcome_effect_of_isJump hjump hoperands]
  simp only [Effect.jumpIf]
  rw [if_neg (not_not.2 hcategory), h.comparison]
  rfl

end Jumps

end State

end StackMachine
