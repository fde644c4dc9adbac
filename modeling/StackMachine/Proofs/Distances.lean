import StackMachine.Listing
import StackMachine.Proofs.Effects

/-!
# How far instructions jump

Only the three jumps have an outcome other than 0, and such an outcome is the literal in the last place
of their operands.  So the distance of a transfer can be read off the instruction, without the state
(`Instruction.jumpDistance?_eq_some_of_outcome`).
-/

namespace StackMachine

variable {s : State} {distance : Int64} {operands : List Operand}

/-- A row that leads to another line than the next one is one of a jump, by the literal in the last
place. -/
lemma Row.isJump_of_distance {op : Opcode} {effect : Effect} (h : Row s op operands effect)
    (houtcome : effect.outcome = .ok distance) (hdistance : distance ≠ 0) :
    op.isJump = true ∧
      (operands = [.integer distance] ∨ ∃ operand, operands = [operand, .integer distance]) := by
  cases h with
  | jumpTaken hop _ _ =>
    cases houtcome
    exact ⟨hop, .inl rfl⟩
  | branchTaken hop _ _ =>
    cases houtcome
    exact ⟨hop, .inr ⟨_, rfl⟩⟩
  | _ =>
    -- the other rows fail or go on with the next line
    cases houtcome <;> exact absurd rfl hdistance

/-- Only a jump leads to another line than the next one. -/
lemma Instruction.isJump_of_outcome {i : Instruction} (h : (i.effect s).outcome = .ok distance)
    (hdistance : distance ≠ 0) : i.opcode.isJump = true :=
  ((i.opcode.row_effect s i.operands).isJump_of_distance h hdistance).1

/-- So it emits nothing. -/
lemma Instruction.emitted_of_distance {i : Instruction} (h : (i.effect s).outcome = .ok distance)
    (hdistance : distance ≠ 0) : (i.effect s).emitted = none := by
  have hjump := isJump_of_outcome h hdistance
  refine emitted_of_ne fun hopcode => ?_
  rw [hopcode] at hjump
  cases hjump

/-- A jump has a literal distance exactly if its last operand is a literal. -/
lemma Instruction.jumpDistance?_eq_some_iff {i : Instruction} :
    i.jumpDistance? = some distance ↔
      i.opcode.isJump = true ∧ i.operands.getLast? = some (.integer distance) := by
  obtain ⟨op, operands, hlength⟩ := i
  rw [jumpDistance?]
  by_cases hjump : op.isJump = true
  · rw [if_pos hjump]
    rcases operands with _ | ⟨first, _ | ⟨second, _ | ⟨third, rest⟩⟩⟩
    · simp
    · cases first <;> simp [hjump]
    · cases first <;> cases second <;> simp [hjump]
    · simp [maxOperands] at hlength
  · simp [hjump]

/-- An instruction that leads to another line than the next one is a jump with that literal distance. -/
theorem Instruction.jumpDistance?_eq_some_of_outcome {i : Instruction}
    (h : (i.effect s).outcome = .ok distance) (hdistance : distance ≠ 0) :
    i.jumpDistance? = some distance := by
  obtain ⟨hjump, hoperands⟩ := (i.opcode.row_effect s i.operands).isJump_of_distance h hdistance
  refine jumpDistance?_eq_some_iff.2 ⟨hjump, ?_⟩
  rcases hoperands with hoperands | ⟨operand, hoperands⟩
  · rw [hoperands]
    rfl
  · rw [hoperands]
    rfl

end StackMachine
