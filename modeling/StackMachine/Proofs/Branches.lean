import StackMachine.Proofs.Blocks
import StackMachine.Proofs.InstructionTable

/-!
# Two ways to branch on a value

A program can branch on a value by a jump with two operands, or by a comparison with zero and a jump with
one operand behind it.  The first way tests the value, the second one looks at the result that the comparison
has stored, and the two are written apart from each other.  They agree, for each of the three jumps and for
every operand that has a value.

The three jumps differ only in their conditions.  Which operands they take and how they fail is the same for
all of them (`State.jumpsAlike_take`), so with the same operands either all of them fail or none.  If they
do not, the conditions decide: that of `JNZ` is the opposite of that of `JZ`, and that of `JPOS` implies it.
-/

namespace StackMachine

/-! ### Conditions -/

namespace Opcode

/-- To test the comparison of a value with zero is to test the value. -/
lemma holdsFor_of_zero (op : Opcode) (value : Int64) :
    op.holdsFor (.of value 0) = op.holdsAt value := by
  have hless : value < 0 → ¬ 0 < value ∧ value ≠ 0 := fun h =>
    ⟨Int64.lt_asymm h, Int64.ne_of_lt h⟩
  have hgreater : 0 < value → value ≠ 0 := fun h => (Int64.ne_of_lt h).symm
  have hequal : ¬ value < 0 → ¬ 0 < value → value = 0 := fun h h' =>
    Int64.le_antisymm (Int64.not_lt.1 h') (Int64.not_lt.1 h)
  rw [Comparison.of]
  by_cases hlt : value < 0
  · obtain ⟨hgt, hne⟩ := hless hlt
    have hbne : (value != 0) = true := bne_iff_ne.2 hne
    cases op <;> simp [holdsFor, holdsAt, hlt, hgt, hne, hbne]
  · by_cases hgt : 0 < value
    · have hne := hgreater hgt
      have hbne : (value != 0) = true := bne_iff_ne.2 hne
      cases op <;> simp [holdsFor, holdsAt, hlt, hgt, hne, hbne]
    · obtain rfl := hequal hlt hgt
      cases op <;> decide

/-- Zero is greater than the values below zero. -/
lemma holdsFor_jpos_of_zero (value : Int64) :
    jpos.holdsFor (.of 0 value) = decide (value.toInt < 0) := by
  have hzero : value < 0 ↔ value.toInt < 0 := by rw [Int64.lt_iff_toInt_lt, Int64.toInt_zero]
  rw [holdsFor, Bool.eq_iff_iff, beq_iff_eq, Comparison.of_eq_greaterThan_iff, decide_eq_true_iff, hzero]

end Opcode

/-- The conditions of the jumps in one situation: on the same comparison, or on the same value. -/
inductive Conditions : (Opcode → Bool) → Prop
  | comparison (result : Comparison) : Conditions (·.holdsFor result)
  | value (value : Int64) : Conditions (·.holdsAt value)

variable {holds : Opcode → Bool}

/-- `JNZ` jumps where `JZ` does not. -/
lemma Conditions.jnz_eq (h : Conditions holds) : holds .jnz = !holds .jz := by
  cases h with
  | comparison result => rfl
  | value value => rfl

/-- `JPOS` jumps only where `JNZ` does. -/
lemma Conditions.jnz_of_jpos (h : Conditions holds) (hjpos : holds .jpos = true) : holds .jnz = true := by
  cases h with
  | comparison result =>
    obtain rfl : result = .greaterThan := by simpa [Opcode.holdsFor] using hjpos
    rfl
  | value value =>
    have hpos : 0 < value := by simpa [Opcode.holdsAt] using hjpos
    simpa [Opcode.holdsAt] using (Int64.ne_of_lt hpos).symm

/-! ### Outcomes -/

namespace State

/-- The outcome of an opcode with some operands.  An instruction has the first two of them. -/
def outcome (s : State) (op : Opcode) (operands : List Operand) : Except Fault Int64 :=
  ((Instruction.ofOperands op operands).effect s).outcome

/-- The state after a comparison. -/
def compared (s : State) (lhs rhs : Operand) : State :=
  ((Instruction.ofOperands .cmp [lhs, rhs]).effect s).state

variable {s : State} {op : Opcode} {operand lhs rhs : Operand} {value a b distance : Int64}

/-- The comparison of two values falls through. -/
lemma outcome_cmp (hlhs : s.value lhs = .ok a) (hrhs : s.value rhs = .ok b) :
    s.outcome .cmp [lhs, rhs] = .ok 0 := by
  rw [outcome, Instruction.effect_cmp hlhs hrhs]
  rfl

/-- The outcome of a jump that follows a comparison of two values. -/
lemma outcome_compared (hop : op.isJump = true) (hlhs : s.value lhs = .ok a) (hrhs : s.value rhs = .ok b)
    (distance : Int64) :
    (s.compared lhs rhs).outcome op [.integer distance] =
      .ok (if op.holdsFor (.of a b) then distance else 0) := by
  have hcategory : (s.compared lhs rhs).lastCategory = .comparison := by
    rw [compared, Instruction.effect_cmp hlhs hrhs]
    rfl
  have hcomparison : (s.compared lhs rhs).comparison = .of a b := by
    rw [compared, Instruction.effect_cmp hlhs hrhs]
    rfl
  rw [outcome, Instruction.effect_jump_of_comparison hop hcategory, hcomparison]
  rfl

/-- The outcome of a jump on a value. -/
lemma outcome_of_value (hop : op.isJump = true) (hvalue : s.value operand = .ok value) (distance : Int64) :
    s.outcome op [operand, .integer distance] = .ok (if op.holdsAt value then distance else 0) := by
  rw [outcome, Instruction.effect_jump_of_value hop hvalue]
  rfl

/-- What all jumps with some operands have in common: they fail with the same fault, or the last operand is
a literal, and each of them jumps by it if its condition holds. -/
def JumpsAlike (s : State) (operands : List Operand) : Prop :=
  (∃ fault, ∀ op : Opcode, (Effect.jumpIf op.holdsFor op.holdsAt s operands).outcome = .error fault) ∨
  ∃ distance holds, operands.getLast? = some (.integer distance) ∧ Conditions holds ∧
    ∀ op : Opcode, (Effect.jumpIf op.holdsFor op.holdsAt s operands).outcome =
      .ok (if holds op then distance else 0)

/-- With one operand the jumps look at the last comparison. -/
lemma jumpsAlike_one (s : State) (target : Operand) : s.JumpsAlike [target] := by
  by_cases hcategory : s.lastCategory = .comparison
  · cases target with
    | memory address =>
      refine .inl ⟨.operandKind, fun op => ?_⟩
      simp only [Effect.jumpIf, hcategory, ne_eq, not_true_eq_false, if_false]
      rfl
    | integer distance =>
      refine .inr ⟨distance, _, rfl, .comparison s.comparison, fun op => ?_⟩
      simp only [Effect.jumpIf, hcategory, ne_eq, not_true_eq_false, if_false]
      rfl
  · refine .inl ⟨.jumpWithoutComparison, fun op => ?_⟩
    simp only [Effect.jumpIf, ne_eq, hcategory, not_false_eq_true, if_true]
    rfl

/-- With two operands they look at the value of the first one. -/
lemma jumpsAlike_two (s : State) (operand target : Operand) : s.JumpsAlike [operand, target] := by
  cases target with
  | memory address => exact .inl ⟨.operandKind, fun op => rfl⟩
  | integer distance =>
    rcases exists_reads_or_dangling s operand with ⟨value, hvalue⟩ | hdangling
    · refine .inr ⟨distance, _, rfl, .value value, fun op => ?_⟩
      simp only [Effect.jumpIf, hvalue.value_eq]
      rfl
    · refine .inl ⟨.badAddress, fun op => ?_⟩
      simp only [Effect.jumpIf, hdangling.value_eq]
      rfl

/-- An instruction has at most two operands, so all jumps are alike. -/
lemma jumpsAlike_take (s : State) (operands : List Operand) :
    s.JumpsAlike (operands.take maxOperands) := by
  rcases operands with _ | ⟨first, _ | ⟨second, rest⟩⟩
  · exact .inl ⟨.operandCount, fun op => rfl⟩
  · exact s.jumpsAlike_one first
  · exact s.jumpsAlike_two first second

/-- The jumps are the three ways to use their common effect. -/
lemma outcome_of_isJump (hop : op.isJump = true) (operands : List Operand) :
    s.outcome op operands =
      (Effect.jumpIf op.holdsFor op.holdsAt s (operands.take maxOperands)).outcome :=
  Instruction.outcome_of_isJump (i := .ofOperands op operands) hop s

/-- The two ways to branch on a value agree.

For every operand that has a value, the comparisons with zero do not fail.  A comparison with zero and then a
jump with one operand leads as far as the jump with two operands would have led from the state before the
comparison.  If zero is compared with the value instead, then `JPOS` jumps if and only if the value is less
than zero.

With the same operands, `JZ`, `JNZ` and `JPOS` fail with the same fault, or none of them fails.  Then the
last operand is a literal, and each of them jumps by it or falls through.  If the literal is not 0, then
exactly one of `JZ` and `JNZ` jumps, and `JPOS` does so only if `JNZ` does. -/
theorem branches_agree :
    (∀ (s : State) (operand : Operand), ¬ operand.Dangling →
      ∃ value, s.Reads operand value ∧
        s.outcome .cmp [operand, .integer 0] = .ok 0 ∧ s.outcome .cmp [.integer 0, operand] = .ok 0 ∧
        (∀ (op : Opcode) (distance : Int64), op.isJump = true →
          (s.compared operand (.integer 0)).outcome op [.integer distance] =
            s.outcome op [operand, .integer distance] ∧
          s.outcome op [operand, .integer distance] = .ok (if op.holdsAt value then distance else 0)) ∧
        ∀ distance : Int64,
          (s.compared (.integer 0) operand).outcome .jpos [.integer distance] =
            .ok (if value.toInt < 0 then distance else 0)) ∧
    ∀ (s : State) (operands : List Operand),
      (∃ fault, ∀ op : Opcode, op.isJump = true → s.outcome op operands = .error fault) ∨
      ∃ distance, (operands.take maxOperands).getLast? = some (.integer distance) ∧
        (∀ op : Opcode, op.isJump = true →
          s.outcome op operands = .ok distance ∨ s.outcome op operands = .ok 0) ∧
        (distance ≠ 0 →
          Xor (s.outcome .jz operands = .ok distance) (s.outcome .jnz operands = .ok distance) ∧
          (s.outcome .jpos operands = .ok distance → s.outcome .jnz operands = .ok distance)) := by
  constructor
  · intro s operand hdangling
    obtain ⟨value, hreads⟩ := (exists_reads_or_dangling s operand).resolve_right hdangling
    refine ⟨value, hreads, outcome_cmp hreads.value_eq rfl, outcome_cmp rfl hreads.value_eq,
      fun op distance hop => ?_, fun distance => ?_⟩
    · have hjump := outcome_of_value hop hreads.value_eq distance
      refine ⟨?_, hjump⟩
      rw [outcome_compared hop hreads.value_eq rfl, Opcode.holdsFor_of_zero, hjump]
    · rw [outcome_compared rfl rfl hreads.value_eq, Opcode.holdsFor_jpos_of_zero]
      simp only [decide_eq_true_eq]
  · intro s operands
    rcases s.jumpsAlike_take operands with ⟨fault, hfault⟩ | ⟨distance, holds, hlast, hconditions, hjumps⟩
    · exact .inl ⟨fault, fun op hop => (outcome_of_isJump hop operands).trans (hfault op)⟩
    have houtcome : ∀ op : Opcode, op.isJump = true →
        s.outcome op operands = .ok (if holds op then distance else 0) :=
      fun op hop => (outcome_of_isJump hop operands).trans (hjumps op)
    refine .inr ⟨distance, hlast, fun op hop => ?_, fun hdistance => ?_⟩
    · rw [houtcome op hop]
      cases holds op
      · exact .inr rfl
      · exact .inl rfl
    · -- by a distance other than 0 a jump leads exactly if its condition holds
      have htaken : ∀ {op : Opcode}, op.isJump = true →
          (s.outcome op operands = .ok distance ↔ holds op = true) := by
        intro op hop
        rw [houtcome op hop]
        cases holds op
        · simpa using hdistance.symm
        · simp
      rw [htaken rfl, htaken rfl, htaken rfl, hconditions.jnz_eq]
      refine ⟨?_, fun hjpos => hconditions.jnz_eq ▸ hconditions.jnz_of_jpos hjpos⟩
      cases holds .jz <;> simp [Xor]

/-- The least word in a cell, and a jump by a cell. -/
theorem branches_agree_at_least_word : ∃ s : State,
    s.memory = #v[0, 0, 0, 0, 0, 0, 0, -9223372036854775808] ∧ ¬ (Operand.memory 8).Dangling ∧
    (s.compared (.memory 8) (.integer 0)).outcome .jnz [.integer (-2)] = .ok (-2) ∧
    (s.compared (.integer 0) (.memory 8)).outcome .jpos [.integer 5] = .ok 5 ∧
    Xor (s.outcome .jz [.memory 8, .integer 3] = .ok 3)
      (s.outcome .jnz [.memory 8, .integer 3] = .ok 3) := by
  let s : State := { State.initial with memory := #v[0, 0, 0, 0, 0, 0, 0, -9223372036854775808] }
  have hdangling : ¬ (Operand.memory 8).Dangling := by
    rintro ⟨h⟩
    exact h ⟨by decide, by decide⟩
  obtain ⟨hagree, hcomplement⟩ := branches_agree
  obtain ⟨value, hreads, -, -, hboth, hjpos⟩ := hagree s (.memory 8) hdangling
  obtain rfl : -9223372036854775808 = value :=
    Except.ok.inj (hreads.value_eq.symm.trans (by decide +kernel)) |>.symm
  refine ⟨s, rfl, hdangling, ?_, ?_, ?_⟩
  · rw [(hboth .jnz (-2) rfl).1, (hboth .jnz (-2) rfl).2]
    decide
  · rw [hjpos 5]
    decide
  · rcases hcomplement s [.memory 8, .integer 3] with ⟨fault, hfault⟩ | ⟨distance, hlast, -, hexact⟩
    · have hjz := (hboth .jz 3 rfl).2
      rw [hfault .jz rfl] at hjz
      cases hjz
    · obtain rfl : (3 : Int64) = distance := Operand.integer.inj (Option.some.inj hlast)
      exact (hexact (by decide)).1

end State

end StackMachine
