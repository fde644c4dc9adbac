import StackMachine.Proofs.Effects
import StackMachine.Run

/-!
# Instructions, operation by operation

`Opcode.effect` says what comes of an instruction as a whole.  Here an instruction is a sequence of
operations on the machine instead (`Opcode.perform`): operands are looked up one after the other, values
are taken from the stack one by one, and a cell is checked whenever it is accessed.  Each operation can
fail.  Then the instruction is over, and nothing that has been done before is taken back.

Both are the same (`Instruction.effect_perform`), so an instruction never fails after it has changed
something: `ADD` has counted the stack before it takes two values, and `POP` has checked its cell before it
takes one.  That a failure leaves the machine as it was follows from the instruction table, where each row
of a failure says so (`Row.eq_fail`).
-/

namespace StackMachine

/-! ### Operations -/

/-- The machine while an instruction is carried out. -/
structure Bench where
  /-- The state at the moment. -/
  state : State
  /-- The value that has been emitted, if there is one. -/
  emitted : Option Int64

/-- Something that is done to the machine.  It answers something or fails, and in either case it leaves the
machine as it is then. -/
def Operation (α : Type) : Type :=
  Bench → Except Fault α × Bench

namespace Operation

variable {α β : Type}

/-- A sequence of operations is over when one of them fails. -/
instance : Monad Operation where
  pure a := fun bench => (.ok a, bench)
  bind operation next := fun bench =>
    match operation bench with
    | (.ok a, bench') => next a bench'
    | (.error fault, bench') => (.error fault, bench')

/-- Looks something up in the state. -/
def look (f : State → Except Fault α) : Operation α :=
  fun bench => (f bench.state, bench)

/-- Changes the state. -/
def change (f : State → Except Fault (α × State)) : Operation α :=
  fun bench =>
    match f bench.state with
    | .ok (a, s) => (.ok a, { bench with state := s })
    | .error fault => (.error fault, bench)

/-- Emits a value. -/
def emit (value : Int64) : Operation Unit :=
  fun bench => (.ok (), { bench with emitted := some value })

/-- Fails with the given fault. -/
def fail (fault : Fault) : Operation α :=
  look fun _ => .error fault

/-- Records the category of an instruction after the operation, whether it has failed or not. -/
def recording (operation : Operation α) (category : Category) : Operation α :=
  fun bench =>
    let (result, bench') := operation bench
    (result, { bench' with state := { bench'.state with lastCategory := category } })

/-- What comes of an operation on a state. -/
def effect (operation : Operation Int64) (s : State) : Effect :=
  let (outcome, bench) := operation ⟨s, none⟩
  ⟨outcome, bench.emitted, bench.state⟩

/-- A failing look ends the instruction, and the state is as it was. -/
lemma effect_look_bind (f : State → Except Fault α) (next : α → Operation Int64) (s : State) :
    effect (look f >>= next) s =
      match f s with
      | .ok a => effect (next a) s
      | .error fault => .fail s fault := by
  simp only [effect, look, bind]
  cases f s <;> rfl

/-- After a change the instruction goes on with the changed state. -/
lemma effect_change_bind (f : State → Except Fault (α × State)) (next : α → Operation Int64)
    (s : State) :
    effect (change f >>= next) s =
      match f s with
      | .ok (a, s') => effect (next a) s'
      | .error fault => .fail s fault := by
  simp only [effect, change, bind]
  cases f s <;> rfl

/-! ### The opcodes -/

/-- Takes the top of the stack. -/
def popValue : Operation Int64 :=
  change State.pop

/-- Puts a value on the stack. -/
def pushValue (value : Int64) : Operation Unit :=
  change fun s => .ok ((), s.push value)

/-- Writes into a cell, after a check of its address. -/
def writeCell (target value : Int64) : Operation Unit :=
  change fun s => (s.write target value).map ((), ·)

/-- Takes two values and puts back their combination. -/
def combine (f : Int64 → Int64 → Int64) : List Operand → Operation Int64
  | [] => do
    look fun s => if s.stack.length < 2 then .error .stackUnderflow else .ok ()
    let a ← popValue
    let b ← popValue
    pushValue (f a b)
    return 0
  | _ => fail .operandCount

/-- Looks the source up and writes it into the cell. -/
def move : List Operand → Operation Int64
  | [.memory target, source] => do
    let value ← look (·.value source)
    writeCell target value
    return 0
  | [_, _] => fail .operandKind
  | _ => fail .operandCount

/-- Looks the operand up and puts it on the stack. -/
def push : List Operand → Operation Int64
  | [operand] => do
    let value ← look (·.value operand)
    pushValue value
    return 0
  | _ => fail .operandCount

/-- Checks the cell, takes the top of the stack and writes it, which checks the cell again. -/
def pop : List Operand → Operation Int64
  | [.memory target] => do
    let _ ← look fun _ => State.cell target
    let value ← popValue
    writeCell target value
    return 0
  | [_] => fail .operandKind
  | _ => fail .operandCount

/-- Looks both operands up and keeps how they compare. -/
def compare : List Operand → Operation Int64
  | [lhs, rhs] => do
    let a ← look (·.value lhs)
    let b ← look (·.value rhs)
    change fun s => .ok ((), { s with comparison := .of a b })
    return 0
  | _ => fail .operandCount

/-- Asks the last comparison, if there has just been one, or looks the first operand up, and answers the
distance if the condition holds. -/
def jumpIf (onComparison : Comparison → Bool) (onValue : Int64 → Bool) :
    List Operand → Operation Int64
  | [target] => do
    look fun s => if s.lastCategory ≠ .comparison then .error .jumpWithoutComparison else .ok ()
    match target with
    | .integer distance => do
      let comparison ← look (.ok ·.comparison)
      return if onComparison comparison then distance else 0
    | .memory _ => fail .operandKind
  | [operand, .integer distance] => do
    let value ← look (·.value operand)
    return if onValue value then distance else 0
  | [_, _] => fail .operandKind
  | _ => fail .operandCount

/-- Looks the operand up and emits it. -/
def output : List Operand → Operation Int64
  | [operand] => do
    let value ← look (·.value operand)
    emit value
    return 0
  | _ => fail .operandCount

end Operation

/-- What an opcode does with its operands, one operation after the other. -/
def Opcode.perform : Opcode → List Operand → Operation Int64
  | .add => Operation.combine (· + ·)
  | .mul => Operation.combine (· * ·)
  | .mov => Operation.move
  | .push => Operation.push
  | .pop => Operation.pop
  | .cmp => Operation.compare
  | .jz => Operation.jumpIf (· == .equal) (· == 0)
  | .jnz => Operation.jumpIf (· != .equal) (· != 0)
  | .jpos => Operation.jumpIf (· == .greaterThan) (0 < ·)
  | .output => Operation.output
  | .exit => fun _ => pure 0

/-- Carries out an instruction, one operation after the other. -/
def Instruction.perform (i : Instruction) : Operation Int64 :=
  (i.opcode.perform i.operands).recording i.opcode.category

namespace Operation

variable (s : State) (operands : List Operand)

lemma effect_combine (f : Int64 → Int64 → Int64) :
    (combine f operands).effect s = Effect.combine f s operands := by
  cases operands with
  | cons operand rest => rfl
  | nil =>
    rcases s with ⟨memory, _ | ⟨a, _ | ⟨b, rest⟩⟩, category, comparison⟩
    · rfl
    · rfl
    · rfl

lemma effect_move : (move operands).effect s = Effect.move s operands := by
  match operands with
  | [.memory target, source] =>
    simp only [move, Effect.move, effect_look_bind, writeCell, effect_change_bind]
    cases s.value source with
    | error fault => rfl
    | ok value =>
      simp only
      cases s.write target value <;> rfl
  | [.integer _, _] => rfl
  | [] | [.memory _] | [.integer _] => rfl
  | .memory _ :: _ :: _ :: _ | .integer _ :: _ :: _ :: _ => rfl

lemma effect_push : (push operands).effect s = Effect.push s operands := by
  match operands with
  | [operand] =>
    simp only [push, Effect.push, effect_look_bind, pushValue, effect_change_bind]
    cases s.value operand <;> rfl
  | [] | _ :: _ :: _ => rfl

/-- The cell that `POP` writes has been checked before, so the second check does not fail. -/
lemma effect_pop : (pop operands).effect s = Effect.pop s operands := by
  match operands with
  | [.memory target] =>
    simp only [pop, Effect.pop, effect_look_bind, popValue, writeCell, effect_change_bind, State.write]
    cases State.cell target with
    | error fault => rfl
    | ok cell =>
      simp only
      cases s.pop <;> rfl
  | [.integer _] => rfl
  | [] | .memory _ :: _ :: _ | .integer _ :: _ :: _ => rfl

lemma effect_compare : (compare operands).effect s = Effect.compare s operands := by
  match operands with
  | [lhs, rhs] =>
    simp only [compare, Effect.compare, effect_look_bind, effect_change_bind]
    cases s.value lhs with
    | error fault => rfl
    | ok a =>
      simp only
      cases s.value rhs <;> rfl
  | [] | [_] | _ :: _ :: _ :: _ => rfl

lemma effect_jumpIf (onComparison : Comparison → Bool) (onValue : Int64 → Bool) :
    (jumpIf onComparison onValue operands).effect s =
      Effect.jumpIf onComparison onValue s operands := by
  match operands with
  | [target] =>
    simp only [jumpIf, Effect.jumpIf, effect_look_bind]
    by_cases hcategory : s.lastCategory ≠ .comparison
    · simp only [if_pos hcategory]
    · simp only [if_neg hcategory]
      cases target <;> rfl
  | [operand, .integer distance] =>
    simp only [jumpIf, Effect.jumpIf, effect_look_bind]
    cases s.value operand <;> rfl
  | [_, .memory _] => rfl
  | [] | _ :: .memory _ :: _ :: _ | _ :: .integer _ :: _ :: _ => rfl

lemma effect_output : (output operands).effect s = Effect.output s operands := by
  match operands with
  | [operand] =>
    simp only [output, Effect.output, effect_look_bind]
    cases s.value operand <;> rfl
  | [] | _ :: _ :: _ => rfl

end Operation

/-- An opcode has the same effect in one piece and operation by operation. -/
lemma Opcode.effect_perform (op : Opcode) (operands : List Operand) (s : State) :
    (op.perform operands).effect s = op.effect s operands := by
  cases op with
  | add | mul => exact Operation.effect_combine s operands _
  | mov => exact Operation.effect_move s operands
  | push => exact Operation.effect_push s operands
  | pop => exact Operation.effect_pop s operands
  | cmp => exact Operation.effect_compare s operands
  | jz | jnz | jpos => exact Operation.effect_jumpIf s operands _ _
  | output => exact Operation.effect_output s operands
  | exit => rfl

/-- So has an instruction. -/
lemma Instruction.effect_perform (i : Instruction) (s : State) : i.perform.effect s = i.effect s := by
  rw [Instruction.effect, ← Opcode.effect_perform]
  rfl

/-! ### Failures -/

/-- A failure changes nothing but the category.  An instruction that fails, however far its operations have
got, has emitted nothing, and it leaves the memory, the stack and the comparison as they were and its own
category behind.  A line that cannot be read leaves the category as it was, too. -/
theorem State.unchanged_of_failure :
    (∀ (i : Instruction) (s : State), i.perform.effect s = i.effect s) ∧
    (∀ (i : Instruction) (s : State) (fault : Fault), (i.effect s).outcome = .error fault →
      i.effect s = ⟨.error fault, none, { s with lastCategory := i.opcode.category }⟩) ∧
    (∀ (text : String) (s : State) (fault : Fault), Statement.parse text = .error fault →
      s.runLine text = ⟨.error fault, none, s⟩) := by
  refine ⟨Instruction.effect_perform, fun i s fault h => ?_, fun text s fault h => ?_⟩
  · have hfail : i.opcode.effect s i.operands = .fail s fault := Opcode.effect_eq_fail h
    rw [Instruction.effect, hfail]
    rfl
  · rw [runLine, h]
    rfl

/-- A `POP` that has a value, but no cell for it, and an operand that is no numeral. -/
theorem State.unchanged_of_failure_examples :
    (Instruction.ofOperands .pop [.memory 9]).effect
        { initial with stack := [7], lastCategory := .comparison, comparison := .lessThan } =
      ⟨.error .badAddress, none,
        { initial with stack := [7], lastCategory := .data, comparison := .lessThan }⟩ ∧
    { initial with stack := [7], lastCategory := .comparison }.runLine "PUSH M1x" =
      ⟨.error .badAddress, none, { initial with stack := [7], lastCategory := .comparison }⟩ := by
  constructor
  · exact unchanged_of_failure.2.1 _ _ _ (by decide)
  · exact unchanged_of_failure.2.2 _ _ _ (by decide +kernel)

end StackMachine
