import StackMachine.State

/-!
# The effect of an instruction

`Instruction.effect` carries out one instruction on a state. An `Effect` holds the outcome, the value
that was emitted if there is one, and the new state. The outcome is a fault or a jump distance in lines,
where 0 means to go on with the next line.

Each opcode checks everything before it changes anything, so a fault leaves memory, stack and comparison
alone. The category of the instruction is recorded whether it succeeds or not.
-/

namespace StackMachine

/-- What comes of one instruction. -/
structure Effect where
  /-- A jump distance, or the fault that stopped the instruction. -/
  outcome : Except Fault Int64
  /-- The emitted value. -/
  emitted : Option Int64
  /-- The state afterwards. -/
  state : State

namespace Effect

/-- The instruction fails in the given state. -/
def fail (s : State) (fault : Fault) : Effect :=
  ⟨.error fault, none, s⟩

/-- The instruction is done and moves on by the given distance. -/
def jump (s : State) (distance : Int64) : Effect :=
  ⟨.ok distance, none, s⟩

/-- The instruction is done, and the next line follows. -/
def next (s : State) : Effect :=
  jump s 0

/-- The instruction is done and has emitted a value. -/
def emit (s : State) (value : Int64) : Effect :=
  ⟨.ok 0, some value, s⟩

/-! ### The opcodes -/

/-- Replaces the two top values of the stack by their combination. -/
def combine (f : Int64 → Int64 → Int64) (s : State) : List Operand → Effect
  | [] =>
    match s.stack with
    | a :: b :: rest => next { s with stack := f a b :: rest }
    | _ => fail s .stackUnderflow
  | _ => fail s .operandCount

/-- Copies the value of the second operand into the cell that the first one names. -/
def move (s : State) : List Operand → Effect
  | [.memory target, source] =>
    match s.value source with
    | .error fault => fail s fault
    | .ok value =>
      match s.write target value with
      | .error fault => fail s fault
      | .ok s' => next s'
  | [_, _] => fail s .operandKind
  | _ => fail s .operandCount

/-- Puts the value of the operand on the stack. -/
def push (s : State) : List Operand → Effect
  | [operand] =>
    match s.value operand with
    | .error fault => fail s fault
    | .ok value => next (s.push value)
  | _ => fail s .operandCount

/-- Moves the top of the stack into a cell. The address is checked before the stack. -/
def pop (s : State) : List Operand → Effect
  | [.memory target] =>
    match State.cell target with
    | .error fault => fail s fault
    | .ok i =>
      match s.pop with
      | .error fault => fail s fault
      | .ok (value, s') => next (s'.setCell i value)
  | [_] => fail s .operandKind
  | _ => fail s .operandCount

/-- Compares the values of the two operands. -/
def compare (s : State) : List Operand → Effect
  | [lhs, rhs] =>
    match s.value lhs with
    | .error fault => fail s fault
    | .ok a =>
      match s.value rhs with
      | .error fault => fail s fault
      | .ok b => next { s with comparison := .of a b }
  | _ => fail s .operandCount

/-- Jumps by the distance in the last operand if a condition holds. With one operand the condition is
about the comparison that the instruction just before has made; with two it is about the value of the
first operand. -/
def jumpIf (onComparison : Comparison → Bool) (onValue : Int64 → Bool) (s : State) :
    List Operand → Effect
  | [target] =>
    if s.lastCategory ≠ .comparison then fail s .jumpWithoutComparison
    else
      match target with
      | .integer distance => jump s (if onComparison s.comparison then distance else 0)
      | .memory _ => fail s .operandKind
  | [operand, .integer distance] =>
    match s.value operand with
    | .error fault => fail s fault
    | .ok value => jump s (if onValue value then distance else 0)
  | [_, _] => fail s .operandKind
  | _ => fail s .operandCount

/-- Emits the value of the operand. -/
def output (s : State) : List Operand → Effect
  | [operand] =>
    match s.value operand with
    | .error fault => fail s fault
    | .ok value => emit s value
  | _ => fail s .operandCount

end Effect

/-- What an opcode does with its operands, apart from the record of its category. -/
def Opcode.effect : Opcode → State → List Operand → Effect
  | .add => Effect.combine (· + ·)
  | .mul => Effect.combine (· * ·)
  | .mov => Effect.move
  | .push => Effect.push
  | .pop => Effect.pop
  | .cmp => Effect.compare
  | .jz => Effect.jumpIf (· == .equal) (· == 0)
  | .jnz => Effect.jumpIf (· != .equal) (· != 0)
  | .jpos => Effect.jumpIf (· == .greaterThan) (0 < ·)
  | .output => Effect.output
  | .exit => fun s _ => Effect.next s

/-- Carries out an instruction. -/
def Instruction.effect (i : Instruction) (s : State) : Effect :=
  let effect := i.opcode.effect s i.operands
  { effect with state := { effect.state with lastCategory := i.opcode.category } }

/-- The instruction's category is recorded, whether it succeeds or not. -/
@[simp] theorem Instruction.lastCategory_effect (i : Instruction) (s : State) :
    (i.effect s).state.lastCategory = i.opcode.category := rfl

end StackMachine
