import StackMachine.Proofs.Blocks
import StackMachine.Proofs.Canonical

/-!
# Expressions in postfix order

An expression is built from literals and cells by sums and products.  Its postfix program has one line for
each node: the lines of the left operand, then those of the right one, then the operation.  Such a program
leaves the value of its expression on the stack and everything below it alone (`Expr.passes_instructions`).

The machine wraps every sum and every product to 64 bits, and it takes the right operand of an operation
from the stack before the left one.  Neither is to be seen in the end: the result is the value in integers,
wrapped once, and operands may change places anywhere (`Expr.run_postfix`).
-/

namespace StackMachine

open Text

/-- An expression over the cells of the memory. -/
inductive Expr where
  /-- A literal. -/
  | literal (n : Int64)
  /-- What a cell holds. -/
  | cell (c : Fin cellCount)
  /-- A sum. -/
  | sum (lhs rhs : Expr)
  /-- A product. -/
  | product (lhs rhs : Expr)
deriving DecidableEq, Repr

namespace Expr

/-- The number of nodes, leaves included. -/
def size : Expr → Nat
  | literal _ | cell _ => 1
  | sum lhs rhs | product lhs rhs => lhs.size + rhs.size + 1

/-- The value of an expression in a memory, an integer of any size. -/
def value (memory : Vector Int64 cellCount) : Expr → Int
  | literal n => n.toInt
  | cell c => (memory.get c).toInt
  | sum lhs rhs => lhs.value memory + rhs.value memory
  | product lhs rhs => lhs.value memory * rhs.value memory

/-- The lines of the postfix program. -/
def lines : Expr → List String
  | literal n => ["PUSH " ++ String.ofList (Decimal.ofInt n.toInt)]
  | cell c => ["PUSH M" ++ String.ofList (Decimal.ofNat (c + 1))]
  | sum lhs rhs => lhs.lines ++ rhs.lines ++ ["ADD"]
  | product lhs rhs => lhs.lines ++ rhs.lines ++ ["MUL"]

/-- The instructions of the postfix program. -/
def instructions : Expr → List Instruction
  | literal n => [.ofOperands .push [.integer n]]
  | cell c => [.ofOperands .push [.memory (State.address c)]]
  | sum lhs rhs => lhs.instructions ++ rhs.instructions ++ [.ofOperands .add []]
  | product lhs rhs => lhs.instructions ++ rhs.instructions ++ [.ofOperands .mul []]

/-- The second expression is the first one with the operands of some nodes in the other order. -/
inductive Swapped : Expr → Expr → Prop
  | refl (e : Expr) : Swapped e e
  | sum {lhs rhs lhs' rhs' : Expr} (hlhs : Swapped lhs lhs') (hrhs : Swapped rhs rhs') :
    Swapped (sum lhs rhs) (sum lhs' rhs')
  | sumSwap {lhs rhs lhs' rhs' : Expr} (hlhs : Swapped lhs lhs') (hrhs : Swapped rhs rhs') :
    Swapped (sum lhs rhs) (sum rhs' lhs')
  | product {lhs rhs lhs' rhs' : Expr} (hlhs : Swapped lhs lhs') (hrhs : Swapped rhs rhs') :
    Swapped (product lhs rhs) (product lhs' rhs')
  | productSwap {lhs rhs lhs' rhs' : Expr} (hlhs : Swapped lhs lhs') (hrhs : Swapped rhs rhs') :
    Swapped (product lhs rhs) (product rhs' lhs')

variable {e e' : Expr}

/-- Sums and products do not depend on the order of their operands. -/
lemma Swapped.value_eq (h : Swapped e e') (memory : Vector Int64 cellCount) :
    e'.value memory = e.value memory := by
  induction h with
  | refl e => rfl
  | sum _ _ ihl ihr => rw [value, value, ihl, ihr]
  | sumSwap _ _ ihl ihr => rw [value, value, ihl, ihr, Int.add_comm]
  | product _ _ ihl ihr => rw [value, value, ihl, ihr]
  | productSwap _ _ ihl ihr => rw [value, value, ihl, ihr, Int.mul_comm]

lemma Swapped.size_eq (h : Swapped e e') : e'.size = e.size := by
  induction h with
  | refl e => rfl
  | sum _ _ ihl ihr | product _ _ ihl ihr => rw [size, size, ihl, ihr]
  | sumSwap _ _ ihl ihr | productSwap _ _ ihl ihr => rw [size, size, ihl, ihr, Nat.add_comm (size _)]

/-! ### The program -/

lemma length_instructions (e : Expr) : e.instructions.length = e.size := by
  induction e with
  | literal n | cell c => rfl
  | sum lhs rhs ihl ihr | product lhs rhs ihl ihr =>
    rw [instructions, List.length_append, List.length_append, ihl, ihr, List.length_singleton, size]

/-- The lines are the canonical statements for the instructions. -/
lemma lines_eq_map_render (e : Expr) : e.lines = e.instructions.map Instruction.render := by
  induction e with
  | literal n =>
    have hmnemonic : Opcode.push.mnemonic.toList = "PUSH".toList := by decide
    have hrender : (Instruction.ofOperands .push [.integer n]).render =
        "PUSH " ++ String.ofList (Decimal.ofInt n.toInt) := by
      rw [← String.toList_inj, Instruction.toList_render]
      simp [maxOperands, operandText_singleton, Operand.toList_render_integer, hmnemonic]
    rw [lines, instructions, List.map_singleton, hrender]
  | cell c =>
    revert c
    decide
  | sum lhs rhs ihl ihr | product lhs rhs ihl ihr =>
    rw [lines, instructions, ihl, ihr, List.map_append, List.map_append]
    rfl

/-- A statement can hold each of the instructions. -/
lemma readable_of_mem_instructions {i : Instruction} (h : i ∈ e.instructions) : i.Readable := by
  induction e with
  | literal n =>
    obtain rfl := List.mem_singleton.1 h
    intro operand hoperand
    obtain rfl := List.mem_singleton.1 hoperand
    exact trivial
  | cell c =>
    obtain rfl := List.mem_singleton.1 h
    intro operand hoperand
    obtain rfl := List.mem_singleton.1 hoperand
    revert c
    decide
  | sum lhs rhs ihl ihr | product lhs rhs ihl ihr =>
    rcases List.mem_append.1 h with h | h
    · rcases List.mem_append.1 h with h | h
      · exact ihl h
      · exact ihr h
    · obtain rfl := List.mem_singleton.1 h
      exact List.forall_mem_nil _

/-- The lines are read as the instructions. -/
lemma map_parse_lines (e : Expr) :
    e.lines.map Statement.parse = e.instructions.map fun i => .ok (some i) := by
  rw [lines_eq_map_render, List.map_map]
  apply List.map_congr_left
  intro i hi
  exact Statement.parse_render_of_readable (readable_of_mem_instructions hi)

/-! ### The value on the stack -/

/-- The state with the value of the expression on the stack, wrapped to 64 bits. -/
def pushed (e : Expr) (s : State) : State :=
  { s with stack := .ofInt (e.value s.memory) :: s.stack, lastCategory := .data }

/-- The instructions of an expression, carried out in any state, leave its value on the stack.  The
operations find the values of their operands above whatever has been there before. -/
theorem passes_instructions (e : Expr) (s : State) : s.Passes e.instructions (e.pushed s) := by
  induction e generalizing s with
  | literal n =>
    have heffect : (Instruction.ofOperands .push [.integer n]).effect s = .next ((literal n).pushed s) := by
      rw [Instruction.effect_push rfl, pushed, value, Int64.ofInt_toInt]
    exact .cons heffect nofun .nil
  | cell c =>
    have heffect : (Instruction.ofOperands .push [.memory (State.address c)]).effect s =
        .next ((cell c).pushed s) := by
      rw [Instruction.effect_push (State.value_of_cell (State.cell_address c)), pushed, value,
        Int64.ofInt_toInt]
    exact .cons heffect nofun .nil
  | sum lhs rhs ihl ihr =>
    have heffect : (Instruction.ofOperands .add []).effect (rhs.pushed (lhs.pushed s)) =
        .next ((sum lhs rhs).pushed s) := by
      rw [Instruction.effect_add rfl, ← Int64.ofInt_add, Int.add_comm]
      rfl
    exact ((ihl s).append (ihr (lhs.pushed s))).append (.cons heffect nofun .nil)
  | product lhs rhs ihl ihr =>
    have heffect : (Instruction.ofOperands .mul []).effect (rhs.pushed (lhs.pushed s)) =
        .next ((product lhs rhs).pushed s) := by
      rw [Instruction.effect_mul rfl, ← Int64.ofInt_mul, Int.mul_comm]
      rfl
    exact ((ihl s).append (ihr (lhs.pushed s))).append (.cons heffect nofun .nil)

/-- A postfix program evaluates its expression.

From every state in which no `EXIT` has been carried out, the program of an expression comes to its end
without a failure and without an output, after one step for each node.  It leaves the value of the
expression on the stack, computed in integers over the memory from before the run and wrapped to 64 bits.
The stack below the value, the memory and the comparison are as they were.  All this stays the same, the
value included, if operands change places anywhere in the expression, and however the lines are spelled.

There is this result in any case.  It is the answer of `Program.run`, provided that the steps can be
counted. -/
theorem run_postfix {e e' : Expr} (hswapped : Swapped e e') {program : Program}
    (hlines : program.lines.toList.map Statement.parse = e'.lines.map Statement.parse) (s : State)
    (events : Array Event) (hcategory : s.lastCategory ≠ .exit) :
    ∃ run, (program.loop none).Ends (.start s events) run ∧
      (e.size ≤ Program.stepCapacity → program.run none s events = some run) ∧
      run.result = .ok ⟨e.size, false, #[]⟩ ∧ run.events = events ∧
      run.state =
        { s with stack := .ofInt (e.value s.memory) :: s.stack, lastCategory := .data } := by
  have hparse : program.lines.toList.map Statement.parse =
      e'.instructions.map fun i => .ok (some i) := hlines.trans e'.map_parse_lines
  have hlength : program.length = e.size := by
    have hcount := congrArg List.length hparse
    rw [List.length_map, List.length_map, Array.length_toList, length_instructions,
      hswapped.size_eq] at hcount
    exact hcount
  have hlead : program.Leads e.size 0 s e.size (e'.pushed s) := by
    have hholds : program.Holds 0 e'.instructions := Program.holds_of_map_parse hparse
    have hlead := Program.leads_of_passes (e'.passes_instructions s) hcategory hholds
    rwa [length_instructions, hswapped.size_eq, Nat.zero_add] at hlead
  have hreaches := hlead 0 #[] events
  have hover : (e'.pushed s).lastCategory = .exit ∨ program.length ≤ e.size := .inr hlength.le
  refine ⟨_, Program.ends_finish hreaches hover, ?_, ?_, rfl, ?_⟩
  · intro hsteps
    exact Program.run_eq_finish hreaches hover (by rwa [Nat.zero_add])
  · rw [Nat.zero_add]
    rfl
  · rw [← hswapped.value_eq s.memory]
    rfl

/-- Four times a cell and two more: the product is too great for a word, the operands of the sum change
places, and the lines are spelled in other ways. -/
theorem run_postfix_past_words : ∃ (c : Fin cellCount) (program : Program) (s : State) (run : Run),
    Swapped (sum (product (cell c) (literal 4)) (literal 2))
      (sum (literal 2) (product (cell c) (literal 4))) ∧
    program.lines = #["push +2", "PUSH M1 ; n", " Push 4", "mul", "ADD"] ∧
    program.lines.toList.map Statement.parse =
      (sum (literal 2) (product (cell c) (literal 4))).lines.map Statement.parse ∧
    s.lastCategory ≠ .exit ∧ s.memory.get c = 4611686018427387905 ∧ s.stack = [9] ∧
    program.run none s #[] = some run ∧ run.result = .ok ⟨5, false, #[]⟩ ∧ run.events = #[] ∧
    run.state.stack = [6, 9] := by
  let c : Fin cellCount := ⟨0, by decide⟩
  let program : Program := ⟨#["push +2", "PUSH M1 ; n", " Push 4", "mul", "ADD"]⟩
  let s : State := { State.initial with
    memory := #v[4611686018427387905, 0, 0, 0, 0, 0, 0, 0], stack := [9] }
  have hswapped : Swapped (sum (product (cell c) (literal 4)) (literal 2))
      (sum (literal 2) (product (cell c) (literal 4))) := .sumSwap (.refl _) (.refl _)
  have hlines : program.lines.toList.map Statement.parse =
      (sum (literal 2) (product (cell c) (literal 4))).lines.map Statement.parse := by decide +kernel
  obtain ⟨run, -, hrun, hresult, hevents, hstate⟩ := run_postfix hswapped hlines s #[] nofun
  refine ⟨c, program, s, run, hswapped, rfl, hlines, nofun, rfl, rfl, hrun (by decide), hresult, hevents,
    ?_⟩
  rw [hstate]
  decide +kernel

end Expr

end StackMachine
