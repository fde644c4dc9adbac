import Mathlib.Data.Nat.Factorial.Basic
import StackMachine.Proofs.Blocks
import StackMachine.Proofs.Canonical

/-!
# A program for factorials

The program counts down in `M1` from its start value and collects the product in `M2`.  For every start
value it emits the factorial, wrapped to 64 bits, and ends (`Factorial.run_program`).  A start value below 1
has the empty product.

One time through the loop takes a factor from the counter into the product (`leads_round`).  When the
counter is no longer greater than 1, the loop is left (`leads_exit`).  The rest is an induction on the value
of the counter (`leads_loop`).
-/

namespace StackMachine.Factorial

open Instruction Text

/-! ### The program -/

/-- The program for the start value. -/
def program (n : Int64) : Program :=
  ⟨#["; Computes 5! and prints it.",
    "MOV M1, " ++ String.ofList (Decimal.ofInt n.toInt) ++ "       ; n",
    "MOV M2, 1       ; result",
    "CMP M1, 1       ; loop while n > 1",
    "JPOS 2",
    "JNZ 1, 10       ; done, go to OUTPUT",
    "PUSH M2",
    "PUSH M1",
    "MUL",
    "POP M2          ; result *= n",
    "PUSH M1",
    "PUSH -1",
    "ADD",
    "POP M1          ; n -= 1",
    "JNZ 1, -11      ; back to CMP",
    "OUTPUT M2",
    "EXIT"]⟩

example : (program 5).lines[1]? = some "MOV M1, 5       ; n" := by decide +kernel

/-- The instructions that take a factor into the product and count down. -/
def body : List Instruction :=
  [.ofOperands .push [.memory 2], .ofOperands .push [.memory 1], .ofOperands .mul [],
    .ofOperands .pop [.memory 2], .ofOperands .push [.memory 1], .ofOperands .push [.integer (-1)],
    .ofOperands .add [], .ofOperands .pop [.memory 1]]

/-- The line with the start value. -/
lemma holdsAt_start (n : Int64) :
    (program n).HoldsAt 1 (.ofOperands .mov [.memory 1, .integer n]) := by
  let i : Instruction := .ofOperands .mov [.memory 1, .integer n]
  have hreadable : i.Readable := by
    have hcell : (Operand.memory 1).Readable := by decide
    intro operand hmem
    rcases List.mem_pair.1 hmem with rfl | rfl
    · exact hcell
    · exact trivial
  have hrender : i.render = "MOV M1, " ++ String.ofList (Decimal.ofInt n.toInt) := by
    have hcell : (Operand.memory 1).render.toList = ['M', '1'] := by decide
    have hmnemonic : Opcode.mov.mnemonic.toList = ['M', 'O', 'V'] := by decide
    rw [← String.toList_inj, toList_render]
    simp [i, maxOperands, operandText_cons_cons, operandText_singleton, Operand.toList_render_integer,
      hcell, hmnemonic]
  have hblanks : "       ".toList.all isBlank = true := by decide
  have hparse := Statement.parse_render_append_comment hreadable (List.all_eq_true.1 hblanks) " n".toList
  rw [hrender] at hparse
  exact ⟨_, rfl, hparse⟩

/-- The other lines: the head of the loop, its body, and what comes behind the body. -/
lemma holds_parts (n : Int64) :
    (program n).Holds 2 [.ofOperands .mov [.memory 2, .integer 1],
      .ofOperands .cmp [.memory 1, .integer 1], .ofOperands .jpos [.integer 2],
      .ofOperands .jnz [.integer 1, .integer 10]] ∧
    (program n).Holds 6 body ∧
    (program n).Holds 14 [.ofOperands .jnz [.integer 1, .integer (-11)],
      .ofOperands .output [.memory 2], .ofOperands .exit []] := by
  have hall : (program n).Holds 2 (([.ofOperands .mov [.memory 2, .integer 1],
      .ofOperands .cmp [.memory 1, .integer 1], .ofOperands .jpos [.integer 2],
      .ofOperands .jnz [.integer 1, .integer 10]] ++ body) ++
      [.ofOperands .jnz [.integer 1, .integer (-11)], .ofOperands .output [.memory 2],
        .ofOperands .exit []]) := by
    refine Program.holds_of_map_parse ?_
    simp only [program, List.drop_succ_cons, List.drop_zero]
    decide +kernel
  obtain ⟨hfront, hback⟩ := Program.holds_append.1 hall
  obtain ⟨hhead, hbody⟩ := Program.holds_append.1 hfront
  exact ⟨hhead, hbody, hback⟩

/-! ### The state in the loop -/

/-- The cell `M1`, which counts down. -/
def counter : Fin cellCount := ⟨0, by decide⟩

/-- The cell `M2`, which collects the product. -/
def product : Fin cellCount := ⟨1, by decide⟩

/-- The state with the counter at `a` and the product at `b`, and with the given stack and flags. -/
def during (s : State) (a b : Int64) (stack : List Int64) (category : Category)
    (comparison : Comparison) : State :=
  { (s.setCell counter a).setCell product b with
    stack := stack, lastCategory := category, comparison := comparison }

variable {s : State} {a b : Int64} {stack : List Int64} {category : Category} {comparison : Comparison}

lemma cell_counter : State.cell 1 = .ok counter := by decide

lemma cell_product : State.cell 2 = .ok product := by decide

lemma value_counter : (during s a b stack category comparison).value (.memory 1) = .ok a := by
  have hcells : counter ≠ product := by decide
  have hvalue : (during s a b stack category comparison).memory.get counter = a :=
    (State.get_memory_setCell_of_ne hcells _ b).trans (State.get_memory_setCell s counter a)
  rw [State.value_of_cell cell_counter, hvalue]

lemma value_product : (during s a b stack category comparison).value (.memory 2) = .ok b := by
  have hvalue : (during s a b stack category comparison).memory.get product = b :=
    State.get_memory_setCell _ product b
  rw [State.value_of_cell cell_product, hvalue]

/-- A value is taken from the stack into the product. -/
lemma effect_pop_product (value : Int64) :
    (ofOperands .pop [.memory 2]).effect (during s a b (value :: stack) category comparison) =
      .next (during s a value stack .data comparison) := by
  rw [effect_pop cell_product rfl]
  simp [during, State.setCell]

/-- A value is taken from the stack into the counter. -/
lemma effect_pop_counter (value : Int64) :
    (ofOperands .pop [.memory 1]).effect (during s a b (value :: stack) category comparison) =
      .next (during s value b stack .data comparison) := by
  rw [effect_pop cell_counter rfl]
  have hcells : (product : Nat) ≠ counter := by decide
  simp [during, State.setCell, Vector.set_comm _ _ hcells]

/-- The body of the loop takes the counter as a factor into the product and counts down. -/
lemma passes_body : (during s a b stack category comparison).Passes body
    (during s (-1 + a) (a * b) stack .data comparison) := by
  refine .cons (effect_push value_product) (by decide) ?_
  refine .cons (effect_push value_counter) (by decide) ?_
  refine .cons (effect_mul rfl) (by decide) ?_
  refine .cons (effect_pop_product (a * b)) (by decide) ?_
  refine .cons (effect_push value_counter) (by decide) ?_
  refine .cons (effect_push rfl) (by decide) ?_
  refine .cons (effect_add rfl) (by decide) ?_
  exact .cons (effect_pop_counter (-1 + a)) (by decide) .nil

/-! ### The loop -/

lemma value_one : s.value (.integer 1) = .ok 1 := rfl

lemma length_program (n : Int64) : (program n).length = 17 := rfl

/-- The counter is compared with 1. -/
lemma leads_compare (n : Int64) (hcategory : category ≠ .exit) :
    (program n).Leads 1 3 (during s a b stack category comparison) 4
      (during s a b stack .comparison (.of a 1)) := by
  obtain ⟨⟨-, hcmp, -⟩, -⟩ := holds_parts n
  exact Program.leads_of_next hcategory hcmp (effect_cmp value_counter rfl)

/-- If the counter is greater than 1, the program goes through the loop. -/
lemma leads_round (n : Int64) (hcategory : category ≠ .exit) (ha : 1 < a) :
    (program n).Leads 11 3 (during s a b stack category comparison) 3
      (during s (-1 + a) (a * b) stack .jump .greaterThan) := by
  obtain ⟨⟨-, -, hjpos, -⟩, hbody, hjnz, -⟩ := holds_parts n
  have hcompare : (program n).Leads 1 3 (during s a b stack category comparison) 4
      (during s a b stack .comparison .greaterThan) := by
    rw [← Comparison.of_eq_greaterThan_iff.2 ha]
    exact leads_compare n hcategory
  have henter : (program n).Leads 1 4 (during s a b stack .comparison .greaterThan) 6
      (during s a b stack .jump .greaterThan) := by
    have htarget : jumpTarget (program n).length 4 2 = .ok 6 := by
      rw [length_program]
      decide
    have heffect : (ofOperands .jpos [.integer 2]).effect (during s a b stack .comparison .greaterThan) =
        .jump (during s a b stack .jump .greaterThan) 2 := effect_jump_of_comparison rfl rfl 2
    exact Program.leads_of_jump nofun hjpos heffect (by decide) htarget
  have hpass : (program n).Leads 8 6 (during s a b stack .jump .greaterThan) 14
      (during s (-1 + a) (a * b) stack .data .greaterThan) :=
    Program.leads_of_passes passes_body nofun hbody
  have hreturn : (program n).Leads 1 14 (during s (-1 + a) (a * b) stack .data .greaterThan) 3
      (during s (-1 + a) (a * b) stack .jump .greaterThan) := by
    have htarget : jumpTarget (program n).length 14 (-11) = .ok 3 := by
      rw [length_program]
      decide
    have heffect : (ofOperands .jnz [.integer 1, .integer (-11)]).effect
        (during s (-1 + a) (a * b) stack .data .greaterThan) =
          .jump (during s (-1 + a) (a * b) stack .jump .greaterThan) (-11) :=
      effect_jump_of_value rfl value_one (-11)
    exact Program.leads_of_jump nofun hjnz heffect (by decide) htarget
  exact ((hcompare.trans henter).trans hpass).trans hreturn

/-- Otherwise it leaves the loop. -/
lemma leads_exit (n : Int64) (hcategory : category ≠ .exit) (ha : ¬ 1 < a) :
    (program n).Leads 3 3 (during s a b stack category comparison) 15
      (during s a b stack .jump (.of a 1)) := by
  obtain ⟨⟨-, -, hjpos, hjnz, -⟩, -⟩ := holds_parts n
  have hskip : (program n).Leads 1 4 (during s a b stack .comparison (.of a 1)) 5
      (during s a b stack .jump (.of a 1)) := by
    have heffect : (ofOperands .jpos [.integer 2]).effect (during s a b stack .comparison (.of a 1)) =
        .next (during s a b stack .jump (.of a 1)) := by
      have hless : Opcode.jpos.holdsFor (.of a 1) = false :=
        beq_eq_false_iff_ne.2 fun heq => ha (Comparison.of_eq_greaterThan_iff.1 heq)
      rw [effect_jump_of_comparison rfl rfl 2]
      simp only [during, hless]
      rfl
    exact Program.leads_of_next nofun hjpos heffect
  have hleave : (program n).Leads 1 5 (during s a b stack .jump (.of a 1)) 15
      (during s a b stack .jump (.of a 1)) := by
    have htarget : jumpTarget (program n).length 5 10 = .ok 15 := by
      rw [length_program]
      decide
    have heffect : (ofOperands .jnz [.integer 1, .integer 10]).effect (during s a b stack .jump (.of a 1)) =
        .jump (during s a b stack .jump (.of a 1)) 10 := effect_jump_of_value rfl value_one 10
    exact Program.leads_of_jump nofun hjnz heffect (by decide) htarget
  exact ((leads_compare n hcategory).trans hskip).trans hleave

/-- With the counter at `k + 1`, the program goes through the loop `k` times and then leaves it. -/
lemma leads_loop (n : Int64) (hcategory : category ≠ .exit) {k : Nat} (hk : k + 1 < 2 ^ 63) :
    (program n).Leads (3 + 11 * k) 3 (during s (.ofNat (k + 1)) b stack category comparison) 15
      (during s 1 (.ofNat (k + 1).factorial * b) stack .jump .equal) := by
  induction k generalizing b category comparison with
  | zero =>
    have hproduct : Int64.ofNat (0 + 1).factorial * b = b := Int64.one_mul b
    rw [hproduct]
    exact leads_exit n hcategory (by decide)
  | succ k ih =>
    have hgreater : 1 < Int64.ofNat (k + 1 + 1) := by
      have hone : (1 : Int64).toInt = 1 := by decide
      rw [Int64.lt_iff_toInt_lt, Int64.toInt_ofNat_of_lt hk]
      omega
    have hcounter : -1 + Int64.ofNat (k + 1 + 1) = .ofNat (k + 1) := by
      rw [Int64.ofNat_add (k + 1) 1, Int64.add_comm, Int64.add_assoc]
      exact Int64.add_zero _
    have hproduct : Int64.ofNat (k + 1).factorial * (.ofNat (k + 1 + 1) * b) =
        .ofNat (k + 1 + 1).factorial * b := by
      rw [← Int64.mul_assoc, ← Int64.ofNat_mul, Nat.mul_comm, ← Nat.factorial_succ]
    have hcount : 11 + (3 + 11 * k) = 3 + 11 * (k + 1) := by ring
    have hround : (program n).Leads 11 3 (during s (.ofNat (k + 1 + 1)) b stack category comparison) 3
        (during s (.ofNat (k + 1)) (.ofNat (k + 1 + 1) * b) stack .jump .greaterThan) := by
      rw [← hcounter]
      exact leads_round n hcategory hgreater
    have hloop := hround.trans (ih nofun (Nat.lt_of_succ_lt hk))
    rwa [hproduct, hcount] at hloop

/-- The counter goes down from its start value to 1, unless it is not greater than 1 to begin with, and the
product becomes the factorial. -/
lemma leads_from_start (n : Int64) (hcategory : category ≠ .exit) :
    (program n).Leads (3 + 11 * (max n.toInt 1 - 1).toNat) 3 (during s n 1 stack category comparison) 15
      (during s (min n 1) (.ofNat n.toInt.toNat.factorial) stack .jump
        (if 1 ≤ n then .equal else .lessThan)) := by
  have hone : (1 : Int64).toInt = 1 := by decide
  by_cases hgreater : 1 < n
  · have hn : 1 < n.toInt := by rwa [Int64.lt_iff_toInt_lt, hone] at hgreater
    have hlt := n.toInt_lt
    obtain ⟨k, hk⟩ : ∃ k : Nat, n.toInt = k + 1 := ⟨(n.toInt - 1).toNat, by omega⟩
    have hvalue : .ofNat (k + 1) = n := by
      rw [← Int64.toInt_inj, Int64.toInt_ofNat_of_lt (by omega), hk]
      rfl
    have hloop : (program n).Leads (3 + 11 * k) 3 (during s n 1 stack category comparison) 15
        (during s 1 (.ofNat (k + 1).factorial * 1) stack .jump .equal) := by
      rw [← hvalue]
      exact leads_loop _ hcategory (by omega)
    have hcount : (max n.toInt 1 - 1).toNat = k := by omega
    have hfactors : n.toInt.toNat = k + 1 := by omega
    have hmin : min n 1 = 1 := if_neg (Int64.not_le.2 hgreater)
    rw [hcount, hfactors, hmin, if_pos (Int64.le_of_lt hgreater)]
    rwa [Int64.mul_one] at hloop
  · have hn : n.toInt ≤ 1 := by rwa [Int64.lt_iff_toInt_lt, hone, Int.not_lt] at hgreater
    have hcount : (max n.toInt 1 - 1).toNat = 0 := by omega
    have hproduct : n.toInt.toNat.factorial = 1 := Nat.factorial_eq_one.2 (by omega)
    have hmin : min n 1 = n := if_pos (Int64.not_lt.1 hgreater)
    have hcomparison : Comparison.of n 1 = if 1 ≤ n then .equal else .lessThan := by
      by_cases hless : n < 1
      · rw [Comparison.of, if_pos hless, if_neg (Int64.not_le.2 hless)]
      · rw [Comparison.of, if_neg hless, if_neg hgreater, if_pos (Int64.not_lt.1 hless)]
    rw [hcount, hproduct, hmin, ← hcomparison]
    exact leads_exit n hcategory hgreater

/-! ### The whole run -/

/-- The first lines set the counter and the product. -/
lemma leads_to_loop (n : Int64) (hcategory : s.lastCategory ≠ .exit) :
    (program n).Leads 2 0 s 3 (during s n 1 s.stack .data s.comparison) := by
  have hcomment : (program n).Leads 0 0 s 1 s := by
    have hparse : Statement.parse "; Computes 5! and prints it." = .ok none := by decide +kernel
    exact Program.leads_of_no_statement hcategory rfl hparse
  have hset : (program n).Leads 2 1 s 3 (during s n 1 s.stack .data s.comparison) := by
    have hpasses : s.Passes [.ofOperands .mov [.memory 1, .integer n],
        .ofOperands .mov [.memory 2, .integer 1]] (during s n 1 s.stack .data s.comparison) := by
      refine .cons (effect_mov rfl cell_counter) nofun ?_
      exact .cons (effect_mov rfl cell_product) nofun .nil
    exact Program.leads_of_passes hpasses hcategory ⟨holdsAt_start n, (holds_parts n).1.1, trivial⟩
  exact hcomment.trans hset

/-- The program computes factorials.  For every start value it emits the product of the numbers from 1 up to
the value, wrapped to 64 bits, and nothing else, and it ends on its `EXIT` without a failure.  The product is
1 if the value is less than 1.  Everything but `M1`, `M2` and the flags is left as it was. -/
theorem run_program (n : Int64) (s : State) (events : Array Event) (hcategory : s.lastCategory ≠ .exit)
    (hsteps : 7 + 11 * (max n.toInt 1 - 1).toNat < UInt64.size) :
    (program n).run none s events = some
      { result := .ok ⟨7 + 11 * (max n.toInt 1 - 1).toNat, true, #[]⟩
        events := events.push (.output (.ofNat n.toInt.toNat.factorial))
        state :=
          { (s.setCell counter (min n 1)).setCell product (.ofNat n.toInt.toNat.factorial) with
            lastCategory := .exit
            comparison := if 1 ≤ n then .equal else .lessThan } } := by
  obtain ⟨-, -, -, houtput, hexit, -⟩ := holds_parts n
  let result : Int64 := .ofNat n.toInt.toNat.factorial
  let comparison : Comparison := if 1 ≤ n then .equal else .lessThan
  let count : Nat := 2 + (3 + 11 * (max n.toInt 1 - 1).toNat)
  have hcompute : (program n).Leads count 0 s 15 (during s (min n 1) result s.stack .jump comparison) :=
    (leads_to_loop n hcategory).trans (leads_from_start n nofun)
  have hemit : ((program n).loop none).Steps
      ⟨15, 0 + count, #[], events, during s (min n 1) result s.stack .jump comparison⟩
      ⟨16, 0 + count + 1, #[], events.push (.output result),
        during s (min n 1) result s.stack .data comparison⟩ :=
    Program.steps_of_emit nofun houtput (effect_output value_product)
  have hend : (program n).Leads 1 16 (during s (min n 1) result s.stack .data comparison) 17
      (during s (min n 1) result s.stack .exit comparison) :=
    Program.leads_of_next nofun hexit (effect_exit [])
  have hreaches := ((hcompute 0 #[] events).tail hemit).trans (hend _ _ _)
  have hcount : 0 + count + 1 + 1 = 7 + 11 * (max n.toInt 1 - 1).toNat := by omega
  rw [hcount] at hreaches
  exact Program.run_eq_finish hreaches (.inl rfl) (Nat.le_sub_one_of_lt hsteps)

/-- The factorial of 21 is no 64-bit word, and what is emitted is less than 0. -/
theorem run_program_past_words :
    State.initial.lastCategory ≠ .exit ∧ 7 + 11 * (max (21 : Int64).toInt 1 - 1).toNat < UInt64.size ∧
      ∃ run, (program 21).run none .initial #[] = some run ∧ run.result = .ok ⟨227, true, #[]⟩ ∧
        run.events = #[.output (-4249290049419214848)] ∧
        run.state = { State.initial with
          memory := #v[1, -4249290049419214848, 0, 0, 0, 0, 0, 0], lastCategory := .exit } := by
  have hcategory : State.initial.lastCategory ≠ .exit := by decide
  have hsteps : 7 + 11 * (max (21 : Int64).toInt 1 - 1).toNat < UInt64.size := by decide
  refine ⟨hcategory, hsteps, _, run_program 21 .initial #[] hcategory hsteps, ?_, ?_, ?_⟩
  · decide +kernel
  · decide +kernel
  · decide +kernel

end StackMachine.Factorial
