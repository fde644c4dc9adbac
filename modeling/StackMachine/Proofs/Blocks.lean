import StackMachine.Proofs.Dispatches
import StackMachine.Proofs.Effects

/-!
# Blocks of a program

What a certain program does is put together from what its parts do.  `Program.Leads` is the form in which
this is said of a part: from a position and a state the program gets, within a number of steps, to another
position and another state, without a report on the way.  Parts that follow each other are joined by
`Leads.trans`.

A part without jumps is a list of instructions that are carried out in their order (`State.Passes`), and
the program leads from its beginning to its end (`Program.leads_of_passes`).
-/

namespace StackMachine

/-! ### Instructions in order -/

/-- From the first state the instructions lead to the second one if they are carried out in their order:
each of them succeeds, and none of them jumps, emits a value or ends the program. -/
inductive State.Passes : State → List Instruction → State → Prop
  | nil {s : State} : Passes s [] s
  | cons {s s' t : State} {i : Instruction} {rest : List Instruction} (heffect : i.effect s = .next s')
    (hexit : i.opcode ≠ .exit) (hrest : Passes s' rest t) : Passes s (i :: rest) t

/-- Instructions in order can be followed by others. -/
lemma State.Passes.append {s s' t : State} {first rest : List Instruction} (h : s.Passes first s')
    (hrest : s'.Passes rest t) : s.Passes (first ++ rest) t := by
  induction h with
  | nil => exact hrest
  | cons heffect hexit _ ih => exact .cons heffect hexit (ih hrest)

namespace Program

/-- The line at the position holds the instruction. -/
def HoldsAt (program : Program) (position : Nat) (i : Instruction) : Prop :=
  ∃ text, program.lines[position]? = some text ∧ Statement.parse text = .ok (some i)

/-- The lines from the position on hold the instructions. -/
def Holds (program : Program) : Nat → List Instruction → Prop
  | _, [] => True
  | position, i :: rest => program.HoldsAt position i ∧ program.Holds (position + 1) rest

/-- From the position and the state, a run without a step limit gets to the second position and state in
the given number of steps, and reports nothing on the way. -/
def Leads (program : Program) (count position : Nat) (s : State) (position' : Nat) (s' : State) : Prop :=
  ∀ steps failures events, (program.loop none).Reaches ⟨position, steps, failures, events, s⟩
    ⟨position', steps + count, failures, events, s'⟩

variable {program : Program} {position position' : Nat} {s s' t : State} {i : Instruction}
  {instructions : List Instruction}

lemma holds_append {first rest : List Instruction} :
    program.Holds position (first ++ rest) ↔
      program.Holds position first ∧ program.Holds (position + first.length) rest := by
  induction first generalizing position with
  | nil => simp [Holds]
  | cons i first ih =>
    rw [List.cons_append, Holds, Holds, ih, and_assoc, List.length_cons, Nat.add_assoc,
      Nat.add_comm first.length 1, ← Nat.add_assoc]

/-- A program holds what can be read from its last lines. -/
lemma holds_of_map_parse
    (h : (program.lines.toList.drop position).map Statement.parse = instructions.map fun i => .ok (some i)) :
    program.Holds position instructions := by
  induction instructions generalizing position with
  | nil => exact trivial
  | cons i instructions ih =>
    cases hlines : program.lines.toList.drop position with
    | nil => simp [hlines] at h
    | cons text texts =>
      rw [hlines] at h
      obtain ⟨hi, hrest⟩ := List.cons.inj h
      have hline : program.lines[position]? = some text := by
        have hhead := congrArg (·[0]?) hlines
        simpa using hhead
      have htexts : program.lines.toList.drop (position + 1) = texts := by
        have htail := congrArg List.tail hlines
        simpa using htail
      exact ⟨⟨text, hline, hi⟩, ih (htexts ▸ hrest)⟩

namespace Leads

lemma refl (program : Program) (position : Nat) (s : State) : program.Leads 0 position s position s :=
  fun _ _ _ => .refl

/-- Parts that follow each other are joined. -/
lemma trans {m n position'' : Nat} (h : program.Leads m position s position' s')
    (h' : program.Leads n position' s' position'' t) : program.Leads (m + n) position s position'' t := by
  intro steps failures events
  have hreaches := (h steps failures events).trans (h' (steps + m) failures events)
  rwa [Nat.add_assoc] at hreaches

end Leads

/-- A line without a statement is skipped, and it counts as no step. -/
lemma leads_of_no_statement {text : String} (hexit : s.lastCategory ≠ .exit)
    (hline : program.lines[position]? = some text) (hparse : Statement.parse text = .ok none) :
    program.Leads 0 position s (position + 1) s := by
  intro steps failures events
  exact .single (steps_loop_iff.2 ⟨hexit, text, hline, .skipped hparse⟩)

/-- An instruction that succeeds and does not jump is followed by the next line. -/
lemma steps_of_ok_zero {p : Progress} (hexit : p.state.lastCategory ≠ .exit)
    (hholds : program.HoldsAt p.position i) (heffect : (i.effect p.state).outcome = .ok 0) :
    (program.loop none).Steps p (p.record (i.effect p.state)).advance := by
  obtain ⟨text, hline, hparse⟩ := hholds
  have hfree : ∀ max, none = some max → p.steps < max := fun _ hlimit => nomatch hlimit
  exact steps_loop_iff.2 ⟨hexit, text, hline, .stepped hparse hfree heffect⟩

/-- An instruction that emits a value reports it and leads to the next line. -/
lemma steps_of_emit {value : Int64} {steps : Nat} {failures : Array LineFailure} {events : Array Event}
    (hexit : s.lastCategory ≠ .exit) (hholds : program.HoldsAt position i)
    (heffect : i.effect s = .emit s' value) :
    (program.loop none).Steps ⟨position, steps, failures, events, s⟩
      ⟨position + 1, steps + 1, failures, events.push (.output value), s'⟩ := by
  have hstep := steps_of_ok_zero (p := ⟨position, steps, failures, events, s⟩) hexit hholds
    (congrArg Effect.outcome heffect)
  rwa [heffect] at hstep

/-- An instruction that neither jumps nor emits a value leads to the next line. -/
lemma leads_of_next (hexit : s.lastCategory ≠ .exit) (hholds : program.HoldsAt position i)
    (heffect : i.effect s = .next s') : program.Leads 1 position s (position + 1) s' := by
  intro steps failures events
  have hstep := steps_of_ok_zero (p := ⟨position, steps, failures, events, s⟩) hexit hholds
    (congrArg Effect.outcome heffect)
  rw [heffect] at hstep
  exact .single hstep

/-- A jump that is taken leads to its target. -/
lemma leads_of_jump {distance : Int64} {target : Nat} (hexit : s.lastCategory ≠ .exit)
    (hholds : program.HoldsAt position i) (heffect : i.effect s = .jump s' distance)
    (hdistance : distance ≠ 0) (htarget : jumpTarget program.length position distance = .ok target) :
    program.Leads 1 position s target s' := by
  intro steps failures events
  obtain ⟨text, hline, hparse⟩ := hholds
  let p : Progress := ⟨position, steps, failures, events, s⟩
  have hfree : ∀ max, none = some max → p.steps < max := fun _ hlimit => nomatch hlimit
  have hstep : (program.loop none).Steps p { p.record (i.effect s) with position := target } := by
    refine steps_loop_iff.2 ⟨hexit, text, hline, ?_⟩
    exact .jumped hparse hfree (congrArg Effect.outcome heffect) hdistance htarget
  rw [heffect] at hstep
  exact .single hstep

/-- Instructions that are carried out in their order lead to the line behind them. -/
theorem leads_of_passes (h : s.Passes instructions t) (hexit : s.lastCategory ≠ .exit)
    (hholds : program.Holds position instructions) :
    program.Leads instructions.length position s (position + instructions.length) t := by
  induction h generalizing position with
  | nil => exact .refl program position _
  | @cons s s' t i rest heffect hi _ ih =>
    have hexit' : s'.lastCategory ≠ .exit := by
      have hcategory : s'.lastCategory = i.opcode.category := by
        rw [← i.lastCategory_effect s, heffect]
        rfl
      rw [hcategory]
      revert hi
      cases i.opcode <;> decide
    have hlead := (leads_of_next hexit hholds.1 heffect).trans (ih hexit' hholds.2)
    rwa [Nat.add_comm 1, Nat.add_assoc, Nat.add_comm 1] at hlead

/-- A run that gets to a place where it is over has its result there. -/
lemma ends_finish {events : Array Event} {p : Progress}
    (hreaches : (program.loop none).Reaches (.start s events) p)
    (hover : p.state.lastCategory = .exit ∨ program.length ≤ p.position) :
    (program.loop none).Ends (.start s events) p.finish := by
  have hfinished : (program.loop none).finished? p = some p.finish := by
    rw [finished?_loop_eq, if_pos hover]
  exact hreaches.ends_iff.2 (Loop.Exits.finished hfinished).ends

/-- This is the answer of `Program.run`, if the steps can be counted. -/
lemma run_eq_finish {events : Array Event} {p : Progress}
    (hreaches : (program.loop none).Reaches (.start s events) p)
    (hover : p.state.lastCategory = .exit ∨ program.length ≤ p.position)
    (hsteps : p.steps ≤ stepCapacity) : program.run none s events = some p.finish := by
  have hends := ends_finish hreaches hover
  exact (run_eq_some_iff (stepsCountable_of_ok hends rfl hsteps)).2 hends

end Program

end StackMachine
