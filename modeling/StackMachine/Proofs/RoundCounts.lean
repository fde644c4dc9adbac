import StackMachine.Proofs.Dispatches

/-!
# How many rounds a run goes through

Only some of the rounds of a run are steps.  Lines without a statement and lines that cannot be read are
passed over for nothing, and a program that jumps back comes to them again and again, so neither the
position nor the number of steps tells how far a run has come.  Both together do.  A round that is no step
goes on to the next line, and a step, wherever it leads, uses up what was left of the program.  So every
step pays for one pass over the program, and the position is what the current pass has taken so far
(`Program.rounds_le_of_after`).

This bounds the rounds of every run under way by its steps (`Program.rounds_lt_of_after`), and the rounds
of a run with a step limit by the limit (`Program.run_endsAfter_of_limit`).
-/

namespace StackMachine.Program

variable {program : Program} {limit : Option Nat} {p q : Progress} {state : State}
  {events : Array Event} {rounds : Nat}

/-- A round counts a step, or else it goes on to the next line. -/
lemma steps_or_position_of_steps (h : (program.loop limit).Steps p q) :
    p.position < program.length ∧
      (q.steps = p.steps + 1 ∨ (q.steps = p.steps ∧ q.position = p.position + 1)) := by
  obtain ⟨-, text, hline, houtcome⟩ := steps_loop_iff.1 h
  exact ⟨(Array.getElem?_eq_some_iff.1 hline).1, houtcome.steps_or_position⟩

/-- Where a run is under way, its rounds are one pass over the program for each step, and the lines before
its position, or fewer. -/
lemma rounds_le_of_after (h : (program.loop limit).after rounds (.start state events) = .next p) :
    rounds ≤ p.steps * program.length + p.position := by
  refine Loop.after_counted (P := fun n p => n ≤ p.steps * program.length + p.position)
    (Nat.zero_le _) ?_ h
  intro n p q hn hsteps
  obtain ⟨hposition, hstep | ⟨hsame, hnext⟩⟩ := steps_or_position_of_steps hsteps
  · -- the step pays for the rest of the pass, this round included
    have hpass : q.steps * program.length = p.steps * program.length + program.length := by
      rw [hstep, Nat.succ_mul]
    omega
  · rw [hsame, hnext]
    omega

/-- So they are fewer than one pass for each step and one for the next. -/
lemma rounds_lt_of_after (h : (program.loop limit).after rounds (.start state events) = .next p) :
    rounds < (p.steps + 1) * program.length := by
  have hrounds := rounds_le_of_after h
  have hposition : p.position < program.length :=
    (finished?_loop_eq_none_iff.1 (Loop.finished?_of_after_eq_next h)).2
  rw [Nat.succ_mul]
  omega

/-- A run with a step limit ends within one pass for each step that it may make and one more. -/
lemma exists_runFor_of_limit (program : Program) (limit : Nat) (state : State)
    (events : Array Event) :
    ∃ run, (program.loop (some limit)).runFor ((limit + 1) * program.length) (.start state events) =
      some run := by
  refine Loop.exists_runFor_of_forall_lt fun rounds p hafter => ?_
  have hsteps : p.steps ≤ limit := stepsCountable_of_limit program limit state events rounds p hafter
  calc rounds < (p.steps + 1) * program.length := rounds_lt_of_after hafter
    _ ≤ (limit + 1) * program.length := Nat.mul_le_mul_right _ (Nat.succ_le_succ hsteps)

/-- With a step limit every run ends.  It goes through no more rounds than the limit, and one for each line
before each step and after the last one, however the program jumps and however many of its lines are
no steps. -/
theorem run_endsAfter_of_limit (program : Program) (limit : Nat) (state : State)
    (events : Array Event) :
    ∃ rounds run, rounds ≤ limit + (limit + 1) * program.length ∧
      (program.loop (some limit)).EndsAfter rounds (.start state events) run ∧
      program.run (some limit) state events = some run := by
  obtain ⟨run, hrun⟩ := program.exists_runFor_of_limit limit state events
  obtain ⟨rounds, hrounds, hends⟩ := Loop.exists_endsAfter hrun
  have hbound : (limit + 1) * program.length ≤ limit + (limit + 1) * program.length :=
    Nat.le_add_left _ limit
  exact ⟨rounds, run, Nat.le_trans hrounds hbound, hends, Loop.runFor_mono hbound hrun⟩

/-- Of the two lines only one is a step, and all but the first pass begin with a jump.  The limit breaks the
run off in the last round of the fourth pass. -/
example :
    let loop := Program.loop ⟨#["; again", "JNZ 1, -1"]⟩ (some 3)
    loop.runFor 7 (.start .initial #[]) = none ∧
      (loop.runFor 8 (.start .initial #[])).map Run.result = some (.error (.stepLimit 3)) := by
  decide +kernel

end StackMachine.Program
