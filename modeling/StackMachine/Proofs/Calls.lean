import StackMachine.Proofs.Dispatches
import StackMachine.Proofs.Histories

/-!
# Calls on one machine

A machine lives on between calls: single lines are carried out on it, and programs are run.  Of each call
only the instructions matter that it carries out.  Blank lines, comments and lines that cannot be read
are none, and neither are the lines that a run does not come to.

`Program.dispatched` lists the instructions of a run, and `State.carriedOut` those of any calls.  The calls
leave the machine where these instructions alone would have left it (`State.afterCalls_eq`), so what the
machine remembers of its past is as true of calls as it is of instructions (`State.recalls_history`).
-/

namespace StackMachine

/-- The instruction that a line holds, if it holds one and can be read. -/
def Statement.instruction? (text : String) : Option Instruction :=
  match parse text with
  | .ok i? => i?
  | .error _ => none

/-- A line is the instruction that it holds, and otherwise it changes nothing. -/
lemma State.state_runLine (s : State) (text : String) :
    (s.runLine text).state = s.afterAll (Statement.instruction? text).toList := by
  unfold runLine Statement.instruction?
  rcases Statement.parse text with fault | _ | i <;> rfl

/-! ### Runs -/

/-- The state of the machine after a round. -/
def Round.state : Round Progress Run → State
  | .next p => p.state
  | .stop run => run.state

variable {program : Program} {limit : Option Nat} {p : Progress} {i : Instruction}

namespace Program

/-- The instruction that comes next in a run, unless its step limit is used up. -/
def dispatched? (program : Program) (limit : Option Nat) (p : Progress) : Option Instruction :=
  match program.lines[p.position]? with
  | none => none
  | some text => if limit.all (p.steps < ·) then Statement.instruction? text else none

/-- The step limit is not used up. -/
lemma all_steps_lt_iff :
    limit.all (p.steps < ·) = true ↔ ∀ max, limit = some max → p.steps < max := by
  simp [Option.all_eq_true]

/-- This is the instruction that the next round dispatches. -/
lemma dispatched?_eq_some_iff (hfinished : (program.loop limit).finished? p = none) :
    program.dispatched? limit p = some i ↔ program.Dispatches limit p i := by
  obtain ⟨text, hline, -⟩ := exists_round_loop_eq hfinished
  have hparse : Statement.instruction? text = some i ↔ Statement.parse text = .ok (some i) := by
    unfold Statement.instruction?
    rcases Statement.parse text with fault | _ | j <;> simp
  rw [dispatches_iff hfinished, dispatched?, hline, ← all_steps_lt_iff]
  simp [hparse, and_comm]

/-- The instructions that a run dispatches in its first rounds. -/
def dispatched (program : Program) (limit : Option Nat) : Nat → Progress → List Instruction
  | 0, _ => []
  | rounds + 1, p =>
    match (program.loop limit).finished? p with
    | some _ => []
    | none =>
      (program.dispatched? limit p).toList ++
        match (program.loop limit).round p with
        | .next p' => program.dispatched limit rounds p'
        | .stop _ => []

lemma dispatched_of_finished {run : Run} (h : (program.loop limit).finished? p = some run)
    (rounds : Nat) : program.dispatched limit rounds p = [] := by
  cases rounds with
  | zero => rfl
  | succ rounds => simp only [dispatched, h]

lemma dispatched_cons_of_next {p' : Progress} (h : (program.loop limit).finished? p = none)
    (hround : (program.loop limit).round p = .next p') (rounds : Nat) :
    program.dispatched limit (rounds + 1) p =
      (program.dispatched? limit p).toList ++ program.dispatched limit rounds p' := by
  simp only [dispatched, h, hround]

lemma dispatched_cons_of_stop {run : Run} (h : (program.loop limit).finished? p = none)
    (hround : (program.loop limit).round p = .stop run) (rounds : Nat) :
    program.dispatched limit (rounds + 1) p = (program.dispatched? limit p).toList := by
  simp only [dispatched, h, hround, List.append_nil]

/-- The last of some rounds adds its instruction, if the run comes to this round. -/
lemma dispatched_succ (program : Program) (limit : Option Nat) (rounds : Nat) (p : Progress) :
    program.dispatched limit (rounds + 1) p = program.dispatched limit rounds p ++
      match (program.loop limit).after rounds p with
      | .next q => (program.dispatched? limit q).toList
      | .stop _ => [] := by
  induction rounds generalizing p with
  | zero =>
    cases hfinished : (program.loop limit).finished? p with
    | some run => rw [dispatched_of_finished hfinished, Loop.after_of_finished hfinished]; rfl
    | none =>
      rw [Loop.after_zero_of_unfinished hfinished, dispatched, List.nil_append]
      cases hround : (program.loop limit).round p with
      | next p' => rw [dispatched_cons_of_next hfinished hround, dispatched, List.append_nil]
      | stop run => rw [dispatched_cons_of_stop hfinished hround]
  | succ rounds ih =>
    cases hfinished : (program.loop limit).finished? p with
    | some run =>
      rw [dispatched_of_finished hfinished, dispatched_of_finished hfinished,
        Loop.after_of_finished hfinished, List.nil_append]
    | none =>
      cases hround : (program.loop limit).round p with
      | next p' =>
        rw [dispatched_cons_of_next hfinished hround, ih, dispatched_cons_of_next hfinished hround,
          Loop.after_succ_of_next hfinished hround, List.append_assoc]
      | stop run =>
        rw [dispatched_cons_of_stop hfinished hround, dispatched_cons_of_stop hfinished hround,
          Loop.after_succ_of_stop hfinished hround, List.append_nil]

/-- A round in which the run is under way adds its instruction. -/
lemma dispatched_succ_of_next {rounds : Nat} {q : Progress}
    (h : (program.loop limit).after rounds p = .next q) :
    program.dispatched limit (rounds + 1) p =
      program.dispatched limit rounds p ++ (program.dispatched? limit q).toList := by
  rw [dispatched_succ, h]

/-- A run that has come to its result dispatches nothing more. -/
lemma dispatched_succ_of_stop {rounds : Nat} {run : Run}
    (h : (program.loop limit).after rounds p = .stop run) :
    program.dispatched limit (rounds + 1) p = program.dispatched limit rounds p := by
  rw [dispatched_succ, h, List.append_nil]

/-- The instructions that a run has dispatched are as many as it has counted. -/
lemma length_dispatched (program : Program) (limit : Option Nat) (state : State)
    (events : Array Event) (rounds : Nat) :
    (program.dispatched limit rounds (.start state events)).length =
      program.dispatchCount limit state events rounds := by
  induction rounds with
  | zero => rw [dispatchCount_zero, dispatched, List.length_nil]
  | succ rounds ih =>
    cases hafter : (program.loop limit).after rounds (.start state events) with
    | stop run =>
      rw [dispatched_succ_of_stop hafter, ih, dispatchCount_succ_of_not]
      intro q i hq
      rw [hafter] at hq
      cases hq
    | next p =>
      have hfinished := Loop.finished?_of_after_eq_next hafter
      rw [dispatched_succ_of_next hafter, List.length_append, ih]
      cases hdispatched : program.dispatched? limit p with
      | some i =>
        rw [dispatchCount_succ_of_dispatches hafter ((dispatched?_eq_some_iff hfinished).1 hdispatched)]
        rfl
      | none =>
        rw [dispatchCount_succ_of_not]
        · rfl
        · intro q i hq hi
          obtain rfl : p = q := Round.next.inj (hafter.symm.trans hq)
          rw [(dispatched?_eq_some_iff hfinished).2 hi] at hdispatched
          cases hdispatched

/-- A round carries out what it dispatches, and otherwise it leaves the machine alone. -/
lemma state_round (hfinished : (program.loop limit).finished? p = none) :
    ((program.loop limit).round p).state = p.state.afterAll (program.dispatched? limit p).toList := by
  obtain ⟨text, hline, hround⟩ := exists_round_loop_eq hfinished
  have hdispatched : program.dispatched? limit p =
      if limit.all (p.steps < ·) then Statement.instruction? text else none := by
    rw [dispatched?, hline]
  have houtcome := p.round_outcome limit program.length text
  rw [hround, hdispatched]
  generalize p.round limit program.length text = r at houtcome
  cases houtcome with
  | skipped hparse => simp [Statement.instruction?, hparse, Round.state, Progress.advance]
  | unreadable hparse =>
    simp [Statement.instruction?, hparse, Round.state, Progress.report, Progress.advance]
  | limited _ hsome hmax =>
    have hused : limit.all (p.steps < ·) = false := by simpa [hsome] using hmax
    simp [hused, Round.state, Progress.abort]
  | failed hparse hsteps _ =>
    simp [Statement.instruction?, hparse, all_steps_lt_iff.2 hsteps, Round.state, Progress.report,
      Progress.advance, Progress.record]
  | stepped hparse hsteps _ =>
    simp [Statement.instruction?, hparse, all_steps_lt_iff.2 hsteps, Round.state, Progress.advance,
      Progress.record]
  | jumped hparse hsteps _ _ _ =>
    simp [Statement.instruction?, hparse, all_steps_lt_iff.2 hsteps, Round.state, Progress.record]
  | strayed hparse hsteps _ _ _ =>
    simp [Statement.instruction?, hparse, all_steps_lt_iff.2 hsteps, Round.state, Progress.abort,
      Progress.record]

/-- After any number of rounds a run has left the machine where the instructions that it has dispatched
would have left it. -/
theorem state_after (program : Program) (limit : Option Nat) (rounds : Nat) (p : Progress) :
    ((program.loop limit).after rounds p).state =
      p.state.afterAll (program.dispatched limit rounds p) := by
  induction rounds generalizing p with
  | zero =>
    rcases hfinished : (program.loop limit).finished? p with _ | run
    · rw [Loop.after_zero_of_unfinished hfinished]
      rfl
    · rw [Loop.after_of_finished hfinished, finished?_loop_eq_some hfinished]
      rfl
  | succ rounds ih =>
    rcases hfinished : (program.loop limit).finished? p with _ | run
    · have hstate := state_round hfinished
      rcases hround : (program.loop limit).round p with p' | run
      · rw [hround] at hstate
        rw [Loop.after_succ_of_next hfinished hround, ih]
        simp only [dispatched, hfinished, hround]
        rw [State.afterAll_append, ← hstate]
        rfl
      · rw [hround] at hstate
        rw [Loop.after_succ_of_stop hfinished hround, hstate]
        simp only [dispatched, hfinished, hround, List.append_nil]
    · rw [Loop.after_of_finished hfinished, finished?_loop_eq_some hfinished]
      simp only [dispatched, hfinished]
      rfl

end Program

/-! ### Lines and runs on one machine -/

/-- What a machine is asked to do. -/
inductive Call where
  /-- To carry out a line outside any program. -/
  | line (text : String)
  /-- To run a program, after the given events.  The run is followed for a number of rounds; by then it may
  be over or not, and it need not end at all. -/
  | run (program : Program) (limit : Option Nat) (events : Array Event) (rounds : Nat)

namespace Call

/-- The state after a call. -/
def state (s : State) : Call → State
  | line text => (s.runLine text).state
  | run program limit events rounds => ((program.loop limit).after rounds (.start s events)).state

/-- The instructions that are carried out in a call. -/
def instructions (s : State) : Call → List Instruction
  | line text => (Statement.instruction? text).toList
  | run program limit events rounds => program.dispatched limit rounds (.start s events)

/-- A call leaves the machine where its instructions would have left it. -/
lemma state_eq (s : State) (call : Call) : call.state s = s.afterAll (call.instructions s) := by
  cases call with
  | line text => exact s.state_runLine text
  | run program limit events rounds => exact program.state_after limit rounds (.start s events)

/-- A run that ends is such a call. -/
lemma state_run_of_run_eq_some {s : State} {events : Array Event} {run : Run}
    (h : program.run limit s events = some run) :
    (Call.run program limit events (program.roundBound (limit.getD Program.stepCapacity))).state s =
      run.state := by
  rw [state, Loop.runFor_eq_some_iff.1 h, Round.state]

end Call

namespace State

/-- The state after some calls. -/
def afterCalls (s : State) (calls : List Call) : State :=
  calls.foldl Call.state s

/-- The instructions that are carried out in some calls. -/
def carriedOut (s : State) : List Call → List Instruction
  | [] => []
  | call :: rest => call.instructions s ++ (call.state s).carriedOut rest

/-- Calls leave the machine where their instructions would have left it. -/
theorem afterCalls_eq (s : State) (calls : List Call) :
    s.afterCalls calls = s.afterAll (s.carriedOut calls) := by
  induction calls generalizing s with
  | nil => rfl
  | cons call rest ih =>
    rw [carriedOut, afterAll_append, ← call.state_eq s, ← ih]
    rfl

/-- The flags and the memory always tell the true history of a machine that was new.

This holds after any instructions, failed ones included, and after any calls, of which only the
instructions count that they have carried out.  A jump with one operand is therefore illegal if and only if
the instruction just before it was no `CMP`, or there was none.  Otherwise, if its operand is a distance,
the last `CMP` that succeeded decides whether it is taken, however long ago that was.

Each `CMP` that succeeds has compared two values, and each `MOV` or `POP` that succeeds has stored one.
A run that ends is a call. -/
theorem recalls_history :
    (∀ instructions : List Instruction, (initial.afterAll instructions).Recalls instructions) ∧
    (∀ calls : List Call, (initial.afterCalls calls).Recalls (initial.carriedOut calls)) ∧
    (∀ (s : State) (instructions : List Instruction), s.Recalls instructions →
      ∀ (jump : Instruction) (operand : Operand), jump.opcode.isJump = true →
        jump.operands = [operand] →
        ((jump.effect s).outcome = .error .jumpWithoutComparison ↔ ¬ AfterCmp instructions) ∧
        ∀ distance, operand = .integer distance → AfterCmp instructions →
          (jump.effect s).outcome =
            .ok (if jump.opcode.holdsFor (Attempt.lastCompared (initial.attempts instructions))
              then distance else 0)) ∧
    (∀ a : Attempt, a.compared?.isSome = true ↔ a.instruction.opcode = .cmp ∧ a.succeeds = true) ∧
    (∀ (a : Attempt) (cell : Fin cellCount), (a.stored? cell).isSome = true ↔
      a.succeeds = true ∧ a.instruction.destination? = some cell) ∧
    (∀ (program : Program) (limit : Option Nat) (s : State) (events : Array Event) (run : Run),
      program.run limit s events = some run → ∃ rounds,
        (Call.run program limit events rounds).state s = run.state) := by
  refine ⟨recalls_afterAll, ?_, ?_, Attempt.isSome_compared?_iff, Attempt.isSome_stored?_iff, ?_⟩
  · intro calls
    rw [afterCalls_eq]
    exact recalls_afterAll _
  · intro s instructions h jump operand hjump hoperands
    refine ⟨h.outcome_eq_jumpWithoutComparison_iff hjump hoperands, ?_⟩
    rintro distance rfl hcmp
    exact h.outcome_eq_of_afterCmp hjump hoperands hcmp
  · intro program limit s events run hrun
    exact ⟨_, Call.state_run_of_run_eq_some hrun⟩

/-- The last `CMP` has failed, so the jump after it is decided by the one before.  The comment and the line
that cannot be read do not come between them. -/
theorem recalls_history_of_failed_cmp :
    ∃ calls, calls = [.line "CMP 2, 1",
        .run ⟨#["; now", "MOV M1, 5", "CMP M9, 1", "x"]⟩ none #[] 4] ∧
      (initial.afterCalls calls).Recalls (initial.carriedOut calls) ∧
      AfterCmp (initial.carriedOut calls) ∧
      (Instruction.effect ⟨.jpos, [.integer 7], by decide⟩ (initial.afterCalls calls)).outcome =
        .ok 7 ∧
      (initial.afterCalls calls).memory[(⟨0, by decide⟩ : Fin cellCount)] = 5 := by
  obtain ⟨-, hcalls, hjumps, -⟩ := recalls_history
  refine ⟨_, rfl, hcalls _, ?_⟩
  have hcmp : AfterCmp (initial.carriedOut [.line "CMP 2, 1",
      .run ⟨#["; now", "MOV M1, 5", "CMP M9, 1", "x"]⟩ none #[] 4]) :=
    ⟨⟨.cmp, [.memory 9, .integer 1], by decide⟩, by decide +kernel, rfl⟩
  refine ⟨hcmp, ?_, ?_⟩
  · rw [(hjumps _ _ (hcalls _) _ _ rfl rfl).2 _ rfl hcmp]
    decide +kernel
  · refine ((hcalls _).memory _).trans ?_
    decide +kernel

end State

end StackMachine
