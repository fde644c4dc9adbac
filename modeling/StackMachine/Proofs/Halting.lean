import StackMachine.Proofs.Calls
import StackMachine.Proofs.Distances

/-!
# After an `EXIT`

An `EXIT` is final.  The run that dispatches it is over at once, with a summary and without another
event (`Program.after_of_dispatches_exit`).  A run has halted if and only if the last instruction that it
has dispatched was an `EXIT`, or else it has found the machine after one (`Program.halted_iff_exit`).

What makes an `EXIT` final is the category in the state of the machine, which lives on after the run.  So
a machine that has halted carries out no more programs: every run on it is over before its first round
and changes nothing.  This goes on until a line outside any program holds another instruction
(`Call.Revives`), whether that instruction succeeds or fails.
-/

namespace StackMachine

variable {program : Program} {limit : Option Nat} {p : Progress} {i : Instruction} {s state : State}
  {events : Array Event} {run : Run} {rounds : Nat}

/-- The run has come to an end of its own, on an `EXIT`. -/
def Run.Halted (run : Run) : Prop :=
  ∃ summary, run.result = .ok summary ∧ summary.halted = true

/-- The category after some instructions is that of the last one. -/
lemma State.lastCategory_afterAll (s : State) (instructions : List Instruction) :
    (s.afterAll instructions).lastCategory =
      (instructions.getLast?.map (·.opcode.category)).getD s.lastCategory := by
  induction instructions using List.reverseRecOn with
  | nil => rfl
  | append_singleton instructions i _ =>
    rw [afterAll_append, afterAll_cons, afterAll_nil, i.lastCategory_effect, List.getLast?_concat,
      Option.map_some, Option.getD_some]

namespace Program

/-! ### Runs that halt -/

/-- On a machine that stands after an `EXIT` every run is over before its first round. -/
lemma finished?_start_of_exit (hexit : s.lastCategory = .exit) (program : Program)
    (limit : Option Nat) (events : Array Event) :
    (program.loop limit).finished? (.start s events) = some ⟨.ok ⟨0, true, #[]⟩, events, s⟩ := by
  rw [finished?_loop_eq, if_pos (.inl hexit), Progress.finish, Progress.start, hexit]
  rfl

/-- A run that ends has halted if and only if it leaves the category of an `EXIT` behind.  A run that is
broken off never does. -/
lemma halted_iff_of_ends (h : (program.loop limit).Ends (.start state events) run) :
    run.Halted ↔ run.state.lastCategory = .exit := by
  obtain ⟨p, -, hleaves⟩ := exists_reaches_leaves h
  cases hleaves with
  | finished _ => simp [Run.Halted, Progress.finish]
  | limited hfinished _ _ _ _ =>
    have hexit : p.state.lastCategory ≠ .exit := (finished?_loop_eq_none_iff.1 hfinished).1
    simp [Run.Halted, Progress.abort, hexit]
  | @strayed i distance _ heffect hdistance _ =>
    have hjump := Instruction.isJump_of_outcome heffect hdistance
    have hexit : i.opcode.category ≠ .exit := by
      rw [beq_iff_eq.1 hjump]
      decide
    simp [Run.Halted, Progress.abort, Progress.record, hexit]

/-- After some rounds a run has halted if and only if it has come to the category of an `EXIT`. -/
lemma exists_halted_iff_lastCategory :
    (∃ run, (program.loop limit).after rounds (.start state events) = .stop run ∧ run.Halted) ↔
      ((program.loop limit).after rounds (.start state events)).state.lastCategory = .exit := by
  rcases hafter : (program.loop limit).after rounds (.start state events) with p | run
  · have hexit := (finished?_loop_eq_none_iff.1 (Loop.finished?_of_after_eq_next hafter)).1
    simp [Round.state, hexit]
  · have hends := Loop.ends_of_runFor (Loop.runFor_eq_some_iff.2 hafter)
    simp [Round.state, halted_iff_of_ends hends]

/-- This is the category of the last instruction that the run has dispatched, or it was there before. -/
lemma lastCategory_after_eq_exit_iff :
    ((program.loop limit).after rounds (.start state events)).state.lastCategory = .exit ↔
      state.lastCategory = .exit ∨
        ∃ i, (program.dispatched limit rounds (.start state events)).getLast? = some i ∧
          i.opcode = .exit := by
  by_cases hexit : state.lastCategory = .exit
  · rw [Loop.after_of_finished (finished?_start_of_exit hexit program limit events)]
    exact iff_of_true hexit (.inl hexit)
  · have hstart : (Progress.start state events).state = state := rfl
    rw [state_after, State.lastCategory_afterAll, hstart]
    rcases (program.dispatched limit rounds (.start state events)).getLast? with _ | i
    · simp [hexit]
    · simp [hexit, Opcode.category_eq_exit_iff]

/-- The dispatch of an `EXIT` succeeds and leads to the next line, whatever its operands. -/
lemma round_of_dispatches_exit (h : program.Dispatches limit p i) (hexit : i.opcode = .exit) :
    (program.loop limit).round p =
      .next { p.advance with
        steps := p.steps + 1
        state := { p.state with lastCategory := .exit } } := by
  obtain ⟨-, text, -, -, hround⟩ := h
  have heffect : i.effect p.state = .next { p.state with lastCategory := .exit } := by
    rw [Instruction.effect, hexit]
    rfl
  have hrecord : p.record (i.effect p.state) =
      { p with steps := p.steps + 1, state := { p.state with lastCategory := .exit } } := by
    rw [heffect]
    simp [Progress.record, Effect.next, Effect.jump]
  rw [hround, Progress.dispatch_of_ok_zero (by rw [heffect]; rfl), hrecord]
  rfl

/-- With an `EXIT` the run is over.  It has counted it as its last step, and from the round before it keeps
the failures, the events, and the state but for the category. -/
lemma after_of_dispatches_exit
    (hafter : (program.loop limit).after rounds (.start state events) = .next p)
    (h : program.Dispatches limit p i) (hexit : i.opcode = .exit) {later : Nat} (hlater : rounds < later) :
    (program.loop limit).after later (.start state events) =
        .stop ⟨.ok ⟨p.steps + 1, true, p.failures⟩, p.events,
          { p.state with lastCategory := .exit }⟩ ∧
      program.dispatched limit later (.start state events) =
        program.dispatched limit rounds (.start state events) ++ [i] := by
  induction hlater with
  | refl =>
    constructor
    · rw [Loop.after_succ, hafter, Round.bind_next, round_of_dispatches_exit h hexit, Round.bind_next]
      refine Loop.after_of_finished ?_ 0
      rw [finished?_loop_eq, if_pos (.inl rfl)]
      rfl
    · have hdispatched := (dispatched?_eq_some_iff h.1).2 h
      rw [dispatched_succ_of_next hafter, hdispatched, Option.toList_some]
  | step _ ih =>
    obtain ⟨hstop, hdispatched⟩ := ih
    refine ⟨?_, ?_⟩
    · rw [Loop.after_succ, hstop, Round.bind_stop]
    · rw [dispatched_succ_of_stop hstop, hdispatched]

end Program

/-! ### Machines that have halted -/

namespace Call

/-- The call is a line with an instruction other than `EXIT`. -/
def Revives : Call → Prop
  | .line text => ∃ i, Statement.parse text = .ok (some i) ∧ i.opcode ≠ .exit
  | .run _ _ _ _ => False

instance : DecidablePred Revives
  | .run _ _ _ _ => .isFalse id
  | .line text =>
    match h : Statement.parse text with
    | .error _ => .isFalse (by simp [Revives, h])
    | .ok none => .isFalse (by simp [Revives, h])
    | .ok (some i) => decidable_of_iff (i.opcode ≠ .exit) (by simp [Revives, h])

/-- Any other call on a machine that stands after an `EXIT` changes nothing. -/
lemma state_of_not_revives {call : Call} (hexit : s.lastCategory = .exit) (h : ¬ call.Revives) :
    call.state s = s := by
  cases call with
  | line text =>
    rcases hparse : Statement.parse text with fault | _ | i
    · simp only [state, State.runLine, hparse, Effect.fail]
    · simp only [state, State.runLine, hparse, Effect.next, Effect.jump]
    · have hopcode : i.opcode = .exit := by
        by_contra hne
        exact h ⟨i, hparse, hne⟩
      simp only [state, State.runLine, hparse, Instruction.effect, hopcode]
      change { s with lastCategory := Category.exit } = s
      rw [← hexit]
  | run program limit events rounds =>
    rw [state, Loop.after_of_finished (Program.finished?_start_of_exit hexit program limit events)]
    rfl

/-- A call that revives the machine leaves another category, whether its instruction succeeds or fails. -/
lemma lastCategory_state_of_revives {call : Call} (h : call.Revives) (s : State) :
    (call.state s).lastCategory ≠ .exit := by
  cases call with
  | line text =>
    obtain ⟨i, hparse, hopcode⟩ := h
    simp only [state, State.runLine, hparse, i.lastCategory_effect]
    exact fun hcategory => hopcode (Opcode.category_eq_exit_iff.1 hcategory)
  | run program limit events rounds => exact h.elim

end Call

/-- As long as no call revives it, a machine that stands after an `EXIT` stays as it is. -/
lemma State.afterCalls_of_not_revives (hexit : s.lastCategory = .exit) {calls : List Call}
    (h : ∀ call ∈ calls, ¬ call.Revives) : s.afterCalls calls = s := by
  induction calls with
  | nil => rfl
  | cons call rest ih =>
    have hcall := Call.state_of_not_revives hexit (h call List.mem_cons_self)
    have hrest := ih fun call hmem => h call (List.mem_cons_of_mem _ hmem)
    rw [afterCalls, List.foldl_cons, hcall]
    exact hrest

namespace Program

/-- An `EXIT` is final, and to have halted means exactly that.

After any number of rounds, a run has come to a summary that says "halted" if and only if the last
instruction that it has dispatched was an `EXIT`, or the machine stood after one already.  With the
dispatch of an `EXIT`, whatever its operands, the run is over: there is a summary, and nothing is
dispatched or reported after it.

On the machine that such a run leaves, every run of every program, with any limit, has a summary with no
steps and no failures that says "halted" again, adds no event and leaves the state as it is.  This does not
change with any calls, until one of them is a line with another instruction, and then a run is under way
again if there is a line to run. -/
theorem halted_iff_exit (program : Program) (limit : Option Nat) (state : State)
    (events : Array Event) :
    (∀ rounds,
      (∃ run, (program.loop limit).after rounds (.start state events) = .stop run ∧ run.Halted) ↔
        state.lastCategory = .exit ∨
          ∃ i, (program.dispatched limit rounds (.start state events)).getLast? = some i ∧
            i.opcode = .exit) ∧
    (∀ rounds p i, (program.loop limit).after rounds (.start state events) = .next p →
      program.Dispatches limit p i → i.opcode = .exit → ∀ later, rounds < later →
        (program.loop limit).after later (.start state events) =
          .stop ⟨.ok ⟨p.steps + 1, true, p.failures⟩, p.events,
            { p.state with lastCategory := .exit }⟩ ∧
        program.dispatched limit later (.start state events) =
          program.dispatched limit rounds (.start state events) ++ [i]) ∧
    (∀ run, program.run limit state events = some run →
      (run.Halted ↔ state.lastCategory = .exit ∨
        ∃ i, (program.dispatched limit (program.roundBound (limit.getD stepCapacity))
          (.start state events)).getLast? = some i ∧ i.opcode = .exit) ∧
      (run.Halted → ∀ calls : List Call, (∀ call ∈ calls, ¬ call.Revives) →
        run.state.afterCalls calls = run.state ∧
        (∀ (next : Program) limit' events', next.run limit' (run.state.afterCalls calls) events' =
          some ⟨.ok ⟨0, true, #[]⟩, events', run.state⟩) ∧
        ∀ call : Call, call.Revives → ∀ (next : Program) limit' events', 0 < next.length →
          (next.loop limit').finished? (.start (call.state (run.state.afterCalls calls)) events') =
            none)) := by
  have hhalts : ∀ rounds,
      (∃ run, (program.loop limit).after rounds (.start state events) = .stop run ∧ run.Halted) ↔
        state.lastCategory = .exit ∨
          ∃ i, (program.dispatched limit rounds (.start state events)).getLast? = some i ∧
            i.opcode = .exit := fun rounds =>
    exists_halted_iff_lastCategory.trans lastCategory_after_eq_exit_iff
  refine ⟨hhalts, ?_, ?_⟩
  · intro rounds p i hafter hdispatches hexit later hlater
    exact after_of_dispatches_exit hafter hdispatches hexit hlater
  · intro run hrun
    have hstop := Loop.runFor_eq_some_iff.1 hrun
    refine ⟨?_, ?_⟩
    · rw [← hhalts, hstop]
      simp
    · intro hhalted calls hcalls
      have hexit := (halted_iff_of_ends (ends_of_run_eq_some hrun)).1 hhalted
      have hsame := State.afterCalls_of_not_revives hexit hcalls
      rw [hsame]
      refine ⟨rfl, ?_, ?_⟩
      · intro next limit' events'
        exact Loop.runFor_of_finished (finished?_start_of_exit hexit next limit' events') _
      · intro call hrevives next limit' events' hlength
        exact finished?_loop_eq_none_iff.2 ⟨call.lastCategory_state_of_revives hrevives _, hlength⟩

/-- The `EXIT` of the first program has an operand, and its last line is not run.  Lines without an
instruction, an `EXIT` and a run leave the machine as it is.  The `ADD` fails and revives it. -/
theorem halted_iff_exit_until_failing_add : ∃ (first next : Program) (p : Progress) (run : Run)
    (calls : List Call),
    first.lines = #["CMP 1, 1", "exit 3", "OUTPUT 7"] ∧ next.lines = #["OUTPUT 8"] ∧
    calls = [.line "; done", .line "bogus", .run next none #[] 5, .line "EXIT"] ∧
    (first.loop none).after 1 (.start .initial #[]) = .next p ∧
    first.Dispatches none p (.ofOperands .exit [.integer 3]) ∧
    (first.loop none).after 2 (.start .initial #[]) = .stop run ∧
    first.dispatched none 2 (.start .initial #[]) =
      first.dispatched none 1 (.start .initial #[]) ++ [.ofOperands .exit [.integer 3]] ∧
    first.run none .initial #[] = some run ∧ run.Halted ∧ (∀ call ∈ calls, ¬ call.Revives) ∧
    run.state.afterCalls calls = run.state ∧
    next.run (some 0) run.state #[] = some ⟨.ok ⟨0, true, #[]⟩, #[], run.state⟩ ∧
    (run.state.runLine "ADD").outcome = .error .stackUnderflow ∧ (Call.line "ADD").Revives ∧
    (next.loop none).finished? (.start ((Call.line "ADD").state run.state) #[]) = none := by
  let first : Program := ⟨#["CMP 1, 1", "exit 3", "OUTPUT 7"]⟩
  let next : Program := ⟨#["OUTPUT 8"]⟩
  let p : Progress := ⟨1, 1, #[], #[], { State.initial with lastCategory := .comparison }⟩
  let run : Run := ⟨.ok ⟨2, true, #[]⟩, #[], { State.initial with lastCategory := .exit }⟩
  let calls : List Call := [.line "; done", .line "bogus", .run next none #[] 5, .line "EXIT"]
  have hafter : (first.loop none).after 1 (.start .initial #[]) = .next p := by decide +kernel
  have hdispatches : first.Dispatches none p (.ofOperands .exit [.integer 3]) :=
    ⟨by decide, "exit 3", rfl, by decide +kernel, by decide +kernel⟩
  have hcalls : ∀ call ∈ calls, ¬ call.Revives := by decide +kernel
  have hadd : (Call.line "ADD").Revives := by decide +kernel
  have hrounds : 2 ≤ first.roundBound stepCapacity := by decide
  have hrun : first.run none .initial #[] = some run := Loop.runFor_mono hrounds (by decide +kernel)
  obtain ⟨-, hexit, hruns⟩ := halted_iff_exit first none .initial #[]
  obtain ⟨hstop, hdispatched⟩ := hexit 1 p _ hafter hdispatches rfl 2 (by decide)
  have hhalted : run.Halted := ⟨_, rfl, rfl⟩
  obtain ⟨hsame, hidle, hrevives⟩ := (hruns run hrun).2 hhalted calls hcalls
  rw [hsame] at hidle hrevives
  have hgoes := hrevives _ hadd next none #[] (by decide)
  exact ⟨first, next, p, run, calls, rfl, rfl, rfl, hafter, hdispatches, hstop, hdispatched, hrun, hhalted,
    hcalls, hsame, hidle next (some 0) #[], by decide +kernel, hadd, hgoes⟩

end Program

end StackMachine
