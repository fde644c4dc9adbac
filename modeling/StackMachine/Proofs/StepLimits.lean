import StackMachine.Proofs.Dispatches
import StackMachine.Proofs.Reports

/-!
# What a step limit does to a run

A run with a step limit is the run with a greater limit, or with none, cut short
(`Program.loop_cutShort`).  So it does the same as long as the limit is not used up.

If it is used up, the run has dispatched exactly as many instructions as the limit allows.  The other
run then comes to the same line in the same state and with the same events.  From there it only adds
events, and if it dispatches the instruction of that line it has made more steps.  `run_of_limit_le` puts
all this together.
-/

namespace StackMachine

variable {program : Program} {limit : Nat} {more : Option Nat} {p : Progress}
  {state : State} {events : Array Event} {run : Run}

namespace Program

/-- From wherever it stands, a run only adds events. -/
lemma exists_events_eq_of_ends {limit : Option Nat} (h : (program.loop limit).Ends p run) :
    ∃ later, run.events = p.events ++ later := by
  obtain ⟨rounds, hrun⟩ := h
  obtain ⟨later, hlater⟩ := exists_events_after_eq program limit p (Nat.zero_le rounds)
  rw [Loop.runFor_eq_some_iff.1 hrun, events_after_zero] at hlater
  exact ⟨later, hlater⟩

/-- More steps leave room for more rounds. -/
lemma roundBound_mono (program : Program) {m n : Nat} (h : m ≤ n) :
    program.roundBound m ≤ program.roundBound n := by
  unfold roundBound
  gcongr

/-- A run with a limit is the run with a greater limit, cut short when its own limit is used up. -/
lemma loop_cutShort (program : Program) (hmore : ∀ max, more = some max → limit ≤ max) :
    (program.loop (some limit)).CutShort (program.loop more)
      (fun run => run.result = .error (.stepLimit limit)) where
  finished _ := rfl
  round p := by
    cases hline : program.lines[p.position]? with
    | none => exact .inl (by simp only [loop, hline])
    | some text =>
      have hround : ∀ limit : Option Nat,
          (program.loop limit).round p = p.round limit program.length text := by
        intro limit
        simp only [loop, hline]
      rw [hround, hround]
      cases hparse : Statement.parse text with
      | error fault =>
        left
        rw [Progress.round_eq, Progress.round_eq, hparse]
      | ok statement =>
        cases statement with
        | none =>
          left
          rw [Progress.round_eq, Progress.round_eq, hparse]
        | some i =>
          by_cases hused : limit ≤ p.steps
          · right
            refine ⟨p.abort (.stepLimit limit), ?_, rfl⟩
            rw [Progress.round_eq, hparse]
            simp only [if_pos hused]
          · left
            have hfree : ∀ max, some limit = some max → p.steps < max := by
              rintro max ⟨⟩
              exact Nat.lt_of_not_le hused
            have hfree' : ∀ max, more = some max → p.steps < max := fun max hmax =>
              Nat.lt_of_lt_of_le (Nat.lt_of_not_le hused) (hmore max hmax)
            rw [Progress.round_eq_dispatch hparse hfree, Progress.round_eq_dispatch hparse hfree']

/-- A run that is broken off by its limit stands before an instruction, with the limit used up. -/
lemma exists_reaches_of_stepLimit {max : Nat}
    (hends : (program.loop (some limit)).Ends (.start state events) run)
    (hresult : run.result = .error (.stepLimit max)) :
    ∃ p, (program.loop (some limit)).Reaches (.start state events) p ∧
      (program.loop (some limit)).finished? p = none ∧ p.steps = limit ∧
      run = p.abort (.stepLimit limit) ∧
      ∃ text i, program.lines[p.position]? = some text ∧ Statement.parse text = .ok (some i) := by
  obtain ⟨p, hreaches, hleaves⟩ := exists_reaches_leaves hends
  cases hleaves with
  | finished _ => cases hresult
  | @limited text i _ hfinished hline hparse hlimit hused =>
    obtain rfl := Option.some.inj hlimit
    obtain ⟨rounds, hafter⟩ := (Loop.reaches_iff_exists_after hfinished).1 hreaches
    have hsteps : p.steps ≤ limit := stepsCountable_of_limit program limit state events rounds p hafter
    exact ⟨p, hreaches, hfinished, Nat.le_antisymm hsteps hused, rfl, text, i, hline, hparse⟩
  | strayed _ _ _ _ => cases hresult

/-- Where a run with a limit is broken off, a run with a greater limit has made as many steps and gone
through the same events.  If it comes to an end of its own, it makes more steps. -/
lemma extends_of_stepLimit (hmore : ∀ max, more = some max → limit ≤ max) {max : Nat} {long : Run}
    (hends : (program.loop (some limit)).Ends (.start state events) run)
    (hresult : run.result = .error (.stepLimit max))
    (hlong : (program.loop more).Ends (.start state events) long) :
    (∃ later, long.events = run.events ++ later) ∧
      ∀ summary, long.result = .ok summary → limit < summary.steps := by
  obtain ⟨p, hshort, hfinished, hsteps, rfl, text, i, hline, hparse⟩ :=
    exists_reaches_of_stepLimit hends hresult
  have hreaches := (program.loop_cutShort hmore).reaches hshort
  refine ⟨exists_events_eq_of_ends (hreaches.ends_iff.1 hlong), ?_⟩
  intro summary hok
  by_cases hfree : ∀ max, more = some max → p.steps < max
  · -- the other run dispatches the instruction and counts it
    have hgoes : (program.loop more).finished? p = none := hfinished
    obtain ⟨rounds, hafter⟩ := (Loop.reaches_iff_exists_after hgoes).1 hreaches
    have hdispatches : program.Dispatches more p i :=
      (dispatches_iff hgoes).2 ⟨⟨text, hline, hparse⟩, hfree⟩
    obtain ⟨total, htotal⟩ := hlong
    have hstop := Loop.runFor_eq_some_iff.1 htotal
    calc limit = program.dispatchCount more state events rounds := by
          rw [← hsteps, steps_eq_dispatchCount hafter]
      _ < program.dispatchCount more state events (rounds + 1) := by
          rw [dispatchCount_succ_of_dispatches hafter hdispatches]
          exact Nat.lt_succ_self _
      _ ≤ program.dispatchCount more state events total :=
          dispatchCount_mono (Loop.lt_of_after hafter hstop)
      _ = summary.steps := (steps_eq_dispatchCount_of_ok hstop hok).1.symm
  · -- the other limit is the same one, and so is the run
    exfalso
    push Not at hfree
    obtain ⟨max', rfl, hle⟩ := hfree
    obtain rfl : max' = limit := Nat.le_antisymm (hsteps ▸ hle) (hmore max' rfl)
    rw [hlong.unique hends] at hok
    cases hok

/-- A step limit only cuts a run short.

A run with a limit always comes to an end.  If it is not broken off by the limit, it is the run that a
greater limit gives, or none.  If it is, then it has dispatched exactly as many instructions as the limit
allows, and the run with the greater limit adds its events to the same ones and makes more steps, should
it come to an end of its own.  The steps of a summary are the instructions dispatched, and never more
than the limit; lines without an instruction do not count. -/
theorem run_of_limit_le (program : Program) (limit : Nat) (more : Option Nat)
    (hmore : limit ≤ more.getD stepCapacity) (state : State) (events : Array Event) :
    ∃ short, program.run (some limit) state events = some short ∧
      ((∀ max, short.result ≠ .error (.stepLimit max)) →
        program.run more state events = some short) ∧
      (∀ max, short.result = .error (.stepLimit max) →
        max = limit ∧
        (∀ rounds, (program.loop (some limit)).after rounds (.start state events) = .stop short →
          program.dispatchCount (some limit) state events rounds = limit) ∧
        ∀ long, (program.loop more).Ends (.start state events) long →
          (∃ later, long.events = short.events ++ later) ∧
          ∀ summary, long.result = .ok summary → limit < summary.steps) ∧
      ∀ summary, short.result = .ok summary →
        summary.steps ≤ limit ∧
        ∀ rounds, (program.loop (some limit)).after rounds (.start state events) = .stop short →
          summary.steps = program.dispatchCount (some limit) state events rounds := by
  have hle : ∀ max, more = some max → limit ≤ max := by
    rintro max rfl
    exact hmore
  obtain ⟨short, hshort⟩ :=
    exists_run_of_stepsCountable (stepsCountable_of_limit program limit state events)
  have hends := ends_of_run_eq_some hshort
  refine ⟨short, hshort, ?_, ?_, ?_⟩
  · intro hunlimited
    have hrun := (program.loop_cutShort hle).runFor_eq_some (hunlimited limit) hshort
    exact Loop.runFor_mono (program.roundBound_mono hmore) hrun
  · intro max hresult
    refine ⟨?_, ?_, ?_⟩
    · obtain ⟨rounds, hrun⟩ := hends
      have hstop := Loop.runFor_eq_some_iff.1 hrun
      exact (Option.some.inj (dispatchCount_eq_of_stepLimit hstop hresult).1).symm
    · intro rounds hstop
      obtain ⟨hlimit, hcount⟩ := dispatchCount_eq_of_stepLimit hstop hresult
      rw [hcount, Option.some.inj hlimit]
    · intro long hlong
      exact extends_of_stepLimit hle hends hresult hlong
  · intro summary hok
    obtain ⟨rounds, hrun⟩ := hends
    have hstop := Loop.runFor_eq_some_iff.1 hrun
    refine ⟨(steps_eq_dispatchCount_of_ok hstop hok).2 limit rfl, ?_⟩
    intro rounds hstop
    exact (steps_eq_dispatchCount_of_ok hstop hok).1

/-- This run is broken off before its `EXIT`.  It has met four lines before that, but only two of them
hold instructions.  One more step would have let it come to its end. -/
theorem run_of_limit_le_before_exit :
    2 ≤ (some 3).getD stepCapacity ∧
    ∃ short, Program.run ⟨#["OUTPUT 1", "bogus", "; note", "OUTPUT 2", "EXIT"]⟩ (some 2) .initial #[] =
      some short ∧
      short.result = .error (.stepLimit 2) ∧
      short.events = #[.output 1, .failure ⟨2, "bogus", .unknownKeyword⟩, .output 2] ∧
      ∀ long, (loop ⟨#["OUTPUT 1", "bogus", "; note", "OUTPUT 2", "EXIT"]⟩ (some 3)).Ends
        (.start .initial #[]) long →
        (∃ later, long.events = short.events ++ later) ∧
        ∀ summary, long.result = .ok summary → 2 < summary.steps := by
  have hmore : 2 ≤ (some 3).getD stepCapacity := by decide
  have hrun : Program.run ⟨#["OUTPUT 1", "bogus", "; note", "OUTPUT 2", "EXIT"]⟩ (some 2) .initial #[] =
      some ⟨.error (.stepLimit 2), #[.output 1, .failure ⟨2, "bogus", .unknownKeyword⟩, .output 2],
        { State.initial with lastCategory := .data }⟩ := by decide +kernel
  obtain ⟨short, hshort, -, hcut, -⟩ :=
    run_of_limit_le ⟨#["OUTPUT 1", "bogus", "; note", "OUTPUT 2", "EXIT"]⟩ 2 (some 3) hmore .initial #[]
  obtain rfl := Option.some.inj (hshort.symm.trans hrun)
  exact ⟨hmore, _, hrun, rfl, rfl, (hcut 2 rfl).2.2⟩

end Program

end StackMachine
