import StackMachine.Proofs.Jumps
import StackMachine.Proofs.Rounds

/-!
# Runs against an ideal machine

The ideal machine goes through a program with a counter that is an integer without bounds.  It knows
no words: a jump adds its distance to the counter exactly, the run is over when the counter has reached
the number of lines, and a jump is an error exactly if it makes the counter negative.

A run of a program with fewer than `2 ^ 63` lines does the same (`run_agrees_with_ideal`).  The two stay
in step round by round: wherever one of them is still under way, so is the other, at the same line,
with the same steps, failures and events and in the same state.  Only a jump past the end makes their
positions differ, and neither of them looks at a line after it.
-/

namespace StackMachine

/-- A run of the ideal machine under way. -/
structure IdealProgress where
  /-- The position of the line that comes next, as an integer. -/
  counter : Int
  /-- The number of instructions dispatched so far. -/
  steps : Nat
  /-- The lines that have failed so far. -/
  failures : Array LineFailure
  /-- All events so far. -/
  events : Array Event
  /-- The state of the machine. -/
  state : State

namespace IdealProgress

/-- The start of a run, after the given events. -/
def start (state : State) (events : Array Event) : IdealProgress :=
  ⟨0, 0, #[], events, state⟩

/-- Moves the counter by an exact distance. -/
def move (m : IdealProgress) (distance : Int) : IdealProgress :=
  { m with counter := m.counter + distance }

/-- Reports the line at the counter, with the given text. -/
def report (m : IdealProgress) (text : String) (fault : Fault) : IdealProgress :=
  let failure : LineFailure := ⟨(m.counter + 1).toNat, text, fault⟩
  { m with failures := m.failures.push failure, events := m.events.push (.failure failure) }

/-- Dispatches an instruction: it counts as a step, and the value that it emits is an event. -/
def execute (m : IdealProgress) (i : Instruction) : IdealProgress :=
  let effect := i.effect m.state
  { m with
    steps := m.steps + 1
    events := m.events ++ (effect.emitted.map Event.output).toArray
    state := effect.state }

/-- One step of the ideal machine, on a line with the given text. -/
def step (m : IdealProgress) (limit : Option Nat) (text : String) : Round IdealProgress Run :=
  match Statement.parse text with
  | .ok none => .next (m.move 1)
  | .error fault => .next ((m.report text fault).move 1)
  | .ok (some i) =>
    if limit = some m.steps then .stop ⟨.error (.stepLimit m.steps), m.events, m.state⟩
    else
      match (i.effect m.state).outcome with
      | .error fault => .next (((m.execute i).report text fault).move 1)
      | .ok distance =>
        if distance = 0 then .next ((m.execute i).move 1)
        else if m.counter + distance.toInt < 0 then
          .stop ⟨.error (.jumpBeforeStart (m.counter + 1).toNat distance),
            (m.execute i).events, (m.execute i).state⟩
        else .next ((m.execute i).move distance.toInt)

end IdealProgress

/-- The ideal machine on a program, with a step limit or without. -/
def Program.idealLoop (program : Program) (limit : Option Nat) : Loop IdealProgress Run where
  finished? m :=
    if (program.length : Int) ≤ m.counter ∨ m.state.lastCategory = .exit then
      some ⟨.ok ⟨m.steps, m.state.lastCategory == .exit, m.failures⟩, m.events, m.state⟩
    else none
  round m := m.step limit (program.lines[m.counter.toNat]?.getD "")

/-! ### The two machines side by side -/

variable {program : Program} {limit : Option Nat} {p p' : Progress} {m : IdealProgress}

namespace Progress

/-- The same run on the ideal machine. -/
def toIdeal (p : Progress) : IdealProgress :=
  ⟨p.position, p.steps, p.failures, p.events, p.state⟩

@[simp] lemma toIdeal_counter (p : Progress) : p.toIdeal.counter = p.position := rfl

@[simp] lemma toIdeal_state (p : Progress) : p.toIdeal.state = p.state := rfl

lemma toIdeal_advance (p : Progress) : p.advance.toIdeal = p.toIdeal.move 1 := rfl

lemma toIdeal_record (p : Progress) (i : Instruction) :
    (p.record (i.effect p.state)).toIdeal = p.toIdeal.execute i := rfl

lemma toIdeal_report (p : Progress) (text : String) (fault : Fault) :
    (p.report text fault).toIdeal = (p.toIdeal.report text fault).move 1 := by
  have hline : ((p.position : Int) + 1).toNat = p.position + 1 := by omega
  simp only [report, toIdeal_advance, IdealProgress.report, toIdeal_counter, hline]
  rfl

/-- A run and the ideal machine agree on everything but the position, and on the position too unless
both have left the program at its end.  The step limit has not been passed. -/
structure Mirrors (program : Program) (limit : Option Nat) (p : Progress) (m : IdealProgress) :
    Prop where
  position : (p.position : Int) = m.counter ∨
    (program.length ≤ p.position ∧ (program.length : Int) ≤ m.counter)
  steps : p.steps = m.steps
  failures : p.failures = m.failures
  events : p.events = m.events
  state : p.state = m.state
  steps_le : ∀ max, limit = some max → p.steps ≤ max

namespace Mirrors

/-- A run that respects the step limit mirrors its own image. -/
lemma of_toIdeal (hsteps : ∀ max, limit = some max → p.steps ≤ max) :
    p.Mirrors program limit p.toIdeal :=
  ⟨.inl rfl, rfl, rfl, rfl, rfl, hsteps⟩

/-- While the run is in the program, the ideal machine is at the same line. -/
lemma eq_toIdeal (h : p.Mirrors program limit m) (hp : p.position < program.length) :
    m = p.toIdeal := by
  obtain ⟨counter, steps, failures, events, state⟩ := m
  have hcounter : (p.position : Int) = counter := by
    rcases h.position with hpos | ⟨hle, -⟩
    · exact hpos
    · omega
  simp only [toIdeal, hcounter, h.steps, h.failures, h.events, h.state]

/-- A jump past the end of the program takes both machines out of it. -/
lemma of_jump {i : Instruction} {distance : Int64} {target : Nat}
    (hlength : program.length < 2 ^ 63) (hposition : p.position < program.length)
    (hbelow : ∀ max, limit = some max → p.steps < max)
    (htarget : jumpTarget program.length p.position distance = .ok target) :
    0 ≤ (p.position : Int) + distance.toInt ∧
      Mirrors program limit { p.record (i.effect p.state) with position := target }
        ((p.toIdeal.execute i).move distance.toInt) := by
  rw [jumpTarget_of_lt (by omega)] at htarget
  split at htarget
  · cases htarget
  · next hneg =>
    refine ⟨by omega, ?_, rfl, rfl, rfl, rfl, hbelow⟩
    change (target : Int) = (p.position : Int) + distance.toInt ∨
      (program.length ≤ target ∧ (program.length : Int) ≤ (p.position : Int) + distance.toInt)
    split at htarget
    · next hword =>
      have heq := Except.ok.inj htarget
      exact .inl (by omega)
    · next hword =>
      have heq := Except.ok.inj htarget
      exact .inr (by omega)

/-- One round of a run does what one step of the ideal machine does. -/
lemma step {text : String} {r : Round Progress Run} (h : p.Outcome limit program.length text r)
    (hlength : program.length < 2 ^ 63) (hposition : p.position < program.length)
    (hsteps : ∀ max, limit = some max → p.steps ≤ max) :
    r.Related (Mirrors program limit) Eq (p.toIdeal.step limit text) := by
  -- a dispatch happens only while the limit is not used up, and then one more step respects it
  have hfree : (∀ max, limit = some max → p.steps < max) → limit ≠ some p.toIdeal.steps :=
    fun hbelow heq => absurd (hbelow _ heq) (Nat.lt_irrefl _)
  cases h with
  | skipped hparse =>
    simp only [IdealProgress.step, hparse]
    rw [← toIdeal_advance]
    exact .next (of_toIdeal hsteps)
  | unreadable hparse =>
    simp only [IdealProgress.step, hparse]
    rw [← toIdeal_report]
    exact .next (of_toIdeal hsteps)
  | @limited i max hparse hlimit hmax =>
    have hused : max = p.toIdeal.steps := Nat.le_antisymm hmax (hsteps max hlimit)
    subst hused
    simp only [IdealProgress.step, hparse]
    rw [if_pos hlimit]
    exact .stop rfl
  | failed hparse hbelow heffect =>
    simp only [IdealProgress.step, hparse]
    rw [if_neg (hfree hbelow)]
    simp only [toIdeal_state, heffect]
    rw [← toIdeal_record, ← toIdeal_report]
    exact .next (of_toIdeal hbelow)
  | stepped hparse hbelow heffect =>
    simp only [IdealProgress.step, hparse]
    rw [if_neg (hfree hbelow)]
    simp only [toIdeal_state, heffect, if_true]
    rw [← toIdeal_record, ← toIdeal_advance]
    exact .next (of_toIdeal hbelow)
  | @jumped i distance target hparse hbelow heffect hdistance htarget =>
    obtain ⟨hnonneg, hmirrors⟩ := of_jump (i := i) hlength hposition hbelow htarget
    have hinside : ¬ p.toIdeal.counter + distance.toInt < 0 := Int.not_lt.2 hnonneg
    simp only [IdealProgress.step, hparse]
    rw [if_neg (hfree hbelow)]
    simp only [toIdeal_state, heffect]
    rw [if_neg hdistance, if_neg hinside]
    exact .next hmirrors
  | @strayed i distance error hparse hbelow heffect hdistance htarget =>
    have herror := eq_jumpBeforeStart_of_jumpTarget_eq_error htarget
    have hbefore : p.toIdeal.counter + distance.toInt < 0 := by
      rw [jumpTarget_of_lt (by omega)] at htarget
      by_contra hinside
      rw [toIdeal_counter] at hinside
      rw [if_neg hinside] at htarget
      split at htarget <;> cases htarget
    have hline : (p.toIdeal.counter + 1).toNat = p.position + 1 := by
      rw [toIdeal_counter]
      omega
    simp only [IdealProgress.step, hparse]
    rw [if_neg (hfree hbelow)]
    simp only [toIdeal_state, heffect]
    rw [if_neg hdistance, if_pos hbefore, hline, herror]
    exact .stop rfl

end Mirrors

end Progress

namespace Program

variable {state : State} {events : Array Event}

/-- A run and the ideal machine match. -/
lemma loop_matches_idealLoop (hlength : program.length < 2 ^ 63) (limit : Option Nat) :
    (program.loop limit).Matches (program.idealLoop limit) (Progress.Mirrors program limit) Eq where
  finished {p m} h := by
    cases hfinished : (program.loop limit).finished? p with
    | none =>
      obtain ⟨hexit, hposition⟩ := finished?_loop_eq_none_iff.1 hfinished
      obtain rfl := h.eq_toIdeal hposition
      have hgoes : ¬ ((program.length : Int) ≤ p.toIdeal.counter ∨
          p.toIdeal.state.lastCategory = .exit) := by
        rw [Progress.toIdeal_counter, Progress.toIdeal_state]
        rintro (hle | heq)
        · omega
        · exact hexit heq
      simp only [idealLoop]
      rw [if_neg hgoes]
      exact .none
    | some run =>
      have hover : (program.length : Int) ≤ m.counter ∨ m.state.lastCategory = .exit := by
        by_contra hgoes
        obtain ⟨hcounter, hexit⟩ := not_or.1 hgoes
        have hnone : (program.loop limit).finished? p = none := by
          refine finished?_loop_eq_none_iff.2 ⟨by rwa [h.state], ?_⟩
          rcases h.position with hpos | ⟨-, hle⟩ <;> omega
        rw [hnone] at hfinished
        cases hfinished
      simp only [idealLoop]
      rw [if_pos hover, finished?_loop_eq_some hfinished]
      refine .some ?_
      simp only [Progress.finish, h.steps, h.failures, h.events, h.state]
  round {p m} h hp _ := by
    obtain ⟨-, hposition⟩ := finished?_loop_eq_none_iff.1 hp
    obtain rfl := h.eq_toIdeal hposition
    obtain ⟨text, hline, hround⟩ := exists_round_loop_eq hp
    have hideal : (program.idealLoop limit).round p.toIdeal = p.toIdeal.step limit text := by
      simp only [idealLoop, Progress.toIdeal_counter, Int.toNat_natCast, hline, Option.getD_some]
    rw [hround, hideal]
    exact Progress.Mirrors.step (p.round_outcome limit program.length text) hlength hposition h.steps_le

/-- Wherever a run stands after some number of rounds, the ideal machine stands too. -/
lemma idealLoop_after (hlength : program.length < 2 ^ 63) (limit : Option Nat) (state : State)
    (events : Array Event) (rounds : Nat) :
    (program.idealLoop limit).after rounds (.start state events) =
      ((program.loop limit).after rounds (.start state events)).mapState Progress.toIdeal := by
  have hstart : Progress.Mirrors program limit (.start state events) (.start state events) :=
    Progress.Mirrors.of_toIdeal fun max _ => Nat.zero_le max
  have hrelated := (loop_matches_idealLoop hlength limit).after hstart rounds
  cases hreal : (program.loop limit).after rounds (.start state events) with
  | next p =>
    have hposition := (finished?_loop_eq_none_iff.1 (Loop.finished?_of_after_eq_next hreal)).2
    rw [hreal] at hrelated
    generalize (program.idealLoop limit).after rounds (.start state events) = ideal at hrelated
    cases hrelated with
    | next h => rw [h.eq_toIdeal hposition, Round.mapState]
  | stop run =>
    rw [hreal] at hrelated
    generalize (program.idealLoop limit).after rounds (.start state events) = ideal at hrelated
    cases hrelated with
    | stop h => rw [← h, Round.mapState]

/-- A run agrees with the ideal machine, for every program, start, limit and distance of a jump.  After
every number of rounds the two stand alike; this covers runs that never end.  The answer of
`Program.run` is the result of the ideal machine, and every result of the ideal machine is the answer,
provided that its steps can be counted.  With a step limit there always is an answer. -/
theorem run_agrees_with_ideal (program : Program) (hlength : program.length < 2 ^ 63)
    (limit : Option Nat) (state : State) (events : Array Event) :
    (∀ rounds, (program.idealLoop limit).after rounds (.start state events) =
      ((program.loop limit).after rounds (.start state events)).mapState Progress.toIdeal) ∧
    (∀ run, program.run limit state events = some run →
      (program.idealLoop limit).Ends (.start state events) run) ∧
    (∀ run, program.StepsCountable limit state events →
      (program.idealLoop limit).Ends (.start state events) run →
      program.run limit state events = some run) ∧
    (∀ max, limit = some max → ∃ run, program.run limit state events = some run) := by
  have hafter := idealLoop_after hlength limit state events
  have hends : ∀ run, (program.idealLoop limit).Ends (.start state events) run ↔
      (program.loop limit).Ends (.start state events) run := by
    intro run
    refine exists_congr fun rounds => ?_
    rw [Loop.runFor_eq_result?, Loop.runFor_eq_result?, hafter rounds]
    cases (program.loop limit).after rounds (.start state events) <;> rfl
  refine ⟨hafter, ?_, ?_, ?_⟩
  · intro run hrun
    exact (hends run).2 (ends_of_run_eq_some hrun)
  · intro run hcountable hideal
    exact (run_eq_some_iff hcountable).2 ((hends run).1 hideal)
  · rintro max rfl
    exact exists_run_of_stepsCountable (stepsCountable_of_limit program max state events)

/-- A jump whose target is no word ends the run on the ideal machine as well: the counter of the second
line and the greatest distance have the sum `2 ^ 63`. -/
theorem run_agrees_with_ideal_past_words :
    Program.length ⟨#["OUTPUT 1", "JNZ 1, 9223372036854775807", "OUTPUT 2"]⟩ < 2 ^ 63 ∧
    (idealLoop ⟨#["OUTPUT 1", "JNZ 1, 9223372036854775807", "OUTPUT 2"]⟩ none).Ends
      (.start .initial #[])
      ⟨.ok ⟨2, false, #[]⟩, #[.output 1], { State.initial with lastCategory := .jump }⟩ := by
  refine ⟨by decide, ?_⟩
  refine (run_agrees_with_ideal _ (by decide) none .initial #[]).2.1 _ ?_
  -- three rounds are enough
  have hrounds : 3 ≤ roundBound ⟨#["OUTPUT 1", "JNZ 1, 9223372036854775807", "OUTPUT 2"]⟩
      stepCapacity := by decide
  exact Loop.runFor_mono hrounds (by decide +kernel)

end Program

end StackMachine
