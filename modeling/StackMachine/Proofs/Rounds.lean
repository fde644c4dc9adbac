import Mathlib.Tactic.Ring
import StackMachine.Proofs.Loops
import StackMachine.Run

/-!
# What a round of a run does

`Progress.Outcome` lists everything that one round of a run can do, with the conditions under which it
does it, and `round_outcome` says that the list is complete.  Statements about runs look at these
cases and not at the definition of a round.

The second part is about the number of rounds.  Every run with a step limit ends within
`Program.roundBound`, and a run without one ends there if it ends at all within the steps that can be
counted.  So `Program.run` answers with the result of the loop (`run_eq_some_iff`).
-/

namespace StackMachine

deriving instance DecidableEq for Run, Progress, Round

namespace Statement

/-- A line of blanks has no statement. -/
lemma parse_of_all_isBlank {text : String} (h : text.toList.all Text.isBlank) :
    parse text = .ok none := by
  have hcode : (code text.toList).all Text.isBlank = true :=
    List.all_eq_true.2 fun c hc => List.all_eq_true.1 h c (List.takeWhile_subset _ hc)
  simp only [parse, hcode, if_true]

end Statement

variable {program : Program} {limit : Option Nat} {p p' : Progress}

namespace Progress

/-- Everything that a round can do on a line with the given text. -/
inductive Outcome (p : Progress) (limit : Option Nat) (length : Nat) (text : String) :
    Round Progress Run → Prop where
  /-- A line without a statement is skipped. -/
  | skipped (hparse : Statement.parse text = .ok none) :
    Outcome p limit length text (.next p.advance)
  /-- A line that cannot be read is reported. -/
  | unreadable {fault : Fault} (hparse : Statement.parse text = .error fault) :
    Outcome p limit length text (.next (p.report text fault))
  /-- There is an instruction, but the step limit is used up. -/
  | limited {i : Instruction} {max : Nat} (hparse : Statement.parse text = .ok (some i))
    (hlimit : limit = some max) (hmax : max ≤ p.steps) :
    Outcome p limit length text (.stop (p.abort (.stepLimit max)))
  /-- An instruction fails and is reported. -/
  | failed {i : Instruction} {fault : Fault} (hparse : Statement.parse text = .ok (some i))
    (hsteps : ∀ max, limit = some max → p.steps < max)
    (heffect : (i.effect p.state).outcome = .error fault) :
    Outcome p limit length text (.next ((p.record (i.effect p.state)).report text fault))
  /-- An instruction is carried out, and the next line follows. -/
  | stepped {i : Instruction} (hparse : Statement.parse text = .ok (some i))
    (hsteps : ∀ max, limit = some max → p.steps < max)
    (heffect : (i.effect p.state).outcome = .ok 0) :
    Outcome p limit length text (.next (p.record (i.effect p.state)).advance)
  /-- An instruction jumps to a position, or past the end of the program. -/
  | jumped {i : Instruction} {distance : Int64} {target : Nat}
    (hparse : Statement.parse text = .ok (some i))
    (hsteps : ∀ max, limit = some max → p.steps < max)
    (heffect : (i.effect p.state).outcome = .ok distance) (hdistance : distance ≠ 0)
    (htarget : jumpTarget length p.position distance = .ok target) :
    Outcome p limit length text
      (.next { p.record (i.effect p.state) with position := target })
  /-- An instruction jumps to a place before the first line. -/
  | strayed {i : Instruction} {distance : Int64} {error : RunError}
    (hparse : Statement.parse text = .ok (some i))
    (hsteps : ∀ max, limit = some max → p.steps < max)
    (heffect : (i.effect p.state).outcome = .ok distance) (hdistance : distance ≠ 0)
    (htarget : jumpTarget length p.position distance = .error error) :
    Outcome p limit length text (.stop ((p.record (i.effect p.state)).abort error))

section Dispatch

variable {i : Instruction} {length : Nat} {text : String} {distance : Int64}

/-- A dispatch that fails is reported. -/
lemma dispatch_of_error {fault : Fault} (heffect : (i.effect p.state).outcome = .error fault) :
    p.dispatch length text i = .next ((p.record (i.effect p.state)).report text fault) := by
  simp only [dispatch, heffect]

/-- A dispatch with the outcome 0 goes on with the next line. -/
lemma dispatch_of_ok_zero (heffect : (i.effect p.state).outcome = .ok 0) :
    p.dispatch length text i = .next (p.record (i.effect p.state)).advance := by
  simp only [dispatch, heffect, if_true]

/-- A dispatch with another distance goes on at the target of the jump, or is broken off. -/
lemma dispatch_of_ok (heffect : (i.effect p.state).outcome = .ok distance)
    (hdistance : distance ≠ 0) :
    p.dispatch length text i =
      match jumpTarget length p.position distance with
      | .error error => .stop ((p.record (i.effect p.state)).abort error)
      | .ok target => .next { p.record (i.effect p.state) with position := target } := by
  simp only [dispatch, heffect, if_neg hdistance]
  rfl

/-- The same run at another position. -/
def moveTo (p : Progress) (position : Nat) : Progress :=
  { p with position := position }

/-- A map that leaves the positions alone commutes with a dispatch if it commutes with the record of the
effect and with the report. -/
lemma dispatch_map {F : Progress → Progress} {G : Run → Run} {i' : Instruction} {text' : String}
    (hmove : ∀ q position, F (q.moveTo position) = (F q).moveTo position)
    (habort : ∀ q error, G (q.abort error) = (F q).abort error)
    (houtcome : (i'.effect (F p).state).outcome = (i.effect p.state).outcome)
    (hrecord : F (p.record (i.effect p.state)) = (F p).record (i'.effect (F p).state))
    (hreport : ∀ fault, F ((p.record (i.effect p.state)).report text fault) =
      (F (p.record (i.effect p.state))).report text' fault) :
    (F p).dispatch length text' i' = (p.dispatch length text i).map F G := by
  have hposition : ∀ q, (F q).position = q.position := by
    intro q
    have hsame := congrArg Progress.position (hmove q q.position)
    exact hsame
  have hadvance : ∀ q, F q.advance = (F q).advance := by
    intro q
    calc F q.advance = (F q).moveTo (q.position + 1) := hmove q (q.position + 1)
      _ = (F q).advance := by rw [advance, hposition, moveTo]
  cases heffect : (i.effect p.state).outcome with
  | error fault =>
    rw [dispatch_of_error heffect, dispatch_of_error (houtcome.trans heffect), Round.map, hreport, hrecord]
  | ok distance =>
    by_cases hdistance : distance = 0
    · subst hdistance
      rw [dispatch_of_ok_zero heffect, dispatch_of_ok_zero (houtcome.trans heffect), Round.map, hadvance,
        hrecord]
    · rw [dispatch_of_ok heffect hdistance, dispatch_of_ok (houtcome.trans heffect) hdistance, ← hrecord,
        hposition]
      cases jumpTarget length p.position distance with
      | error error => exact congrArg Round.stop (habort _ error).symm
      | ok target => exact congrArg Round.next (hmove _ target).symm

end Dispatch

/-- What the dispatch of an instruction does. -/
lemma dispatch_outcome {length : Nat} {text : String} {i : Instruction}
    (hparse : Statement.parse text = .ok (some i))
    (hsteps : ∀ max, limit = some max → p.steps < max) :
    Outcome p limit length text (p.dispatch length text i) := by
  cases heffect : (i.effect p.state).outcome with
  | error fault =>
    rw [dispatch_of_error heffect]
    exact .failed hparse hsteps heffect
  | ok distance =>
    by_cases hdistance : distance = 0
    · subst hdistance
      rw [dispatch_of_ok_zero heffect]
      exact .stepped hparse hsteps heffect
    · rw [dispatch_of_ok heffect hdistance]
      cases htarget : jumpTarget length p.position distance with
      | error error => exact .strayed hparse hsteps heffect hdistance htarget
      | ok target => exact .jumped hparse hsteps heffect hdistance htarget

/-- To skip a blank line unread changes nothing: every line is carried out as it is read. -/
lemma round_eq (p : Progress) (limit : Option Nat) (length : Nat) (text : String) :
    p.round limit length text =
      match Statement.parse text with
      | .error fault => .next (p.report text fault)
      | .ok none => .next p.advance
      | .ok (some i) =>
        match limit with
        | none => p.dispatch length text i
        | some max =>
          if max ≤ p.steps then .stop (p.abort (.stepLimit max)) else p.dispatch length text i := by
  unfold round
  split
  · next hblank => rw [Statement.parse_of_all_isBlank hblank]
  · rfl

/-- A line with an instruction is a dispatch, as long as the step limit is not used up. -/
lemma round_eq_dispatch {length : Nat} {text : String} {i : Instruction}
    (hparse : Statement.parse text = .ok (some i))
    (hsteps : ∀ max, limit = some max → p.steps < max) :
    p.round limit length text = p.dispatch length text i := by
  rw [round_eq, hparse]
  cases limit with
  | none => rfl
  | some max =>
    have hmax : ¬ max ≤ p.steps := Nat.not_le.2 (hsteps max rfl)
    simp only [if_neg hmax]

/-- Nothing else happens in a round. -/
theorem round_outcome (p : Progress) (limit : Option Nat) (length : Nat) (text : String) :
    Outcome p limit length text (p.round limit length text) := by
  cases hparse : Statement.parse text with
  | error fault =>
    rw [round_eq, hparse]
    exact .unreadable hparse
  | ok statement =>
    cases statement with
    | none =>
      rw [round_eq, hparse]
      exact .skipped hparse
    | some i =>
      by_cases hused : ∃ max, limit = some max ∧ max ≤ p.steps
      · obtain ⟨max, rfl, hmax⟩ := hused
        rw [round_eq, hparse]
        simp only [if_pos hmax]
        exact .limited hparse rfl hmax
      · have hsteps : ∀ max, limit = some max → p.steps < max := by
          intro max hlimit
          by_contra hmax
          exact hused ⟨max, hlimit, Nat.not_lt.1 hmax⟩
        rw [round_eq_dispatch hparse hsteps]
        exact dispatch_outcome hparse hsteps

/-- The cases exclude each other: a round with one of these outcomes has no other. -/
lemma Outcome.round_eq {length : Nat} {text : String} {r : Round Progress Run}
    (h : Outcome p limit length text r) : p.round limit length text = r := by
  cases h with
  | skipped hparse => rw [Progress.round_eq, hparse]
  | unreadable hparse => rw [Progress.round_eq, hparse]
  | limited hparse hlimit hmax =>
    rw [Progress.round_eq, hparse, hlimit]
    simp only [if_pos hmax]
  | failed hparse hsteps heffect => rw [round_eq_dispatch hparse hsteps, dispatch_of_error heffect]
  | stepped hparse hsteps heffect => rw [round_eq_dispatch hparse hsteps, dispatch_of_ok_zero heffect]
  | jumped hparse hsteps heffect hdistance htarget =>
    rw [round_eq_dispatch hparse hsteps, dispatch_of_ok heffect hdistance, htarget]
  | strayed hparse hsteps heffect hdistance htarget =>
    rw [round_eq_dispatch hparse hsteps, dispatch_of_ok heffect hdistance, htarget]

end Progress

namespace Program

/-- A run is over when an `EXIT` has been carried out or the position has left the program. -/
lemma finished?_loop_eq (program : Program) (limit : Option Nat) (p : Progress) :
    (program.loop limit).finished? p =
      if p.state.lastCategory = .exit ∨ program.length ≤ p.position then some p.finish else none := by
  simp only [loop]
  by_cases hexit : p.state.lastCategory = .exit
  · rw [if_pos hexit, if_pos (.inl hexit)]
  · rw [if_neg hexit]
    by_cases hposition : program.length ≤ p.position
    · rw [Array.getElem?_eq_none hposition, if_pos (.inr hposition)]
    · rw [Array.getElem?_eq_getElem (Nat.lt_of_not_le hposition),
        if_neg (not_or.2 ⟨hexit, hposition⟩)]

/-- A run goes on as long as its position is in the program and no `EXIT` has been carried out. -/
lemma finished?_loop_eq_none_iff :
    (program.loop limit).finished? p = none ↔
      p.state.lastCategory ≠ .exit ∧ p.position < program.length := by
  rw [finished?_loop_eq, ite_eq_right_iff, ← Nat.not_le, ← not_or]
  simp only [reduceCtorEq, imp_false]

/-- Where a run is over, it comes to an end of its own. -/
lemma finished?_loop_eq_some {run : Run} (h : (program.loop limit).finished? p = some run) :
    run = p.finish := by
  rw [finished?_loop_eq] at h
  split at h
  · exact (Option.some.inj h).symm
  · cases h

/-- A round of a run that goes on has a line to look at. -/
lemma exists_round_loop_eq (h : (program.loop limit).finished? p = none) :
    ∃ text, program.lines[p.position]? = some text ∧
      (program.loop limit).round p = p.round limit program.length text := by
  have hlt : p.position < program.lines.size := (finished?_loop_eq_none_iff.1 h).2
  refine ⟨program.lines[p.position], Array.getElem?_eq_getElem hlt, ?_⟩
  simp only [loop, Array.getElem?_eq_getElem hlt]

/-- A round at a line with an instruction is its dispatch. -/
lemma round_loop_eq_dispatch {text : String} {i : Instruction}
    (hline : program.lines[p.position]? = some text) (hparse : Statement.parse text = .ok (some i))
    (hsteps : ∀ max, limit = some max → p.steps < max) :
    (program.loop limit).round p = p.dispatch program.length text i := by
  simp only [loop, hline]
  exact Progress.round_eq_dispatch hparse hsteps

end Program

/-! ### How many rounds there are -/

namespace Progress

/-- A round counts a step, or else it goes on to the next line. -/
lemma Outcome.steps_or_position {length : Nat} {text : String}
    (h : Outcome p limit length text (.next p')) :
    p'.steps = p.steps + 1 ∨ (p'.steps = p.steps ∧ p'.position = p.position + 1) := by
  cases h with
  | skipped _ => exact .inr ⟨rfl, rfl⟩
  | unreadable _ => exact .inr ⟨rfl, rfl⟩
  | failed _ _ _ => exact .inl rfl
  | stepped _ _ _ => exact .inl rfl
  | jumped _ _ _ _ _ => exact .inl rfl

/-- A round that counts a step leaves the step limit intact. -/
lemma Outcome.steps_le {length max : Nat} {text : String}
    (h : Outcome p (some max) length text (.next p')) (hmax : p.steps ≤ max) : p'.steps ≤ max := by
  cases h with
  | skipped _ => exact hmax
  | unreadable _ => exact hmax
  | failed _ hsteps _ => exact hsteps max rfl
  | stepped _ hsteps _ => exact hsteps max rfl
  | jumped _ hsteps _ _ _ => exact hsteps max rfl

/-- The rounds that are left to a run under way, if it makes at most `capacity` steps in all.  Between
two steps the position only grows, so there are at most `length` rounds without a step. -/
def roundsLeft (p : Progress) (capacity length : Nat) : Nat :=
  (capacity - p.steps) * (length + 1) + (length - p.position)

/-- Every round uses up one of the rounds that are left. -/
lemma Outcome.roundsLeft_lt {capacity length : Nat} {text : String}
    (h : Outcome p limit length text (.next p')) (hposition : p.position < length)
    (hsteps : p'.steps ≤ capacity) : p'.roundsLeft capacity length < p.roundsLeft capacity length := by
  unfold roundsLeft
  obtain hstep | ⟨hstep, hnext⟩ := h.steps_or_position
  · have hleft : capacity - p.steps = (capacity - p'.steps) + 1 := by omega
    rw [hleft, Nat.add_mul]
    omega
  · rw [hstep, hnext]
    omega

end Progress

namespace Program

/-- A run that makes no more than `capacity` steps ends within the rounds that this leaves to it. -/
theorem exists_runFor_roundsLeft {capacity : Nat}
    (hsteps : ∀ rounds p', (program.loop limit).after rounds p = .next p' → p'.steps ≤ capacity) :
    ∃ run, (program.loop limit).runFor (p.roundsLeft capacity program.length) p = some run := by
  -- by induction on the rounds that are left, which every round makes fewer
  induction hleft : p.roundsLeft capacity program.length using Nat.strong_induction_on
    generalizing p with
  | _ left ih =>
    cases hfinished : (program.loop limit).finished? p with
    | some run => exact ⟨run, Loop.runFor_of_finished hfinished left⟩
    | none =>
      have hposition := (finished?_loop_eq_none_iff.1 hfinished).2
      obtain ⟨n, rfl⟩ : ∃ n, left = n + 1 := by
        refine ⟨left - 1, ?_⟩
        unfold Progress.roundsLeft at hleft
        omega
      obtain ⟨text, -, hround⟩ := exists_round_loop_eq hfinished
      have houtcome := p.round_outcome limit program.length text
      rw [← hround] at houtcome
      cases hr : (program.loop limit).round p with
      | stop run => exact ⟨run, Loop.runFor_succ_of_stop hfinished hr n⟩
      | next p' =>
        rw [hr] at houtcome
        rw [Loop.runFor_succ_of_next hfinished hr]
        cases hfinished' : (program.loop limit).finished? p' with
        | some run => exact ⟨run, Loop.runFor_of_finished hfinished' n⟩
        | none =>
          have hsteps' : ∀ rounds q, (program.loop limit).after rounds p' = .next q →
              q.steps ≤ capacity := by
            intro rounds q hq
            exact hsteps (rounds + 1) q (by rw [Loop.after_succ_of_next hfinished hr, hq])
          have hlt := houtcome.roundsLeft_lt hposition
            (hsteps' 0 p' (Loop.after_zero_of_unfinished hfinished'))
          obtain ⟨run, hrun⟩ := ih _ (hleft ▸ hlt) hsteps' rfl
          exact ⟨run, Loop.runFor_mono (by omega) hrun⟩

/-- All the steps of the run can be counted: where it is under way, it has made no more than its limit
allows, or else no more than the step counter can hold. -/
def StepsCountable (program : Program) (limit : Option Nat) (state : State) (events : Array Event) :
    Prop :=
  ∀ rounds p, (program.loop limit).after rounds (.start state events) = .next p →
    p.steps ≤ limit.getD stepCapacity

variable {state : State} {events : Array Event} {run : Run}

/-- With a step limit all steps can be counted. -/
theorem stepsCountable_of_limit (program : Program) (max : Nat) (state : State)
    (events : Array Event) : program.StepsCountable (some max) state events := by
  intro rounds p h
  refine (Loop.after_induction (P := fun p => p.steps ≤ max) ?_ (Nat.zero_le max) h).1
  intro p p' hp hfinished hround
  obtain ⟨text, -, heq⟩ := exists_round_loop_eq hfinished
  have houtcome := p.round_outcome (some max) program.length text
  rw [← heq, hround] at houtcome
  exact houtcome.steps_le hp

/-- The number of rounds allowed to a run is what is left to it at its start. -/
lemma roundsLeft_start (program : Program) (capacity : Nat) (state : State) (events : Array Event) :
    (Progress.start state events).roundsLeft capacity program.length =
      program.roundBound capacity := by
  simp only [Progress.roundsLeft, Progress.start, roundBound, Nat.sub_zero]
  ring

/-- A run whose steps can be counted comes to an end, and its rounds suffice for that. -/
theorem exists_run_of_stepsCountable (h : program.StepsCountable limit state events) :
    ∃ run, program.run limit state events = some run := by
  obtain ⟨run, hrun⟩ := exists_runFor_roundsLeft h
  rw [roundsLeft_start] at hrun
  exact ⟨run, hrun⟩

/-- The answer of `Program.run` is the result of the loop. -/
lemma ends_of_run_eq_some (h : program.run limit state events = some run) :
    (program.loop limit).Ends (.start state events) run :=
  Loop.ends_of_runFor h

/-- The answer of `Program.run` is the result of the loop, provided that the steps can be counted. -/
theorem run_eq_some_iff (h : program.StepsCountable limit state events) :
    program.run limit state events = some run ↔
      (program.loop limit).Ends (.start state events) run := by
  obtain ⟨run₀, hrun₀⟩ := exists_run_of_stepsCountable h
  exact Loop.runFor_eq_some_iff_ends hrun₀

end Program

end StackMachine
