import StackMachine.Proofs.Canonical
import StackMachine.Proofs.Rounds

/-!
# Programs in canonical form

The canonical form of a program has the canonical statement in the place of each statement, and an empty
line for each other line, also for one that cannot be read.  Comments, blanks, the case of keywords and
the spelling of numerals are gone, and the lines keep their positions.

A run does not notice the difference, apart from its reports (`Program.run_canonical`).  A report on a
line that cannot be read is left out, for there is no such line any more, and a report on an instruction
that fails has the canonical text.  Everything else is the same at every point of the run.
-/

namespace StackMachine

/-! ### Canonical forms -/

/-- The canonical text of a line: its canonical statement, if there is a statement that can be read. -/
def Statement.canonical (text : String) : String :=
  match parse text with
  | .ok (some i) => i.render
  | _ => ""

/-- The program with the canonical text in the place of each line. -/
def Program.canonical (program : Program) : Program :=
  ⟨program.lines.map Statement.canonical⟩

/-- The failure with the canonical text of its line.  There is none if the line cannot be read. -/
def LineFailure.canonical? (f : LineFailure) : Option LineFailure :=
  match Statement.parse f.text with
  | .ok (some i) => some { f with text := i.render }
  | _ => none

/-- The event with the canonical text, if it is a failure that has one. -/
def Event.canonical? : Event → Option Event
  | .output value => some (.output value)
  | .failure f => f.canonical?.map .failure

/-- The account of the run on the canonical form. -/
def Summary.canonical (summary : Summary) : Summary :=
  { summary with failures := summary.failures.filterMap LineFailure.canonical? }

/-- The run on the canonical form. -/
def Run.canonical (run : Run) : Run where
  result := run.result.map Summary.canonical
  events := run.events.filterMap Event.canonical?
  state := run.state

/-- The run under way on the canonical form. -/
def Progress.canonical (p : Progress) : Progress :=
  { p with
    failures := p.failures.filterMap LineFailure.canonical?
    events := p.events.filterMap Event.canonical? }

namespace Statement

variable {text : String}

/-- The canonical text has the same statement. -/
lemma parse_canonical_of_instruction {i : Instruction} (h : parse text = .ok (some i)) :
    parse (canonical text) = .ok (some i) := by
  have hcanonical : canonical text = i.render := by simp only [canonical, h]
  rw [hcanonical, parse_render_of_parse_eq_ok h]

/-- The canonical text of every other line has none. -/
lemma parse_canonical_of_not_instruction (h : ∀ i, parse text ≠ .ok (some i)) :
    parse (canonical text) = .ok none := by
  have hcanonical : canonical text = "" := by
    unfold canonical
    split
    · next i hi => exact absurd hi (h i)
    · rfl
  rw [hcanonical]
  rfl

end Statement

namespace LineFailure

variable {line : Nat} {text : String} {fault : Fault}

lemma canonical?_of_instruction {i : Instruction} (h : Statement.parse text = .ok (some i)) :
    canonical? ⟨line, text, fault⟩ = some ⟨line, Statement.canonical text, fault⟩ := by
  simp only [canonical?, Statement.canonical, h]

lemma canonical?_of_error {fault' : Fault} (h : Statement.parse text = .error fault') :
    canonical? ⟨line, text, fault⟩ = none := by
  simp only [canonical?, h]

end LineFailure

/-! ### What the canonical form of a run keeps -/

namespace Event

/-- The emitted values stay. -/
lemma filterMap_output?_canonical? (events : Array Event) :
    (events.filterMap canonical?).filterMap output? = events.filterMap output? := by
  rw [Array.filterMap_filterMap]
  congr 1
  funext event
  cases event with
  | output value => rfl
  | failure f => cases h : f.canonical? <;> simp [canonical?, h, output?]

/-- The failures are those that have a canonical text. -/
lemma filterMap_failure?_canonical? (events : Array Event) :
    (events.filterMap canonical?).filterMap failure? =
      (events.filterMap failure?).filterMap LineFailure.canonical? := by
  rw [Array.filterMap_filterMap, Array.filterMap_filterMap]
  congr 1
  funext event
  cases event with
  | output value => rfl
  | failure f => cases h : f.canonical? <;> simp [canonical?, h, failure?]

end Event

namespace Progress

variable {p : Progress} {limit : Option Nat} {length : Nat} {text : String}

@[simp] lemma canonical_position (p : Progress) : p.canonical.position = p.position := rfl

/-- The effect of an instruction is taken over as it is. -/
lemma canonical_record (p : Progress) (effect : Effect) :
    (p.record effect).canonical = p.canonical.record effect := by
  have hemitted : (effect.emitted.map Event.output).toArray.filterMap Event.canonical? =
      (effect.emitted.map Event.output).toArray := by
    cases effect.emitted <;> rfl
  simp only [canonical, record]
  rw [Array.filterMap_append Array.size_append, hemitted]

/-- A report on a line that holds an instruction gets the canonical text. -/
lemma canonical_report_of_instruction {i : Instruction} {fault : Fault}
    (h : Statement.parse text = .ok (some i)) :
    (p.report text fault).canonical = p.canonical.report (Statement.canonical text) fault := by
  have hfailure : LineFailure.canonical? ⟨p.position + 1, text, fault⟩ =
      some ⟨p.position + 1, Statement.canonical text, fault⟩ :=
    LineFailure.canonical?_of_instruction h
  have hevent : Event.canonical? (.failure ⟨p.position + 1, text, fault⟩) =
      some (.failure ⟨p.position + 1, Statement.canonical text, fault⟩) := by
    rw [Event.canonical?, hfailure, Option.map_some]
  simp only [canonical, report, advance]
  rw [Array.filterMap_push_some hfailure (Array.size_push _),
    Array.filterMap_push_some hevent (Array.size_push _)]

/-- A report on a line that cannot be read is left out. -/
lemma canonical_report_of_error {fault : Fault} (h : Statement.parse text = .error fault) :
    (p.report text fault).canonical = p.canonical.advance := by
  have hfailure : LineFailure.canonical? ⟨p.position + 1, text, fault⟩ = none :=
    LineFailure.canonical?_of_error h
  have hevent : Event.canonical? (.failure ⟨p.position + 1, text, fault⟩) = none := by
    rw [Event.canonical?, hfailure, Option.map_none]
  simp only [canonical, report, advance]
  rw [Array.filterMap_push_none hfailure (Array.size_push _),
    Array.filterMap_push_none hevent (Array.size_push _)]

/-- To dispatch an instruction is the same on both sides. -/
lemma canonical_dispatch {i : Instruction} (h : Statement.parse text = .ok (some i)) :
    p.canonical.dispatch length (Statement.canonical text) i =
      (p.dispatch length text i).map Progress.canonical Run.canonical := by
  have hrecord : (p.record (i.effect p.state)).canonical = p.canonical.record (i.effect p.canonical.state) :=
    canonical_record p (i.effect p.state)
  exact dispatch_map (fun _ _ => rfl) (fun _ _ => rfl) rfl hrecord fun _ => canonical_report_of_instruction h

/-- So is a round on the canonical text of a line. -/
lemma canonical_round (p : Progress) (limit : Option Nat) (length : Nat) (text : String) :
    p.canonical.round limit length (Statement.canonical text) =
      (p.round limit length text).map Progress.canonical Run.canonical := by
  rw [round_eq, round_eq]
  cases hparse : Statement.parse text with
  | error fault =>
    rw [Statement.parse_canonical_of_not_instruction (by simp [hparse])]
    exact congrArg Round.next (canonical_report_of_error hparse).symm
  | ok statement =>
    cases statement with
    | none =>
      rw [Statement.parse_canonical_of_not_instruction (by simp [hparse])]
      rfl
    | some i =>
      rw [Statement.parse_canonical_of_instruction hparse]
      cases limit with
      | none => exact canonical_dispatch hparse
      | some max =>
        by_cases hused : max ≤ p.steps
        · have hused' : max ≤ p.canonical.steps := hused
          simp only [if_pos hused, if_pos hused']
          rfl
        · have hused' : ¬ max ≤ p.canonical.steps := hused
          simp only [if_neg hused, if_neg hused']
          exact canonical_dispatch hparse

end Progress

namespace Program

variable {program : Program} {limit : Option Nat}

lemma length_canonical (program : Program) : program.canonical.length = program.length := by
  simp only [canonical, length, Array.size_map]

lemma lines_canonical (program : Program) (position : Nat) :
    program.canonical.lines[position]? = program.lines[position]?.map Statement.canonical := by
  simp only [canonical, Array.getElem?_map]

/-- A run of the canonical form is over where a run of the program is. -/
lemma finished?_canonical_loop (program : Program) (limit : Option Nat) (p : Progress) :
    (program.canonical.loop limit).finished? p.canonical =
      ((program.loop limit).finished? p).map Run.canonical := by
  rw [finished?_loop_eq, finished?_loop_eq, length_canonical]
  by_cases hover : p.state.lastCategory = .exit ∨ program.length ≤ p.position
  · have hover' : p.canonical.state.lastCategory = .exit ∨ program.length ≤ p.canonical.position := hover
    rw [if_pos hover, if_pos hover']
    rfl
  · have hgoes : ¬ (p.canonical.state.lastCategory = .exit ∨ program.length ≤ p.canonical.position) :=
      hover
    rw [if_neg hover, if_neg hgoes]
    rfl

/-- Where a run goes on, a run of the canonical form does the same. -/
lemma round_canonical_loop (program : Program) (limit : Option Nat) (p : Progress) :
    (program.canonical.loop limit).round p.canonical =
      ((program.loop limit).round p).map Progress.canonical Run.canonical := by
  simp only [loop, lines_canonical, Progress.canonical_position, length_canonical]
  cases program.lines[p.position]? with
  | none => rfl
  | some text => exact p.canonical_round limit program.length text

/-- A run of the canonical form of a program is the canonical form of the run, for every program, start
and limit, and wherever the runs stand.  So they make the same steps, come to the same states and end
with the same error, or both without one.  They emit the same values.  The failures of the canonical form
are those of lines that can be read, in the same order, under the same numbers and with the same faults;
only their texts are the canonical ones. -/
theorem run_canonical (program : Program) (limit : Option Nat) (state : State)
    (events : Array Event) :
    (∀ rounds, (program.canonical.loop limit).after rounds
        (.start state (events.filterMap Event.canonical?)) =
      ((program.loop limit).after rounds (.start state events)).map Progress.canonical Run.canonical) ∧
    program.canonical.run limit state (events.filterMap Event.canonical?) =
      (program.run limit state events).map Run.canonical ∧
    ∀ run : Run,
      run.canonical.events.filterMap Event.output? = run.events.filterMap Event.output? ∧
      run.canonical.events.filterMap Event.failure? =
        (run.events.filterMap Event.failure?).filterMap LineFailure.canonical? := by
  have hfinished := program.finished?_canonical_loop limit
  have hround := program.round_canonical_loop limit
  have hstart : Progress.start state (events.filterMap Event.canonical?) =
      (Progress.start state events).canonical := rfl
  refine ⟨?_, ?_, ?_⟩
  · intro rounds
    rw [hstart, Loop.after_map hfinished hround]
  · have hbound : ∀ steps, program.canonical.roundBound steps = program.roundBound steps := by
      intro steps
      rw [roundBound, length_canonical, roundBound]
    rw [run, hbound, hstart, Loop.runFor_map hfinished hround, run]
  · intro run
    exact ⟨Event.filterMap_output?_canonical? run.events, Event.filterMap_failure?_canonical? run.events⟩

/-- A spelling of its own, a comment and a line that cannot be read. -/
example : (canonical ⟨#["push  +07 ; first", "bogus", "", "Output M9"]⟩).lines =
    #["PUSH 7", "", "", "OUTPUT M9"] := by decide +kernel

end Program

end StackMachine
