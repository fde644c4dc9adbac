import StackMachine.Proofs.Rounds

/-!
# Images of runs

A change of the machine, given by a map on its states, and a change of the lines of a program, given by a
map on their texts, turn one run into another one: each progress and each result has an image
(`Progress.image`, `Run.image`), with the new state and with the new texts in its reports.

The changed program goes through the images of what the program goes through, as long as each line that the
run comes to does the same in its new form (`Progress.Imitates`).  This is a matter of single instructions;
`Program.after_image` and `Program.run_image` are about the whole run.
-/

namespace StackMachine

/-! ### Images -/

/-- The effect with its state replaced by an image of it. -/
def Effect.mapState (f : State → State) (effect : Effect) : Effect :=
  { effect with state := f effect.state }

@[simp] lemma Effect.mapState_next (f : State → State) (s : State) :
    (next s).mapState f = next (f s) := rfl

/-- The failure with the text of its line changed. -/
def LineFailure.mapText (g : String → String) (f : LineFailure) : LineFailure :=
  { f with text := g f.text }

/-- The event with the text of its line changed, if it is a failure. -/
def Event.mapText (g : String → String) : Event → Event
  | .output value => .output value
  | .failure f => .failure (f.mapText g)

/-- The account with the texts of the lines changed. -/
def Summary.mapText (g : String → String) (summary : Summary) : Summary :=
  { summary with failures := summary.failures.map (LineFailure.mapText g) }

/-- The run with its state replaced by an image of it and the texts of the lines changed. -/
def Run.image (f : State → State) (g : String → String) (run : Run) : Run where
  result := run.result.map (Summary.mapText g)
  events := run.events.map (Event.mapText g)
  state := f run.state

/-- The same for a run under way. -/
def Progress.image (f : State → State) (g : String → String) (p : Progress) : Progress :=
  { p with
    failures := p.failures.map (LineFailure.mapText g)
    events := p.events.map (Event.mapText g)
    state := f p.state }

/-- The program with the texts of its lines changed. -/
def Program.mapText (g : String → String) (program : Program) : Program :=
  ⟨program.lines.map g⟩

/-- The run with only its state replaced by an image of it. -/
def Run.mapState (f : State → State) (run : Run) : Run :=
  { run with state := f run.state }

/-- The same for a run under way. -/
def Progress.mapState (f : State → State) (p : Progress) : Progress :=
  { p with state := f p.state }

lemma LineFailure.mapText_id : mapText id = id := rfl

lemma Event.mapText_id : mapText id = id := by
  funext event
  cases event <;> rfl

lemma Program.mapText_id (program : Program) : program.mapText id = program := by
  rw [mapText, Array.map_id]

lemma Run.image_id (f : State → State) : image f id = mapState f := by
  funext run
  rcases run with ⟨_ | summary, events, state⟩ <;>
    simp [image, mapState, Except.map, Summary.mapText, LineFailure.mapText_id, Event.mapText_id]

lemma Progress.image_id (f : State → State) : image f id = mapState f := by
  funext p
  simp only [image, mapState, LineFailure.mapText_id, Event.mapText_id, Array.map_id]

/-- Two runs give the same account of themselves, up to the texts of the lines that failed: they emit the
same values, lines with the same numbers fail, for the same reasons, and the runs end alike, after the same
steps. -/
structure Run.SameAccount (run run' : Run) : Prop where
  outputs : run'.events.filterMap Event.output? = run.events.filterMap Event.output?
  failures : (run'.events.filterMap Event.failure?).map (fun f => (f.line, f.fault)) =
    (run.events.filterMap Event.failure?).map fun f => (f.line, f.fault)
  result : (run'.result.map fun summary =>
      (summary.steps, summary.halted, summary.failures.map fun f => (f.line, f.fault))) =
    run.result.map fun summary =>
      (summary.steps, summary.halted, summary.failures.map fun f => (f.line, f.fault))

/-- The image of a run gives the same account. -/
lemma Run.sameAccount_image (f : State → State) (g : String → String) (run : Run) :
    run.SameAccount (run.image f g) := by
  refine ⟨?_, ?_, ?_⟩
  · rw [image, Array.filterMap_map]
    congr 1
    funext event
    cases event <;> rfl
  · rw [image, Array.filterMap_map, Array.map_filterMap, Array.map_filterMap]
    congr 1
    funext event
    cases event <;> rfl
  · rcases run with ⟨_ | summary, events, state⟩
    · rfl
    · simp only [image, Except.map, Summary.mapText, Array.map_map]
      rfl

namespace Progress

variable {f : State → State} {g : String → String} {p : Progress} {limit : Option Nat} {length : Nat}
  {text : String}

@[simp] lemma image_position (p : Progress) : (p.image f g).position = p.position := rfl

@[simp] lemma image_state (p : Progress) : (p.image f g).state = f p.state := rfl

lemma image_record (p : Progress) (effect : Effect) :
    (p.record effect).image f g = (p.image f g).record (effect.mapState f) := by
  have hemitted : (effect.emitted.map Event.output).toArray.map (Event.mapText g) =
      (effect.emitted.map Event.output).toArray := by
    cases effect.emitted <;> simp [Event.mapText]
  simp only [image, record, Effect.mapState, Array.map_append, hemitted]

lemma image_report (p : Progress) (text : String) (fault : Fault) :
    (p.report text fault).image f g = (p.image f g).report (g text) fault := by
  simp only [image, report, advance, Array.map_push, Event.mapText, LineFailure.mapText]

/-! ### Lines that do the same -/

/-- The line with the given text does the same in its new form, in the image of the state in which the run
has come to it: it holds no statement, or it cannot be read, for the same reason, or it holds an
instruction with the image of the effect.  An instruction that the step limit forbids may do anything. -/
inductive Imitates (f : State → State) (g : String → String) (limit : Option Nat) (p : Progress)
    (text : String) : Prop where
  | nothing (hparse : Statement.parse text = .ok none) (hparse' : Statement.parse (g text) = .ok none)
  | fault {fault : Fault} (hparse : Statement.parse text = .error fault)
    (hparse' : Statement.parse (g text) = .error fault)
  | instruction {i i' : Instruction} (hparse : Statement.parse text = .ok (some i))
    (hparse' : Statement.parse (g text) = .ok (some i'))
    (heffect : (∀ max, limit = some max → p.steps < max) →
      i'.effect (f p.state) = (i.effect p.state).mapState f)

/-- The image of a dispatch. -/
lemma dispatch_image {i i' : Instruction}
    (heffect : i'.effect (f p.state) = (i.effect p.state).mapState f) :
    (p.image f g).dispatch length (g text) i' =
      (p.dispatch length text i).map (Progress.image f g) (Run.image f g) := by
  have hrecord : (p.record (i.effect p.state)).image f g =
      (p.image f g).record (i'.effect (p.image f g).state) := by
    rw [image_record, image_state, heffect]
  have houtcome : (i'.effect (p.image f g).state).outcome = (i.effect p.state).outcome := by
    rw [image_state, heffect, Effect.mapState]
  exact dispatch_map (fun _ _ => rfl) (fun _ _ => rfl) houtcome hrecord fun fault => image_report _ text fault

/-- A line that does the same has the image of a round. -/
lemma round_image (h : p.Imitates f g limit text) :
    (p.image f g).round limit length (g text) =
      (p.round limit length text).map (Progress.image f g) (Run.image f g) := by
  cases h with
  | nothing hparse hparse' =>
    rw [round_eq, round_eq, hparse, hparse']
    rfl
  | fault hparse hparse' =>
    rw [round_eq, round_eq, hparse, hparse']
    exact congrArg Round.next (image_report p text _).symm
  | instruction hparse hparse' heffect =>
    by_cases hused : ∃ max, limit = some max ∧ max ≤ p.steps
    · obtain ⟨max, rfl, hmax⟩ := hused
      have hmax' : max ≤ (p.image f g).steps := hmax
      rw [round_eq, round_eq, hparse, hparse']
      simp only [if_pos hmax, if_pos hmax']
      rfl
    · have hfree : ∀ max, limit = some max → p.steps < max := by
        intro max hlimit
        by_contra hmax
        exact hused ⟨max, hlimit, Nat.not_lt.1 hmax⟩
      have hfree' : ∀ max, limit = some max → (p.image f g).steps < max := hfree
      rw [round_eq_dispatch hparse hfree, round_eq_dispatch hparse' hfree']
      exact dispatch_image (heffect hfree)

end Progress

/-! ### Images of whole runs -/

namespace Program

variable {program : Program} {limit : Option Nat} {f : State → State} {g : String → String}
  {state : State} {events : Array Event}

lemma length_mapText (g : String → String) (program : Program) :
    (program.mapText g).length = program.length :=
  Array.size_map

/-- The changed program is over where the program is, if the map leaves the category alone. -/
lemma finished?_mapText_loop (hf : ∀ s, (f s).lastCategory = s.lastCategory) (p : Progress) :
    ((program.mapText g).loop limit).finished? (p.image f g) =
      ((program.loop limit).finished? p).map (Run.image f g) := by
  rw [finished?_loop_eq, finished?_loop_eq, length_mapText, Progress.image_state, hf,
    Progress.image_position]
  split
  · simp only [Option.map_some, Progress.finish, Progress.image, Run.image, hf]
    rfl
  · rfl

/-- Where the line at its position does the same, the changed program goes through the image of the
round. -/
lemma round_mapText_loop {p : Progress}
    (h : ∀ text, program.lines[p.position]? = some text → p.Imitates f g limit text)
    (hfinished : (program.loop limit).finished? p = none) :
    ((program.mapText g).loop limit).round (p.image f g) =
      ((program.loop limit).round p).map (Progress.image f g) (Run.image f g) := by
  obtain ⟨text, hline, hround⟩ := exists_round_loop_eq hfinished
  have hline' : (program.mapText g).lines[(p.image f g).position]? = some (g text) := by
    rw [Progress.image_position, mapText, Array.getElem?_map, hline, Option.map_some]
  have hround' : ((program.mapText g).loop limit).round (p.image f g) =
      (p.image f g).round limit program.length (g text) := by
    simp only [loop, hline', length_mapText]
  rw [hround, hround', Progress.round_image (h text hline)]

/-- The changed program stands at the image of where the program stands, if the lines that it has come to
until then do the same. -/
theorem after_image (hf : ∀ s, (f s).lastCategory = s.lastCategory) {rounds : Nat}
    (h : ∀ n < rounds, ∀ p, (program.loop limit).after n (.start state events) = .next p →
      ∀ text, program.lines[p.position]? = some text → p.Imitates f g limit text) :
    ((program.mapText g).loop limit).after rounds (.start (f state) (events.map (Event.mapText g))) =
      ((program.loop limit).after rounds (.start state events)).map
        (Progress.image f g) (Run.image f g) := by
  have hstart : Progress.start (f state) (events.map (Event.mapText g)) =
      (Progress.start state events).image f g := by
    simp only [Progress.start, Progress.image, Array.map_empty]
  rw [hstart]
  refine Loop.after_map_of_lt (finished?_mapText_loop hf) ?_
  intro n hn p hafter
  exact round_mapText_loop (h n hn p hafter) (Loop.finished?_of_after_eq_next hafter)

/-- The answer for the changed program is the image of the answer. -/
theorem run_image (hf : ∀ s, (f s).lastCategory = s.lastCategory)
    (h : ∀ n p, (program.loop limit).after n (.start state events) = .next p →
      ∀ text, program.lines[p.position]? = some text → p.Imitates f g limit text) :
    (program.mapText g).run limit (f state) (events.map (Event.mapText g)) =
      (program.run limit state events).map (Run.image f g) := by
  have hbound : ∀ steps, (program.mapText g).roundBound steps = program.roundBound steps := by
    intro steps
    rw [roundBound, length_mapText, roundBound]
  rw [run, hbound, Loop.runFor_eq_result?, after_image hf fun n _ => h n, Round.result?_map,
    ← Loop.runFor_eq_result?, run]

/-- The same for a change of the machine alone. -/
theorem after_mapState (hf : ∀ s, (f s).lastCategory = s.lastCategory) {rounds : Nat}
    (h : ∀ n < rounds, ∀ p, (program.loop limit).after n (.start state events) = .next p →
      ∀ text, program.lines[p.position]? = some text → p.Imitates f id limit text) :
    (program.loop limit).after rounds (.start (f state) events) =
      ((program.loop limit).after rounds (.start state events)).map
        (Progress.mapState f) (Run.mapState f) := by
  have hafter := after_image hf h
  rwa [mapText_id, Event.mapText_id, Array.map_id, Progress.image_id, Run.image_id] at hafter

theorem run_mapState (hf : ∀ s, (f s).lastCategory = s.lastCategory)
    (h : ∀ n p, (program.loop limit).after n (.start state events) = .next p →
      ∀ text, program.lines[p.position]? = some text → p.Imitates f id limit text) :
    program.run limit (f state) events = (program.run limit state events).map (Run.mapState f) := by
  have hrun := run_image hf h
  rwa [mapText_id, Event.mapText_id, Array.map_id, Run.image_id] at hrun

end Program

end StackMachine
