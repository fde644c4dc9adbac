import Mathlib.Data.List.Basic
import StackMachine.CommandLine
import StackMachine.Proofs.Rounds
import StackMachine.Proofs.Sessions

/-!
# Programs line by line

The lines of a program can also be carried out by themselves, one after the other on one machine.  A
`Turn` is one such line with its effect, and `State.turns` goes through the lines up to the first `EXIT`.

If no turn asks for a jump, then a run of the program goes through the same turns, one in each round
(`Program.after_eq_foldl`), and so does a session whose input holds the same lines
(`Session.resume_eq_turns`).  `Program.run_eq_turns` puts the three side by side: what is left on the
machine, what is counted, what is reported and what is written.
-/

namespace StackMachine

/-- The instruction is over without a jump: it fails, or the next line follows. -/
def Effect.FallsThrough (effect : Effect) : Prop :=
  ∀ distance, effect.outcome = .ok distance → distance = 0

instance (effect : Effect) : Decidable effect.FallsThrough :=
  match h : effect.outcome with
  | .error _ => .isTrue fun _ hok => by rw [h] at hok; cases hok
  | .ok distance => decidable_of_iff (distance = 0) (by simp [Effect.FallsThrough, h])

/-- A line that has been carried out by itself. -/
structure Turn where
  /-- The number of the line, from 1. -/
  line : Nat
  /-- The line. -/
  text : String
  /-- What has come of it. -/
  effect : Effect

namespace Turn

/-- Whether the line holds an instruction. -/
def isInstruction (turn : Turn) : Bool :=
  match Statement.parse turn.text with
  | .ok (some _) => true
  | .ok none | .error _ => false

/-- Whether the machine stands after an `EXIT`. -/
def isExit (turn : Turn) : Bool :=
  turn.effect.state.lastCategory == .exit

/-- The failure of the line, if it has failed. -/
def failure? (turn : Turn) : Option LineFailure :=
  match turn.effect.outcome with
  | .error fault => some ⟨turn.line, turn.text, fault⟩
  | .ok _ => none

/-- What there is to report of the line. -/
def events (turn : Turn) : List Event :=
  (turn.effect.emitted.map Event.output).toList ++ (turn.failure?.map Event.failure).toList

/-- The reports on the line, as they are printed. -/
def printed (turn : Turn) : String :=
  String.join (turn.events.map fun event => event.report ++ "\n")

/-- What a session writes for the line, with the prompt for the next one. -/
def answered (turn : Turn) : String :=
  turn.printed ++ if turn.isExit then "" else Session.prompt

/-- The answer of a session that prints the reports on the line and nothing else. -/
def answer (turn : Turn) : Answer :=
  ⟨turn.events.map fun event => event.report ++ "\n", turn.isExit, turn.effect.state⟩

lemma output_answer (turn : Turn) : turn.answer.output = turn.answered := by
  rw [Answer.output, Answer.pieces, String.join_append, answered, printed, answer]
  cases turn.isExit <;> simp

end Turn

namespace State

/-- The turns of lines that are carried out one after the other, from the line with the given number up to
the first that leaves the machine after an `EXIT`. -/
def turns (s : State) (line : Nat) : List String → List Turn
  | [] => []
  | text :: rest =>
    let effect := s.runLine text
    ⟨line, text, effect⟩ ::
      if effect.state.lastCategory = .exit then [] else effect.state.turns (line + 1) rest

/-- The state of the machine after some turns. -/
def afterTurns (s : State) (turns : List Turn) : State :=
  (turns.getLast?.map (·.effect.state)).getD s

@[simp] lemma afterTurns_nil (s : State) : s.afterTurns [] = s := rfl

@[simp] lemma afterTurns_cons (s : State) (turn : Turn) (turns : List Turn) :
    s.afterTurns (turn :: turns) = turn.effect.state.afterTurns turns := by
  rcases turns with _ | ⟨next, turns⟩
  · rfl
  · simp [afterTurns, List.getLast?_cons]

variable {s : State} {line : Nat} {text : String} {rest lines : List String}

lemma turns_cons_of_exit (h : (s.runLine text).state.lastCategory = .exit) :
    s.turns line (text :: rest) = [⟨line, text, s.runLine text⟩] := by
  simp only [turns, if_pos h]

lemma turns_cons_of_ne_exit (h : (s.runLine text).state.lastCategory ≠ .exit) :
    s.turns line (text :: rest) =
      ⟨line, text, s.runLine text⟩ :: (s.runLine text).state.turns (line + 1) rest := by
  simp only [turns, if_neg h]

/-- There is a turn for each line, or fewer. -/
lemma length_turns_le (s : State) (line : Nat) (lines : List String) :
    (s.turns line lines).length ≤ lines.length := by
  induction lines generalizing s line with
  | nil => exact Nat.le_refl 0
  | cons text rest ih =>
    by_cases hexit : (s.runLine text).state.lastCategory = .exit
    · simp [turns_cons_of_exit hexit]
    · rw [turns_cons_of_ne_exit hexit]
      exact Nat.succ_le_succ (ih _ _)

/-- The turns end with an `EXIT` if one of their lines holds one, whatever its operands. -/
lemma isExit_iff_of_mem_turns (hs : s.lastCategory ≠ .exit) {turn : Turn}
    (h : turn ∈ s.turns line lines) :
    turn.isExit = true ↔ ∃ i, Statement.parse turn.text = .ok (some i) ∧ i.opcode = .exit := by
  induction lines generalizing s line with
  | nil => cases h
  | cons text rest ih =>
    have hfirst : (s.runLine text).state.lastCategory = .exit ↔
        ∃ i, Statement.parse text = .ok (some i) ∧ i.opcode = .exit :=
      lastCategory_runLine_eq_exit_iff hs
    by_cases hexit : (s.runLine text).state.lastCategory = .exit
    · rw [turns_cons_of_exit hexit, List.mem_singleton] at h
      subst h
      rw [Turn.isExit, beq_iff_eq, hfirst]
    · rw [turns_cons_of_ne_exit hexit] at h
      rcases List.mem_cons.1 h with rfl | hrest
      · rw [Turn.isExit, beq_iff_eq, hfirst]
      · exact ih hexit hrest

/-- The machine stands after an `EXIT` at the end if one of the turns was one. -/
lemma lastCategory_afterTurns (hs : s.lastCategory ≠ .exit) :
    ((s.afterTurns (s.turns line lines)).lastCategory == .exit) =
      (s.turns line lines).any Turn.isExit := by
  induction lines generalizing s line with
  | nil => simpa [turns] using hs
  | cons text rest ih =>
    by_cases hexit : (s.runLine text).state.lastCategory = .exit
    · simp [turns_cons_of_exit hexit, Turn.isExit]
    · have hturn : Turn.isExit ⟨line, text, s.runLine text⟩ = false := beq_eq_false_iff_ne.2 hexit
      rw [turns_cons_of_ne_exit hexit, afterTurns_cons, ih hexit, List.any_cons, hturn, Bool.false_or]

end State

/-! ### Runs -/

namespace Progress

/-- A run under way after one more turn. -/
def through (p : Progress) (turn : Turn) : Progress where
  position := p.position + 1
  steps := p.steps + if turn.isInstruction then 1 else 0
  failures := p.failures ++ turn.failure?.toArray
  events := p.events ++ turn.events.toArray
  state := turn.effect.state

/-- The line at the position, with the given text, as a turn of its own. -/
def turn (p : Progress) (text : String) : Turn :=
  ⟨p.position + 1, text, p.state.runLine text⟩

/-- A round without a jump is a turn of its line. -/
lemma round_eq_through {p : Progress} {text : String} (h : (p.state.runLine text).FallsThrough)
    (length : Nat) :
    p.round none length text = .next (p.through (p.turn text)) := by
  rcases hparse : Statement.parse text with fault | _ | i
  · rw [round_eq, hparse]
    simp [through, turn, report, advance, State.runLine, hparse, Effect.fail, Turn.isInstruction,
      Turn.failure?, Turn.events]
  · rw [round_eq, hparse]
    simp [through, turn, advance, State.runLine, hparse, Effect.next, Effect.jump, Turn.isInstruction,
      Turn.failure?, Turn.events]
  · have hrun : p.state.runLine text = i.effect p.state := by
      simp only [State.runLine, hparse]
    rw [round_eq_dispatch hparse (by simp)]
    rw [turn, hrun]
    rw [hrun] at h
    rcases heffect : (i.effect p.state).outcome with fault | distance
    · rw [dispatch_of_error heffect]
      simp [through, record, report, advance, heffect, hparse, Turn.isInstruction, Turn.failure?,
        Turn.events, ← List.push_toArray]
    · obtain rfl := h distance heffect
      rw [dispatch_of_ok_zero heffect]
      simp [through, record, advance, heffect, hparse, Turn.isInstruction, Turn.failure?,
        Turn.events]

/-- What turns leave behind, all in all. -/
lemma foldl_through (p : Progress) (turns : List Turn) :
    turns.foldl through p =
      { position := p.position + turns.length
        steps := p.steps + turns.countP Turn.isInstruction
        failures := p.failures ++ (turns.filterMap Turn.failure?).toArray
        events := p.events ++ (turns.flatMap Turn.events).toArray
        state := p.state.afterTurns turns } := by
  induction turns generalizing p with
  | nil => simp
  | cons turn turns ih =>
    rw [List.foldl_cons, ih, Progress.mk.injEq]
    refine ⟨?_, ?_, ?_, ?_, ?_⟩
    · simp only [through, List.length_cons]
      omega
    · simp only [through, List.countP_cons]
      omega
    · rcases hfailure : turn.failure? with _ | failure <;> simp [through, hfailure]
    · simp [through]
    · rw [State.afterTurns_cons, through]

end Progress

namespace Program

variable {program : Program} {p : Progress}

/-- The turns of the lines of the program. -/
def turns (program : Program) (s : State) : List Turn :=
  s.turns 1 program.lines.toList

/-- As long as no turn asks for a jump, a run goes through one turn in each round. -/
lemma after_eq_foldl (hstate : p.state.lastCategory ≠ .exit) {rest : List String}
    (hrest : program.lines.toList.drop p.position = rest)
    (hfall : ∀ turn ∈ p.state.turns (p.position + 1) rest, turn.effect.FallsThrough) (rounds : Nat) :
    (program.loop none).after rounds p =
      if rounds < (p.state.turns (p.position + 1) rest).length then
        .next (((p.state.turns (p.position + 1) rest).take rounds).foldl Progress.through p)
      else .stop ((p.state.turns (p.position + 1) rest).foldl Progress.through p).finish := by
  -- by induction on the lines that are left, which are those from the position on
  induction rest generalizing p rounds with
  | nil =>
    have hlength : program.length ≤ p.position := by
      rw [List.drop_eq_nil_iff] at hrest
      simpa [length] using hrest
    have hfinished : (program.loop none).finished? p = some p.finish := by
      rw [finished?_loop_eq, if_pos (.inr hlength)]
    simp [Loop.after_of_finished hfinished, State.turns]
  | cons text rest ih =>
    have hline : program.lines[p.position]? = some text := by
      rw [← Array.getElem?_toList, ← List.head?_drop, hrest, List.head?_cons]
    have hlt : p.position < program.length := (Array.getElem?_eq_some_iff.1 hline).1
    have hfinished : (program.loop none).finished? p = none :=
      finished?_loop_eq_none_iff.2 ⟨hstate, hlt⟩
    have hturn : (p.state.runLine text).FallsThrough :=
      hfall (p.turn text) (by simp [State.turns, Progress.turn])
    have hround : (program.loop none).round p = .next (p.through (p.turn text)) := by
      simp only [loop, hline]
      exact Progress.round_eq_through hturn _
    rcases rounds with _ | rounds
    · rw [Loop.after_zero_of_unfinished hfinished, if_pos (by simp [State.turns])]
      rfl
    rw [Loop.after_succ_of_next hfinished hround]
    by_cases hexit : (p.state.runLine text).state.lastCategory = .exit
    · have hover : (program.loop none).finished? (p.through (p.turn text)) =
          some (p.through (p.turn text)).finish := by
        rw [finished?_loop_eq, if_pos (.inl hexit)]
      rw [State.turns_cons_of_exit hexit, Loop.after_of_finished hover, if_neg (by simp)]
      rfl
    · rw [State.turns_cons_of_ne_exit hexit] at hfall ⊢
      have hrest' : program.lines.toList.drop (p.position + 1) = rest := by
        rw [← List.drop_drop, hrest, List.drop_one, List.tail_cons]
      rw [ih (p := p.through (p.turn text)) hexit hrest'
        fun turn hmem => hfall turn (List.mem_cons_of_mem _ hmem)]
      simp only [List.length_cons, Nat.add_lt_add_iff_right, List.take_succ_cons, List.foldl_cons]
      rfl

/-- So it ends after the last turn. -/
lemma run_eq_foldl {s : State} (hs : s.lastCategory ≠ .exit)
    (hfall : ∀ turn ∈ program.turns s, turn.effect.FallsThrough) (events : Array Event) :
    program.run none s events =
      some ((program.turns s).foldl Progress.through (.start s events)).finish := by
  have hrounds : (program.turns s).length ≤ program.roundBound stepCapacity := by
    have hlines : (program.turns s).length ≤ program.length := State.length_turns_le s 1 _
    have hbound : 1 * program.length ≤ (stepCapacity + 1) * program.length :=
      Nat.mul_le_mul_right _ (Nat.le_add_left 1 _)
    unfold roundBound
    omega
  apply Loop.runFor_mono hrounds
  rw [Loop.runFor_eq_some_iff]
  exact (after_eq_foldl (p := .start s events) hs rfl hfall _).trans (if_neg (Nat.lt_irrefl _))

end Program

/-! ### Sessions -/

/-- A turn without a jump is answered with its reports. -/
lemma State.answer_eq_of_fallsThrough {s : State} {text : String}
    (hcommand : ¬ Session.IsCommand text) (h : (s.runLine text).FallsThrough) (line : Nat) :
    s.answer text = Turn.answer ⟨line, text, s.runLine text⟩ := by
  have hemitted : (s.runLine text).emitted.toList.map (fun value => (Event.output value).report ++ "\n") =
      ((s.runLine text).emitted.map Event.output).toList.map fun event => event.report ++ "\n" := by
    cases (s.runLine text).emitted <;> rfl
  rw [answer_of_not_isCommand hcommand, hemitted, Turn.answer, Answer.mk.injEq]
  refine ⟨?_, rfl, rfl⟩
  rcases houtcome : (s.runLine text).outcome with fault | distance
  · simp [Effect.note, houtcome, Turn.events, Turn.failure?, Event.report, LineFailure.report]
  · obtain rfl := h distance houtcome
    simp [Effect.note, houtcome, Turn.events, Turn.failure?]

namespace Session

/-- A session goes through the same turns, and prints the reports of a run between its prompts. -/
lemma resume_eq_turns {s : State} {line : Nat} {lines : List String}
    (hcommand : ∀ text ∈ lines, ¬ IsCommand text)
    (hfall : ∀ turn ∈ s.turns line lines, turn.effect.FallsThrough) (written : ByteArray) :
    resume s ⟨none, written⟩ (lines.map String.toUTF8) =
      ⟨written ++ (String.join ((s.turns line lines).map Turn.answered)).toUTF8,
        if (s.turns line lines).any Turn.isExit then .dismissed else .inputUsedUp,
        s.afterTurns (s.turns line lines)⟩ := by
  induction lines generalizing s line written with
  | nil => simp [resume, State.turns]
  | cons text rest ih =>
    have hturn : (s.runLine text).FallsThrough :=
      hfall ⟨line, text, s.runLine text⟩ (by simp [State.turns])
    have hanswer := State.answer_eq_of_fallsThrough (hcommand text List.mem_cons_self) hturn line
    rw [List.map_cons, resume_none_cons (Text.fromUTF8?_toUTF8 text), hanswer, Turn.output_answer]
    by_cases hexit : (s.runLine text).state.lastCategory = .exit
    · have hlast : Turn.isExit ⟨line, text, s.runLine text⟩ = true := beq_iff_eq.2 hexit
      rw [State.turns_cons_of_exit hexit, Turn.answer, hlast, if_pos rfl]
      simp [hlast]
    · have hlast : Turn.isExit ⟨line, text, s.runLine text⟩ = false := beq_eq_false_iff_ne.2 hexit
      rw [State.turns_cons_of_ne_exit hexit] at hfall ⊢
      rw [Turn.answer, hlast, if_neg Bool.false_ne_true,
        ih (fun text hmem => hcommand text (List.mem_cons_of_mem _ hmem))
          (fun turn hmem => hfall turn (List.mem_cons_of_mem _ hmem))]
      simp [hlast, ByteArray.append_assoc]

end Session

/-! ### All three together -/

namespace Turn

/-- Among the reports on a line is the value that it emits. -/
lemma filterMap_output?_events (turn : Turn) :
    turn.events.filterMap Event.output? = turn.effect.emitted.toList := by
  rw [events]
  rcases turn.effect.emitted with _ | value <;> rcases turn.failure? with _ | failure <;>
    simp [Event.output?]

/-- The values that the lines emit stand among their reports in the same order. -/
lemma filterMap_output?_flatMap_events (turns : List Turn) :
    (turns.flatMap events).filterMap Event.output? = turns.filterMap (·.effect.emitted) := by
  rw [List.filterMap_flatMap, List.filterMap_eq_flatMap_toList]
  simp only [filterMap_output?_events]

/-- The reports on all lines are printed one after the other. -/
lemma join_flatMap_events (turns : List Turn) :
    String.join ((turns.flatMap events).map fun event => event.report ++ "\n") =
      String.join (turns.map printed) := by
  induction turns with
  | nil => rfl
  | cons turn turns ih =>
    rw [List.flatMap_cons, List.map_append, String.join_append, ih, List.map_cons, String.join_cons,
      printed]

end Turn

/-- If no line asks for a jump, then a run of a program, its lines carried out by themselves, and a session
on a text that holds these lines agree.

The run ends of its own in the state that the turns have led to, has emitted the same values in the same
order, and accounts for the turns that failed, with the numbers and the texts of their lines, and for those
that held an instruction.  It halts if and only if a turn was an `EXIT`.  After each round it stands exactly
where the turns so far have led, and it prints what they report.  The session writes the same reports,
between its prompts. -/
theorem Program.run_eq_turns {program : Program} {s : State} (hs : s.lastCategory ≠ .exit)
    (hfall : ∀ turn ∈ program.turns s, turn.effect.FallsThrough) (events : Array Event) :
    (∃ run summary, program.run none s events = some run ∧ run.result = .ok summary ∧
      run.state = s.afterTurns (program.turns s) ∧
      run.events.toList.filterMap Event.output? =
        events.toList.filterMap Event.output? ++ (program.turns s).filterMap (·.effect.emitted) ∧
      summary.failures.toList = (program.turns s).filterMap Turn.failure? ∧
      summary.steps = (program.turns s).countP Turn.isInstruction ∧
      (summary.halted = true ↔ ∃ turn ∈ program.turns s, turn.isExit = true) ∧
      run.render false = String.join (events.toList.map fun event => event.report ++ "\n") ++
        String.join ((program.turns s).map Turn.printed)) ∧
    (∀ turn ∈ program.turns s,
      turn.isExit = true ↔ ∃ i, Statement.parse turn.text = .ok (some i) ∧ i.opcode = .exit) ∧
    (∀ rounds, (program.loop none).after rounds (.start s events) =
      if rounds < (program.turns s).length then
        .next (((program.turns s).take rounds).foldl Progress.through (.start s events))
      else .stop ((program.turns s).foldl Progress.through (.start s events)).finish) ∧
    (∀ text, Text.charLines text = program.lines.toList →
      (∀ line ∈ program.lines.toList, ¬ Session.IsCommand line) →
      Session.run s (.new none) text.toUTF8 =
        ⟨(Session.prompt ++ String.join ((program.turns s).map Turn.answered)).toUTF8,
          if (program.turns s).any Turn.isExit then .dismissed else .inputUsedUp,
          s.afterTurns (program.turns s)⟩) := by
  refine ⟨?_, ?_, ?_, ?_⟩
  · have hrun := run_eq_foldl hs hfall events
    rw [Progress.foldl_through] at hrun
    refine ⟨_, _, hrun, rfl, rfl, ?_, ?_, ?_, ?_, ?_⟩
    · simp [Progress.finish, Progress.start, Turn.filterMap_output?_flatMap_events]
    · simp [Progress.start]
    · simp [Progress.start]
    · simp only [Progress.start, turns]
      rw [State.lastCategory_afterTurns hs, List.any_eq_true]
    · simp [Run.render, Progress.finish, Progress.start, Turn.join_flatMap_events]
  · intro turn hturn
    exact State.isExit_iff_of_mem_turns hs hturn
  · exact after_eq_foldl (p := .start s events) hs rfl hfall
  · intro text htext hcommand
    rw [Session.run_none, Text.byteLines_toUTF8, htext, Session.resume_eq_turns hcommand hfall]
    simp [turns]

/-- The first line has no statement, the second one cannot be read, the third one fails, and the jump by 0
is none.  The `EXIT` has an operand, and the line after it is not carried out. -/
theorem Program.run_eq_turns_up_to_exit :
    ∃ text, text = ";\r\nx\nPOP 1\nJZ 0, 0\nOUTPUT 7\nexit 3\nOUTPUT 1\n" ∧
      State.initial.lastCategory ≠ .exit ∧
      (∀ turn ∈ (Program.ofText text).turns .initial, turn.effect.FallsThrough) ∧
      Text.charLines text = (Program.ofText text).lines.toList ∧
      (∀ line ∈ (Program.ofText text).lines.toList, ¬ Session.IsCommand line) ∧
      (∃ run summary, (Program.ofText text).run none .initial #[] = some run ∧
        run.result = .ok summary ∧ run.state = (Session.run .initial (.new none) text.toUTF8).state ∧
        run.events.toList.filterMap Event.output? = [7] ∧
        summary.failures.toList = [⟨2, "x", .unknownKeyword⟩, ⟨3, "POP 1", .operandKind⟩] ∧
        summary.steps = 4 ∧ summary.halted = true) ∧
      (Session.run .initial (.new none) text.toUTF8).written =
        ("> > Instruction failed \"x\" Error: Invalid command\n> " ++
          "Instruction failed \"POP 1\" Error: Invalid operand\n> > Output 7\n> ").toUTF8 := by
  refine ⟨_, rfl, ?_⟩
  have hstart : State.initial.lastCategory ≠ .exit := by decide
  have hlines : ∀ text, Text.charLines text = (Program.ofText text).lines.toList := fun _ => rfl
  have hfall : ∀ turn ∈ (Program.ofText
      ";\r\nx\nPOP 1\nJZ 0, 0\nOUTPUT 7\nexit 3\nOUTPUT 1\n").turns .initial,
      turn.effect.FallsThrough := by decide +kernel
  have hcommand : ∀ line ∈ (Program.ofText
      ";\r\nx\nPOP 1\nJZ 0, 0\nOUTPUT 7\nexit 3\nOUTPUT 1\n").lines.toList,
      ¬ Session.IsCommand line := by decide +kernel
  obtain ⟨⟨run, summary, hrun, hresult, hstate, houtputs, hfailures, hsteps, hhalted, -⟩, -, -,
    hsession⟩ := run_eq_turns hstart hfall #[]
  have hwritten := hsession _ (hlines _) hcommand
  -- both states are the one after the turns, so there is no need to compute it
  generalize State.initial.afterTurns _ = final at hstate hwritten
  refine ⟨hstart, hfall, hlines _, hcommand, ⟨run, summary, hrun, hresult, ?_, ?_, ?_, ?_, ?_⟩, ?_⟩
  · rw [hstate, hwritten]
  · rw [houtputs]
    decide +kernel
  · rw [hfailures]
    decide +kernel
  · rw [hsteps]
    decide +kernel
  · rw [hhalted]
    decide +kernel
  · simp only [hwritten]
    decide +kernel

end StackMachine
