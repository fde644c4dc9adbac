import StackMachine.Proofs.Calls
import StackMachine.Proofs.Distances
import StackMachine.Proofs.Reports

/-!
# A run and its reports

What a run tells the outside while it goes on, and what it says of itself in the end, are two accounts of
the same rounds.  A round reports at most one event.  It is an output or the failure of an instruction
only if the round has dispatched the instruction (`Program.exists_event_round`), since an instruction that
fails emits nothing.  So the events of instructions are never more than the instructions
(`Program.countP_events_after_le`), and the failures of the summary are those among the events.

A run that is broken off has no summary.  But the round that breaks it off reports nothing
(`Program.events_eq_of_round_stop`), so all that has happened before is in the events, and the machine is
where the dispatched instructions have left it (`Program.accounts_agree`).
-/

namespace StackMachine

variable {program : Program} {limit : Option Nat} {p : Progress} {state : State} {events : Array Event}
  {run : Run} {rounds : Nat}

/-! ### The events of a round -/

/-- The event comes from an instruction: it is an output, or the failure of a line that can be read. -/
def Event.isFromInstruction : Event → Bool
  | .output _ => true
  | .failure f => (Statement.parse f.text).isOk

namespace Program

/-- A round reports at most one event, and one from an instruction only if it dispatches an instruction. -/
lemma exists_event_round (hfinished : (program.loop limit).finished? p = none) :
    ∃ event : Option Event, ((program.loop limit).round p).events = p.events ++ event.toArray ∧
      ∀ e ∈ event, e.isFromInstruction = true → (program.dispatched? limit p).isSome = true := by
  obtain ⟨text, hline, hround⟩ := exists_round_loop_eq hfinished
  have hdispatched : ∀ i, Statement.parse text = .ok (some i) →
      (∀ max, limit = some max → p.steps < max) → (program.dispatched? limit p).isSome = true := by
    intro i hparse hsteps
    rw [(dispatched?_eq_some_iff hfinished).2
      ((dispatches_iff hfinished).2 ⟨⟨text, hline, hparse⟩, hsteps⟩)]
    rfl
  have houtcome := p.round_outcome limit program.length text
  rw [hround]
  generalize p.round limit program.length text = r at houtcome
  cases houtcome with
  | skipped _ => exact ⟨none, Array.append_empty.symm, by simp⟩
  | limited _ _ _ => exact ⟨none, Array.append_empty.symm, by simp⟩
  | @unreadable fault hparse =>
    refine ⟨some (.failure ⟨p.position + 1, text, fault⟩), Array.push_eq_append, ?_⟩
    rintro e ⟨⟩ hreadable
    rw [Event.isFromInstruction, hparse] at hreadable
    cases hreadable
  | @failed i fault hparse hsteps heffect =>
    refine ⟨some (.failure ⟨p.position + 1, text, fault⟩), ?_, fun _ _ _ => hdispatched i hparse hsteps⟩
    have hsilent : (p.record (i.effect p.state)).events = p.events := by
      rw [Progress.record, Instruction.emitted_of_error heffect]
      exact Array.append_empty
    change (p.record (i.effect p.state)).events.push _ = _
    rw [hsilent]
    exact Array.push_eq_append
  | stepped hparse hsteps _ => exact ⟨_, rfl, fun _ _ _ => hdispatched _ hparse hsteps⟩
  | jumped hparse hsteps _ _ _ => exact ⟨_, rfl, fun _ _ _ => hdispatched _ hparse hsteps⟩
  | strayed hparse hsteps _ _ _ => exact ⟨_, rfl, fun _ _ _ => hdispatched _ hparse hsteps⟩

/-- A round that breaks the run off reports nothing. -/
lemma events_eq_of_round_stop (hfinished : (program.loop limit).finished? p = none)
    (h : (program.loop limit).round p = .stop run) : run.events = p.events := by
  obtain ⟨text, -, hround⟩ := exists_round_loop_eq hfinished
  have houtcome := p.round_outcome limit program.length text
  rw [← hround, h] at houtcome
  cases houtcome with
  | limited _ _ _ => rfl
  | strayed _ _ heffect hdistance _ =>
    rw [Progress.abort, Progress.record, Instruction.emitted_of_distance heffect hdistance]
    exact Array.append_empty

/-- With one more round a run has at most one more event. -/
lemma exists_event_after_succ (program : Program) (limit : Option Nat) (p : Progress) (rounds : Nat) :
    ∃ event : Option Event, ((program.loop limit).after (rounds + 1) p).events =
      ((program.loop limit).after rounds p).events ++ event.toArray := by
  cases hafter : (program.loop limit).after rounds p with
  | stop run =>
    refine ⟨none, ?_⟩
    rw [Loop.after_succ, hafter, Round.bind_stop]
    exact Array.append_empty.symm
  | next q =>
    obtain ⟨event, hevent, -⟩ := exists_event_round (Loop.finished?_of_after_eq_next hafter)
    exact ⟨event, by rw [events_after_succ_of_next hafter, hevent, Round.events_next]⟩

/-- One event from an instruction is no more than one instruction. -/
lemma countP_toArray_le {event : Option Event} {instruction : Option Instruction}
    (h : ∀ e ∈ event, e.isFromInstruction = true → instruction.isSome = true) :
    event.toArray.countP Event.isFromInstruction ≤ instruction.toList.length := by
  cases event with
  | none => exact Nat.zero_le _
  | some e =>
    by_cases hfrom : e.isFromInstruction = true
    · obtain ⟨i, rfl⟩ := Option.isSome_iff_exists.1 (h e rfl hfrom)
      simp [hfrom]
    · simp [hfrom]

/-- The events from instructions that a run has added are no more than the instructions that it has
dispatched. -/
lemma countP_events_after_le (program : Program) (limit : Option Nat) (p : Progress) (rounds : Nat) :
    ((program.loop limit).after rounds p).events.countP Event.isFromInstruction ≤
      p.events.countP Event.isFromInstruction + (program.dispatched limit rounds p).length := by
  induction rounds with
  | zero =>
    rw [events_after_zero]
    exact Nat.le_add_right _ _
  | succ rounds ih =>
    cases hafter : (program.loop limit).after rounds p with
    | stop run =>
      rw [hafter] at ih
      rw [Loop.after_succ, hafter, Round.bind_stop, dispatched_succ_of_stop hafter]
      exact ih
    | next q =>
      rw [hafter] at ih
      obtain ⟨event, hevent, hfrom⟩ := exists_event_round (Loop.finished?_of_after_eq_next hafter)
      rw [events_after_succ_of_next hafter, hevent, Array.countP_append, dispatched_succ_of_next hafter,
        List.length_append, ← Nat.add_assoc]
      exact Nat.add_le_add ih (countP_toArray_le hfrom)

/-! ### The accounts of a run -/

/-- The failure has the number and the text of a line of the program. -/
def Locates (program : Program) (f : LineFailure) : Prop :=
  1 ≤ f.line ∧ f.line ≤ program.length ∧ program.lines[f.line - 1]? = some f.text

/-- A failure of a run comes from a line of the program. -/
lemma Fails.locates {f : LineFailure} (h : program.Fails limit state events f) : program.Locates f := by
  obtain ⟨rounds, p, text, -, hline, hfails⟩ := h
  have hposition : p.position < program.length := (Array.getElem?_eq_some_iff.1 hline).1
  cases hfails with
  | reading _ => exact ⟨Nat.le_add_left 1 p.position, hposition, hline⟩
  | execution _ _ => exact ⟨Nat.le_add_left 1 p.position, hposition, hline⟩

/-- A run that is broken off has come to the round that breaks it off. -/
lemma exists_after_of_error {error : RunError} (h : (program.loop limit).Ends (.start state events) run)
    (herror : run.result = .error error) :
    ∃ rounds p, (program.loop limit).after rounds (.start state events) = .next p ∧
      (program.loop limit).round p = .stop run := by
  obtain ⟨p, hreaches, hexits⟩ := Loop.ends_iff_exists_exits.1 h
  cases hexits with
  | finished hfinished =>
    rw [finished?_loop_eq_some hfinished, Progress.finish] at herror
    cases herror
  | stopped hfinished hround =>
    obtain ⟨rounds, hafter⟩ := (Loop.reaches_iff_exists_after hfinished).1 hreaches
    exact ⟨rounds, p, hafter, hround⟩

/-- Nothing is lost between what a run reports and what it says of itself, and nothing is told twice.

With each round there is at most one more event.  So after any number of rounds there are the events from
before the run, and some new ones behind them.  The failures among these have the number and the text of a
line of the program.  Those that are outputs, or failures of lines that can be read, are no more than the
instructions that have been dispatched.  If the run has come to a summary, then its failures are those
among the new events, in the same order, and its steps are the dispatched instructions.

A run that is broken off has all the events from before the round in which this happens, and no others.  It
leaves the machine where the last instruction that it has dispatched has left it, and later calls go on
from there. -/
theorem accounts_agree (program : Program) (limit : Option Nat) (state : State) (events : Array Event) :
    (∀ rounds, ∃ event : Option Event,
      ((program.loop limit).after (rounds + 1) (.start state events)).events =
        ((program.loop limit).after rounds (.start state events)).events ++ event.toArray) ∧
    (∀ rounds, ∃ new,
      ((program.loop limit).after rounds (.start state events)).events = events ++ new ∧
      (∀ f, Event.failure f ∈ new → program.Locates f) ∧
      new.countP Event.isFromInstruction ≤
        (program.dispatched limit rounds (.start state events)).length ∧
      ∀ run summary, (program.loop limit).after rounds (.start state events) = .stop run →
        run.result = .ok summary →
        summary.failures = new.filterMap Event.failure? ∧
          summary.steps = (program.dispatched limit rounds (.start state events)).length) ∧
    ∀ run error, (program.loop limit).Ends (.start state events) run → run.result = .error error →
      ∃ rounds p, (program.loop limit).after rounds (.start state events) = .next p ∧
        (program.loop limit).after (rounds + 1) (.start state events) = .stop run ∧
        run.events = p.events ∧
        run.state = state.afterAll (program.dispatched limit (rounds + 1) (.start state events)) ∧
        ∀ calls, state.afterCalls (.run program limit events (rounds + 1) :: calls) =
          run.state.afterCalls calls := by
  refine ⟨program.exists_event_after_succ limit _, ?_, ?_⟩
  · intro rounds
    obtain ⟨new, hreported, hcauses⟩ := program.reported_after limit state events rounds
    refine ⟨new, hreported.events, fun f hf => (hcauses f hf).locates, ?_, ?_⟩
    · have hcount := program.countP_events_after_le limit (.start state events) rounds
      rw [hreported.events, Array.countP_append] at hcount
      exact Nat.le_of_add_le_add_left hcount
    · intro run summary hstop hok
      rw [hstop] at hreported
      refine ⟨hreported.failures_eq_of_ok hok, ?_⟩
      rw [length_dispatched]
      exact (steps_eq_dispatchCount_of_ok hstop hok).1
  · intro run error hends herror
    obtain ⟨rounds, p, hafter, hround⟩ := exists_after_of_error hends herror
    have hstop : (program.loop limit).after (rounds + 1) (.start state events) = .stop run := by
      rw [Loop.after_succ, hafter, Round.bind_next, hround, Round.bind_stop]
    have hstate := program.state_after limit (rounds + 1) (.start state events)
    rw [hstop] at hstate
    refine ⟨rounds, p, hafter, hstop, ?_, hstate, ?_⟩
    · exact events_eq_of_round_stop (Loop.finished?_of_after_eq_next hafter) hround
    · intro calls
      rw [State.afterCalls, List.foldl_cons, Call.state, hstop]
      rfl

/-- The jump of the last line breaks the run off.  The value and the two failures have been reported by then,
and another line is carried out on the machine as it is.  Without the last line the run has a summary, with
the same failures. -/
theorem accounts_agree_with_stray_jump : ∃ (whole part : Program) (broken ended : Run) (summary : Summary)
    (rounds : Nat) (p : Progress) (new : Array Event),
    part.lines = #["OUTPUT 1", "bogus", "POP M1", "; x"] ∧
    whole.lines = part.lines.push "JNZ 1, -9" ∧
    whole.run none .initial #[.output 5] = some broken ∧
    broken.result = .error (.jumpBeforeStart 5 (-9)) ∧
    (whole.loop none).after rounds (.start .initial #[.output 5]) = .next p ∧ broken.events = p.events ∧
    (State.initial.afterCalls [.run whole none #[.output 5] (rounds + 1), .line "PUSH 2"]).stack = [2] ∧
    (part.loop none).after 4 (.start .initial #[.output 5]) = .stop ended ∧
    ended.result = .ok summary ∧ ended.events = broken.events ∧ ended.events = #[.output 5] ++ new ∧
    summary.failures = new.filterMap Event.failure? ∧
    summary = ⟨2, false, #[⟨2, "bogus", .unknownKeyword⟩, ⟨3, "POP M1", .stackUnderflow⟩]⟩ := by
  let part : Program := ⟨#["OUTPUT 1", "bogus", "POP M1", "; x"]⟩
  let whole : Program := ⟨part.lines.push "JNZ 1, -9"⟩
  let all : Array Event := #[.output 5, .output 1, .failure ⟨2, "bogus", .unknownKeyword⟩,
    .failure ⟨3, "POP M1", .stackUnderflow⟩]
  let broken : Run := ⟨.error (.jumpBeforeStart 5 (-9)), all, { State.initial with lastCategory := .jump }⟩
  let summary : Summary :=
    ⟨2, false, #[⟨2, "bogus", .unknownKeyword⟩, ⟨3, "POP M1", .stackUnderflow⟩]⟩
  let ended : Run := ⟨.ok summary, all, { State.initial with lastCategory := .data }⟩
  have hrounds : 5 ≤ whole.roundBound stepCapacity := by decide
  have hrun : whole.run none .initial #[.output 5] = some broken :=
    Loop.runFor_mono hrounds (by decide +kernel)
  have hstop : (part.loop none).after 4 (.start .initial #[.output 5]) = .stop ended := by
    decide +kernel
  obtain ⟨rounds, p, hafter, -, hevents, -, hcalls⟩ :=
    (accounts_agree whole none .initial #[.output 5]).2.2 broken _ (ends_of_run_eq_some hrun) rfl
  obtain ⟨new, hnew, -, -, hsummary⟩ := (accounts_agree part none .initial #[.output 5]).2.1 4
  have hfailures := (hsummary ended summary hstop rfl).1
  have hstack : (broken.state.afterCalls [.line "PUSH 2"]).stack = [2] := by decide +kernel
  rw [← hcalls] at hstack
  rw [hstop] at hnew
  exact ⟨whole, part, broken, ended, summary, rounds, p, new, rfl, rfl, hrun, rfl, hafter, hevents, hstack,
    hstop, rfl, rfl, hnew, hfailures, rfl⟩

end Program

end StackMachine
