import StackMachine.Proofs.Rounds

/-!
# What a run reports

A run adds events to those from before it, and its list of failures holds the failures among the new
events, in the same order (`Reported`).  Every failure that it reports has a cause (`Progress.Fails`):
the run has come to the line with the number of the failure, and that line either could not be read or
held an instruction that failed, with the fault that is reported.

`Program.reported_after` says so of every run, wherever it stands.  It covers runs that are still under
way, runs that have been broken off and runs that never end.
-/

namespace StackMachine

namespace Round

/-- All events, where a run stands. -/
def events : Round Progress Run → Array Event
  | .next p => p.events
  | .stop run => run.events

/-- The list of failures, where a run stands.  A run that has been broken off has none. -/
def failures? : Round Progress Run → Option (Array LineFailure)
  | .next p => some p.failures
  | .stop run => run.result.toOption.map Summary.failures

@[simp] lemma events_next (p : Progress) : events (.next p) = p.events := rfl

end Round

/-- A run has added the given events to those from before it, and its failures are those among them. -/
structure Reported (before new : Array Event) (r : Round Progress Run) : Prop where
  events : r.events = before ++ new
  failures : ∀ failures, r.failures? = some failures → failures = new.filterMap Event.failure?

variable {program : Program} {limit : Option Nat} {p : Progress} {text : String}
  {before new : Array Event}

namespace Reported

/-- Nothing has been reported at the start. -/
lemma start (state : State) (before : Array Event) :
    Reported before #[] (.next (.start state before)) := by
  refine ⟨(Array.append_empty).symm, ?_⟩
  rintro failures ⟨⟩
  rfl

/-- Where events and failures are the same, the same has been reported. -/
lemma of_eq {r : Round Progress Run} (h : Reported before new (.next p)) (hevents : r.events = p.events)
    (hfailures : r.failures? = none ∨ r.failures? = some p.failures) : Reported before new r := by
  refine ⟨hevents.trans h.events, ?_⟩
  intro failures hsome
  rcases hfailures with hnone | heq
  · rw [hnone] at hsome
    cases hsome
  · rw [heq] at hsome
    exact h.failures failures hsome

/-- An instruction reports the value that it emits. -/
lemma record (h : Reported before new (.next p)) (effect : Effect) :
    Reported before (new ++ (effect.emitted.map Event.output).toArray) (.next (p.record effect)) := by
  have hevents : p.events = before ++ new := h.events
  have hfailures : p.failures = new.filterMap Event.failure? := h.failures _ rfl
  have hemitted : (effect.emitted.map Event.output).toArray.filterMap Event.failure? = #[] := by
    cases effect.emitted <;> rfl
  constructor
  · simp only [Round.events_next, Progress.record, hevents, Array.append_assoc]
  · rintro failures ⟨⟩
    rw [Array.filterMap_append Array.size_append, hemitted, Array.append_empty]
    exact hfailures

/-- A line that fails is reported. -/
lemma report (h : Reported before new (.next p)) (text : String) (fault : Fault) :
    Reported before (new ++ #[.failure ⟨p.position + 1, text, fault⟩])
      (.next (p.report text fault)) := by
  have hevents : p.events = before ++ new := h.events
  have hfailures : p.failures = new.filterMap Event.failure? := h.failures _ rfl
  constructor
  · simp only [Round.events_next, Progress.report, Progress.advance, hevents, Array.push_eq_append,
      Array.append_assoc]
  · rintro failures ⟨⟩
    rw [Array.filterMap_append Array.size_append, ← hfailures]
    exact Array.push_eq_append

/-- The failures of a summary are those among the new events. -/
lemma failures_eq_of_ok {run : Run} {summary : Summary} (h : Reported before new (.stop run))
    (hok : run.result = .ok summary) : summary.failures = new.filterMap Event.failure? := by
  refine h.failures _ ?_
  rw [Round.failures?, hok]
  rfl

end Reported

namespace Progress

/-- The failures of the line at the position, with the given text. -/
inductive Fails (p : Progress) (text : String) : LineFailure → Prop where
  /-- The line cannot be read. -/
  | reading {fault : Fault} (hparse : Statement.parse text = .error fault) :
    Fails p text ⟨p.position + 1, text, fault⟩
  /-- The line holds an instruction that fails. -/
  | execution {i : Instruction} {fault : Fault} (hparse : Statement.parse text = .ok (some i))
    (heffect : (i.effect p.state).outcome = .error fault) :
    Fails p text ⟨p.position + 1, text, fault⟩

/-- A value that is emitted is no failure. -/
lemma failure_notMem_emitted (emitted : Option Int64) (f : LineFailure) :
    Event.failure f ∉ (emitted.map Event.output).toArray := by
  cases emitted <;> simp

/-- A round adds events, and the failures among them are failures of its line. -/
lemma Outcome.reported {length : Nat} {r : Round Progress Run} (h : p.Outcome limit length text r)
    (hreported : Reported before new (.next p)) :
    ∃ more, Reported before (new ++ more) r ∧ ∀ f, Event.failure f ∈ more → p.Fails text f := by
  -- an instruction that does not fail reports at most a value
  have hemitted : ∀ (i : Instruction) (r : Round Progress Run),
      r.events = (p.record (i.effect p.state)).events →
      (r.failures? = none ∨ r.failures? = some p.failures) →
      ∃ more, Reported before (new ++ more) r ∧ ∀ f, Event.failure f ∈ more → p.Fails text f := by
    intro i r hevents hfailures
    refine ⟨_, (hreported.record (i.effect p.state)).of_eq hevents hfailures, ?_⟩
    intro f hf
    exact absurd hf (failure_notMem_emitted _ f)
  cases h with
  | skipped _ =>
    refine ⟨#[], ?_, by simp⟩
    rw [Array.append_empty]
    exact hreported.of_eq rfl (.inr rfl)
  | limited _ _ _ =>
    refine ⟨#[], ?_, by simp⟩
    rw [Array.append_empty]
    exact hreported.of_eq rfl (.inl rfl)
  | @unreadable fault hparse =>
    refine ⟨_, hreported.report text fault, ?_⟩
    intro f hf
    obtain rfl : f = ⟨p.position + 1, text, fault⟩ := by simpa using hf
    exact .reading hparse
  | @failed i fault hparse _ heffect =>
    have hreport := (hreported.record (i.effect p.state)).report text fault
    rw [Array.append_assoc] at hreport
    refine ⟨_, hreport, ?_⟩
    intro f hf
    rcases Array.mem_append.1 hf with hvalue | hfailure
    · exact absurd hvalue (failure_notMem_emitted _ f)
    · obtain rfl : f = ⟨p.position + 1, text, fault⟩ := by simpa [record] using hfailure
      exact .execution hparse heffect
  | @stepped i _ _ _ => exact hemitted i _ rfl (.inr rfl)
  | @jumped i _ _ _ _ _ _ _ => exact hemitted i _ rfl (.inr rfl)
  | @strayed i _ _ _ _ _ _ _ => exact hemitted i _ rfl (.inl rfl)

/-- A round adds events to those from before it. -/
lemma Outcome.exists_events_eq {length : Nat} {r : Round Progress Run}
    (h : p.Outcome limit length text r) : ∃ later, r.events = p.events ++ later := by
  cases h with
  | skipped _ => exact ⟨#[], Array.append_empty.symm⟩
  | unreadable _ => exact ⟨_, Array.push_eq_append⟩
  | limited _ _ _ => exact ⟨#[], Array.append_empty.symm⟩
  | failed _ _ _ => exact ⟨_, Array.push_eq_append.trans (Array.append_assoc)⟩
  | stepped _ _ _ => exact ⟨_, rfl⟩
  | jumped _ _ _ _ _ => exact ⟨_, rfl⟩
  | strayed _ _ _ _ _ => exact ⟨_, rfl⟩

end Progress

namespace Program

/-- The failures of a run: it has come to a line, and the failure is one of that line. -/
def Fails (program : Program) (limit : Option Nat) (state : State) (before : Array Event)
    (f : LineFailure) : Prop :=
  ∃ rounds p text, (program.loop limit).after rounds (.start state before) = .next p ∧
    program.lines[p.position]? = some text ∧ p.Fails text f

/-- Wherever a run stands, it has added events to those from before it, its list of failures holds the
failures among them, and each of these has a cause. -/
theorem reported_after (program : Program) (limit : Option Nat) (state : State)
    (before : Array Event) (rounds : Nat) :
    ∃ new, Reported before new ((program.loop limit).after rounds (.start state before)) ∧
      ∀ f, Event.failure f ∈ new → program.Fails limit state before f := by
  refine Loop.after_invariant (J := fun r => ∃ new, Reported before new r ∧
    ∀ f, Event.failure f ∈ new → program.Fails limit state before f) ?_ ?_ ?_ rounds
  · exact ⟨#[], .start state before, by simp⟩
  · rintro p run ⟨new, hreported, hcauses⟩ hfinished
    rw [finished?_loop_eq_some hfinished]
    exact ⟨new, hreported.of_eq rfl (.inr rfl), hcauses⟩
  · rintro n p hafter ⟨new, hreported, hcauses⟩
    obtain ⟨text, hline, hround⟩ := exists_round_loop_eq (Loop.finished?_of_after_eq_next hafter)
    rw [hround]
    obtain ⟨more, hmore, hfails⟩ :=
      (p.round_outcome limit program.length text).reported hreported
    refine ⟨new ++ more, hmore, ?_⟩
    intro f hf
    rcases Array.mem_append.1 hf with hold | hadded
    · exact hcauses f hold
    · exact ⟨n, p, text, hafter, hline, hfails f hadded⟩

/-- To be over adds no event. -/
lemma events_after_zero (program : Program) (limit : Option Nat) (p : Progress) :
    ((program.loop limit).after 0 p).events = p.events := by
  cases hfinished : (program.loop limit).finished? p with
  | none => rw [Loop.after_zero_of_unfinished hfinished, Round.events_next]
  | some run =>
    rw [Loop.after_of_finished hfinished, finished?_loop_eq_some hfinished]
    rfl

/-- One more round adds the events of this round. -/
lemma events_after_succ_of_next {rounds : Nat} {q : Progress}
    (h : (program.loop limit).after rounds p = .next q) :
    ((program.loop limit).after (rounds + 1) p).events = ((program.loop limit).round q).events := by
  rw [Loop.after_succ, h, Round.bind_next]
  cases (program.loop limit).round q with
  | stop run => rfl
  | next q' => exact events_after_zero program limit q'

/-- Where a run stands later, it has only added events. -/
lemma exists_events_after_eq (program : Program) (limit : Option Nat) (p : Progress) {m n : Nat}
    (h : m ≤ n) : ∃ later, ((program.loop limit).after n p).events =
      ((program.loop limit).after m p).events ++ later := by
  induction n, h using Nat.le_induction with
  | base => exact ⟨#[], Array.append_empty.symm⟩
  | succ n _ ih =>
    obtain ⟨later, hlater⟩ := ih
    cases hafter : (program.loop limit).after n p with
    | stop run => exact ⟨later, by rw [Loop.after_succ, hafter, Round.bind_stop, ← hlater, hafter]⟩
    | next q =>
      obtain ⟨text, -, hround⟩ := exists_round_loop_eq (Loop.finished?_of_after_eq_next hafter)
      obtain ⟨more, hmore⟩ := (q.round_outcome limit program.length text).exists_events_eq
      have hq : q.events = ((program.loop limit).after m p).events ++ later := by
        rw [← hlater, hafter, Round.events_next]
      refine ⟨later ++ more, ?_⟩
      rw [events_after_succ_of_next hafter, hround, hmore, hq, Array.append_assoc]

end Program

end StackMachine
