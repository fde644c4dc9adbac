import StackMachine.Proofs.Dispatches
import StackMachine.Proofs.Relocations
import StackMachine.Proofs.Reports

/-!
# What lies underneath the stack

A run that has started with some values on the stack may put others on top of them and take them off
again.  As long as no instruction fails for want of values, it has only looked at what it found on top, so
it would have done the same with more values underneath (`Program.run_onto`).  These are still there at the
end, below the stack that the run would have left without them.

The condition is about the reports of the run: none of its failures is `Fault.stackUnderflow`.  It is
needed for the rounds up to the one in question only, so a run that fails in this way does the same until
then.
-/

namespace StackMachine

/-- The state with more values underneath its stack, the topmost of them first. -/
def State.onto (s : State) (base : List Int64) : State :=
  { s with stack := s.stack ++ base }

namespace Relocation

/-- Everything stays in its place, with more values underneath the stack. -/
def underneath (base : List Int64) : Relocation where
  address := id
  memory := id
  base := base

/-- Every operand is carried over. -/
lemma carries_underneath (base : List Int64) (operand : Operand) :
    (underneath base).Carries operand := by
  cases operand with
  | integer value => exact trivial
  | memory address =>
    cases hcell : State.cell address with
    | error fault => exact .fault hcell hcell
    | ok cell => exact .cell hcell hcell fun _ _ => rfl

end Relocation

/-- None of the events is a failure for want of values on the stack. -/
def NoUnderflow (events : Array Event) : Prop :=
  ∀ f, Event.failure f ∈ events → f.fault ≠ .stackUnderflow

namespace Program

variable {program : Program} {limit : Option Nat} {s : State} {events new : Array Event} {p : Progress}
  {rounds n : Nat} {i : Instruction}

/-- An instruction that fails for want of values is reported.  So if a run has reported none by some time,
then none that it has dispatched until then has failed in this way. -/
lemma outcome_ne_stackUnderflow
    (hevents : ((program.loop limit).after rounds (.start s events)).events = events ++ new)
    (hnew : NoUnderflow new) (hn : n < rounds)
    (hafter : (program.loop limit).after n (.start s events) = .next p)
    (hdispatches : program.Dispatches limit p i) :
    (i.effect p.state).outcome ≠ .error .stackUnderflow := by
  intro heffect
  obtain ⟨hfinished, text, -, -, hround⟩ := hdispatches
  -- the failure stands between the events before the round and those after it
  obtain ⟨earlier, hearlier⟩ :=
    exists_events_after_eq program limit (.start s events) (Nat.zero_le n)
  obtain ⟨later, hlater⟩ :=
    exists_events_after_eq program limit (.start s events) (Nat.succ_le_of_lt hn)
  have hreport : ((program.loop limit).after (n + 1) (.start s events)).events =
      (p.record (i.effect p.state)).events.push
        (.failure ⟨p.position + 1, text, .stackUnderflow⟩) := by
    rw [Loop.after_succ, hafter, Round.bind_next, hround, Progress.dispatch_of_error heffect,
      Round.bind_next, events_after_zero]
    rfl
  rw [hafter, events_after_zero, Round.events_next] at hearlier
  rw [hevents, hreport, Progress.record, hearlier, Progress.start, Array.push_eq_append,
    Array.append_assoc, Array.append_assoc, Array.append_assoc] at hlater
  have hmem : Event.failure ⟨p.position + 1, text, .stackUnderflow⟩ ∈ new := by
    rw [(Array.append_right_inj _).1 hlater]
    simp
  exact hnew _ hmem rfl

/-- So every line that it has come to until then does the same with more values underneath the stack. -/
lemma imitates_underneath (base : List Int64)
    (hevents : ((program.loop limit).after rounds (.start s events)).events = events ++ new)
    (hnew : NoUnderflow new) (hn : n < rounds)
    (hafter : (program.loop limit).after n (.start s events) = .next p) {text : String}
    (hline : program.lines[p.position]? = some text) :
    p.Imitates (·.onto base) id limit text := by
  refine (Relocation.imitates_self rfl ?_ ?_ : p.Imitates (Relocation.underneath base).state id limit text)
  · intro i _ operand _
    exact Relocation.carries_underneath base operand
  · intro i hparse hfree
    have hdispatches : program.Dispatches limit p i :=
      (dispatches_iff (Loop.finished?_of_after_eq_next hafter)).2 ⟨⟨text, hline, hparse⟩, hfree⟩
    exact .inr (outcome_ne_stackUnderflow hevents hnew hn hafter hdispatches)

/-- A run looks at the values only that it has put on the stack itself, as long as it does not fail for
want of others.  With more values underneath the stack it then stands, after the same rounds, where it
would stand without them, and it ends in the same result, with the same events, or does not end either.
The values underneath are still there. -/
theorem run_onto (program : Program) (limit : Option Nat) (s : State) (base : List Int64)
    (events : Array Event) :
    (∀ rounds new, ((program.loop limit).after rounds (.start s events)).events = events ++ new →
      NoUnderflow new →
      (program.loop limit).after rounds (.start (s.onto base) events) =
        ((program.loop limit).after rounds (.start s events)).map
          (Progress.mapState (·.onto base)) (Run.mapState (·.onto base))) ∧
    (∀ run new, program.run limit s events = some run → run.events = events ++ new →
      NoUnderflow new →
      program.run limit (s.onto base) events = some (run.mapState (·.onto base))) ∧
    (program.run limit s events = none →
      (∀ rounds new, ((program.loop limit).after rounds (.start s events)).events = events ++ new →
        NoUnderflow new) →
      program.run limit (s.onto base) events = none) := by
  have hcategory : ∀ s : State, (s.onto base).lastCategory = s.lastCategory := fun _ => rfl
  refine ⟨?_, ?_, ?_⟩
  · intro rounds new hevents hnew
    refine after_mapState hcategory ?_
    intro n hn p hafter text hline
    exact imitates_underneath base hevents hnew hn hafter hline
  · intro run new hrun hevents hnew
    obtain ⟨rounds, hends⟩ := ends_of_run_eq_some hrun
    rw [Loop.runFor_eq_some_iff] at hends
    have hevents' : ((program.loop limit).after rounds (.start s events)).events = events ++ new := by
      rw [hends]
      exact hevents
    rw [run_mapState hcategory, hrun, Option.map_some]
    intro n p hafter text hline
    exact imitates_underneath base hevents' hnew (Loop.lt_of_after hafter hends) hafter hline
  · intro hrun hnew
    rw [run_mapState hcategory, hrun, Option.map_none]
    intro n p hafter text hline
    obtain ⟨new, hevents⟩ :=
      exists_events_after_eq program limit (.start s events) (Nat.zero_le (n + 1))
    rw [events_after_zero] at hevents
    exact imitates_underneath base hevents (hnew (n + 1) new hevents) (Nat.lt_succ_self n) hafter hline

/-- A failure of another kind does no harm: `POP M9` leaves the sum where it is, on top of the 7 and the 8
underneath. -/
theorem run_onto_past_bad_address :
    let program : Program := ⟨#["PUSH 2", "PUSH 3", "ADD", "POP M9", "POP M1", "OUTPUT M1"]⟩
    let failure : LineFailure := ⟨4, "POP M9", .badAddress⟩
    let run : Run :=
      ⟨.ok ⟨6, false, #[failure]⟩, #[.failure failure, .output 5],
        { State.initial with memory := #v[5, 0, 0, 0, 0, 0, 0, 0], lastCategory := .data }⟩
    program.run none .initial #[] = some run ∧ NoUnderflow run.events ∧
      program.run none (State.initial.onto [7, 8]) #[] =
        some { run with state := { run.state with stack := [7, 8] } } := by
  intro program failure run
  have hrun : program.run none .initial #[] = some run := by decide +kernel
  have hspared : NoUnderflow run.events := by
    intro f hf
    obtain rfl : f = failure := by simpa [run] using hf
    decide
  have honto : program.run none (State.initial.onto [7, 8]) #[] =
      some (run.mapState (·.onto [7, 8])) :=
    (run_onto program none .initial [7, 8] #[]).2.1 run _ hrun Array.empty_append.symm hspared
  exact ⟨hrun, hspared, honto⟩

end Program

end StackMachine
