import StackMachine.Proofs.Effects
import StackMachine.Proofs.Listings
import StackMachine.Proofs.Reports

/-!
# Running a listing

A run reads each line again whenever it comes to it.  `Listing.loop` never reads a line: it looks up the
position in a listing that has been made beforehand, and carries out what it finds there.  The texts of
the lines are only for its reports on instructions that fail.

The two do the same, for any number of rounds (`Program.run_eq_listing_run`).  So what a listing shows is
what a run meets: a run of a program whose listing has no failures reports only instructions that
fail, and none of their faults is an unknown keyword or a bad numeral.
-/

namespace StackMachine

namespace Progress

/-- Delivers a failure that is already known, and goes on to the next line. -/
def deliver (p : Progress) (f : LineFailure) : Progress :=
  { p with failures := p.failures.push f, events := p.events.push (.failure f) }.advance

/-- Carries out what a listing has for the line at the position. -/
def roundOn (p : Progress) (limit : Option Nat) (length : Nat) (text : String) :
    Option Entry → Round Progress Run
  | none => .next p.advance
  | some (.failure f) => .next (p.deliver f)
  | some (.instruction i) =>
    match limit with
    | none => p.dispatch length text i
    | some limit =>
      if limit ≤ p.steps then .stop (p.abort (.stepLimit limit)) else p.dispatch length text i

/-- To carry out a line is to carry out its entry. -/
lemma round_eq_roundOn (p : Progress) (limit : Option Nat) (length : Nat) (text : String) :
    p.round limit length text = p.roundOn limit length text (Entry.ofLine? p.position text) := by
  rw [round_eq, Entry.ofLine?]
  cases Statement.parse text with
  | error fault => rfl
  | ok statement =>
    cases statement with
    | none => rfl
    | some i => rfl

end Progress

/-- The loop of a run of a listing, with a step limit or without.  The texts are those of the lines. -/
def Listing.loop (listing : Listing) (text : Nat → String) (limit : Option Nat) :
    Loop Progress Run where
  finished? p :=
    if p.state.lastCategory = .exit ∨ listing.lineCount ≤ p.position then some p.finish else none
  round p := p.roundOn limit listing.lineCount (text p.position) (listing.entryAt? p.position)

namespace Program

variable {program : Program} {limit : Option Nat} {state : State} {events : Array Event}

/-! ### The two runs side by side -/

/-- The text of the line at a position. -/
def textAt (program : Program) (position : Nat) : String :=
  program.lines[position]?.getD ""

/-- A run of the listing is over where a run of the program is. -/
lemma finished?_listing_loop (program : Program) (limit : Option Nat) (p : Progress) :
    (program.listing.loop program.textAt limit).finished? p = (program.loop limit).finished? p := by
  have hcount : program.listing.lineCount = program.length := rfl
  simp only [Listing.loop]
  cases hfinished : (program.loop limit).finished? p with
  | none =>
    obtain ⟨hexit, hposition⟩ := finished?_loop_eq_none_iff.1 hfinished
    have hgoes : ¬ (p.state.lastCategory = .exit ∨ program.listing.lineCount ≤ p.position) := by
      rw [hcount]
      exact not_or.2 ⟨hexit, Nat.not_le.2 hposition⟩
    rw [if_neg hgoes]
  | some run =>
    have hover : p.state.lastCategory = .exit ∨ program.listing.lineCount ≤ p.position := by
      rw [hcount]
      by_contra hgoes
      obtain ⟨hexit, hposition⟩ := not_or.1 hgoes
      have hnone : (program.loop limit).finished? p = none :=
        finished?_loop_eq_none_iff.2 ⟨hexit, Nat.lt_of_not_le hposition⟩
      rw [hnone] at hfinished
      cases hfinished
    rw [if_pos hover, finished?_loop_eq_some hfinished]

/-- Where a run goes on, a run of the listing does the same. -/
lemma round_listing_loop {p : Progress} (h : (program.loop limit).finished? p = none) :
    (program.listing.loop program.textAt limit).round p = (program.loop limit).round p := by
  obtain ⟨text, hline, hround⟩ := exists_round_loop_eq h
  have hentry : program.listing.entryAt? p.position = Entry.ofLine? p.position text := by
    rw [entryAt?_listing, hline, Option.bind_some]
  have htext : program.textAt p.position = text := by
    rw [textAt, hline, Option.getD_some]
  simp only [Listing.loop, hentry, htext]
  rw [hround, Progress.round_eq_roundOn]
  rfl

/-- A run of the listing stands where a run of the program stands. -/
lemma after_listing_loop (program : Program) (limit : Option Nat) (rounds : Nat) (p : Progress) :
    (program.listing.loop program.textAt limit).after rounds p =
      (program.loop limit).after rounds p := by
  refine Loop.after_congr ?_ ?_ rounds p
  · exact finished?_listing_loop program limit
  · intro p h
    exact round_listing_loop h

/-! ### What a good listing promises -/

/-- The failures of instructions in a run: it has come to an instruction of the listing, which fails with
the fault of the failure. -/
def FailsInstruction (program : Program) (limit : Option Nat) (state : State) (before : Array Event)
    (f : LineFailure) : Prop :=
  ∃ rounds p i, (program.loop limit).after rounds (.start state before) = .next p ∧
    program.listing.entryAt? p.position = some (.instruction i) ∧
    (i.effect p.state).outcome = .error f.fault ∧
    f.line = p.position + 1 ∧ program.lines[p.position]? = some f.text

/-- The fault of an instruction that fails is none that only reading a line has. -/
lemma FailsInstruction.fault_ne {f : LineFailure} (h : program.FailsInstruction limit state events f) :
    f.fault ≠ .unknownKeyword ∧ ∀ token, f.fault ≠ .badInteger token := by
  obtain ⟨_, p, i, _, _, heffect, _⟩ := h
  exact Instruction.fault_ne_of_effect heffect

/-- If every line can be read, then only instructions fail. -/
lemma failsInstruction_of_fails {f : LineFailure} (hgood : program.listing.failures = [])
    (h : program.Fails limit state events f) : program.FailsInstruction limit state events f := by
  obtain ⟨rounds, p, text, hafter, hline, hfails⟩ := h
  cases hfails with
  | reading hparse =>
    obtain ⟨statement, hread⟩ := failures_listing_eq_nil_iff.1 hgood p.position text hline
    rw [hread] at hparse
    cases hparse
  | @execution i fault hparse heffect =>
    refine ⟨rounds, p, i, hafter, ?_, heffect, rfl, hline⟩
    rw [entryAt?_listing, hline, Option.bind_some, Entry.ofLine?_eq_instruction_iff]
    exact hparse

/-- A run of the program does what a run of its listing does.  They stand alike after every number of
rounds, so they have the same result, the same events and the same state at the end, if they end.

A listing without failures, which is one that is shown with the exit code 0, promises that a run reports
only instructions that fail, with none of the two faults that only reading a line has.  This holds for
every run, from every state and with every limit, wherever it stands. -/
theorem run_eq_listing_run (program : Program) (limit : Option Nat) (state : State)
    (events : Array Event) :
    (∀ rounds, (program.loop limit).after rounds (.start state events) =
      (program.listing.loop program.textAt limit).after rounds (.start state events)) ∧
    (program.run limit state events =
      (program.listing.loop program.textAt limit).runFor
        (program.roundBound (limit.getD stepCapacity)) (.start state events)) ∧
    (program.listing.outcome.exitCode = 0 ↔ program.listing.failures = []) ∧
    (program.listing.failures = [] → ∀ rounds, ∃ new,
      Reported events new ((program.loop limit).after rounds (.start state events)) ∧
      ∀ f, Event.failure f ∈ new → program.FailsInstruction limit state events f ∧
        f.fault ≠ .unknownKeyword ∧ ∀ token, f.fault ≠ .badInteger token) := by
  refine ⟨?_, ?_, program.listing.exitCode_outcome_eq_zero_iff, ?_⟩
  · intro rounds
    exact (after_listing_loop program limit rounds _).symm
  · rw [run, Loop.runFor_eq_result?, Loop.runFor_eq_result?, after_listing_loop]
  · intro hgood rounds
    obtain ⟨new, hreported, hcauses⟩ := program.reported_after limit state events rounds
    refine ⟨new, hreported, ?_⟩
    intro f hf
    have hfails := failsInstruction_of_fails hgood (hcauses f hf)
    exact ⟨hfails, hfails.fault_ne⟩

/-- This program has a good listing.  Its run never ends and reports the first line again and again, each
time because the stack is empty. -/
theorem run_eq_listing_run_without_end :
    (listing ⟨#["ADD ; nothing to add", "", "JNZ 1, -2"]⟩).failures = [] ∧
    ∀ rounds, ∃ new,
      Reported #[] new ((loop ⟨#["ADD ; nothing to add", "", "JNZ 1, -2"]⟩ none).after rounds
        (.start .initial #[])) ∧
      ∀ f, Event.failure f ∈ new →
        FailsInstruction ⟨#["ADD ; nothing to add", "", "JNZ 1, -2"]⟩ none .initial #[] f ∧
          f.fault ≠ .unknownKeyword ∧ ∀ token, f.fault ≠ .badInteger token := by
  have hgood : (listing ⟨#["ADD ; nothing to add", "", "JNZ 1, -2"]⟩).failures = [] := by
    decide +kernel
  exact ⟨hgood, (run_eq_listing_run _ none .initial #[]).2.2.2 hgood⟩

end Program

end StackMachine
