import StackMachine.Proofs.InstructionTable
import StackMachine.Proofs.Jumps
import StackMachine.Proofs.Listings
import StackMachine.Proofs.Rounds

/-!
# Where a listing says that a jump leads

A listing shows the place to which a jump with a literal distance leads.  For a jump that is taken this
should be the place at which a run goes on (`Program.ShowsJump`): the line with the number that is
shown, a position past the end, or no position at all because the run is broken off.

This holds for every distance but 0, and for that one it fails in every program and in every state
(`showsJump_iff`).  The listing adds the distance to the position, so the jump seems to lead to its own
line, while the run takes a distance of 0 for no jump and goes on with the next line.
-/

namespace StackMachine

/-! ### Jumps that are taken -/

namespace Instruction

/-- The condition of a jump: with one operand it is about the comparison, with two about the value of
the first one. -/
def Holds (i : Instruction) (s : State) : Prop :=
  match i.operands with
  | [_] => i.opcode.holdsFor s.comparison = true
  | [operand, _] => ∃ value, s.value operand = .ok value ∧ i.opcode.holdsAt value = true
  | _ => False

/-- An instruction is taken as a jump: its condition holds, and it does not fail. -/
structure Taken (i : Instruction) (s : State) : Prop where
  holds : i.Holds s
  succeeds : ∃ distance, (i.effect s).outcome = .ok distance

/-- The outcome of a jump that is taken is its literal distance. -/
lemma Taken.outcome_eq {i : Instruction} {s : State} {distance : Int64} (h : i.Taken s)
    (hdistance : i.jumpDistance? = some distance) : (i.effect s).outcome = .ok distance := by
  obtain ⟨hholds, result, hresult⟩ := h
  unfold jumpDistance? at hdistance
  split at hdistance
  · next hjump =>
    rw [outcome_of_isJump hjump] at hresult ⊢
    unfold Holds at hholds
    split at hdistance
    · next d hoperands =>
      obtain rfl := Option.some.inj hdistance
      rw [hoperands] at hholds hresult ⊢
      simp only [Effect.jumpIf] at hresult ⊢
      split at hresult
      · cases hresult
      · next hlast =>
        rw [if_neg hlast, if_pos hholds]
        rfl
    · next operand d hoperands =>
      obtain rfl := Option.some.inj hdistance
      rw [hoperands] at hholds ⊢
      obtain ⟨value, hvalue, htest⟩ := hholds
      simp only [Effect.jumpIf, hvalue, htest, if_true]
      rfl
    · cases hdistance
  · cases hdistance

end Instruction

variable {program : Program} {limit : Option Nat} {p : Progress} {i : Instruction}
  {distance : Int64} {text : String}

/-! ### What is shown and what is done -/

namespace Listing

/-- The listing shows, under a position, that an instruction leads to the place with the given text. -/
def Shows (listing : Listing) (position : Nat) (i : Instruction) (place : String) : Prop :=
  listing.renderEntry position (.instruction i) = i.render ++ "  -> " ++ place

/-- Of a jump with a literal distance the listing shows one place. -/
lemma shows_renderLanding_iff {listing : Listing} {position : Nat} {place : Landing}
    (hdistance : i.jumpDistance? = some distance) :
    listing.Shows position i (renderLanding place) ↔
      landing listing.lineCount position distance = place := by
  simp only [Shows, renderEntry, hdistance, String.append_right_inj]
  exact renderLanding_injective.eq_iff

end Listing

namespace Progress

/-- Where a run goes on after a jump. -/
lemma exists_dispatch_eq_next_iff {length : Nat} {P : Nat → Prop}
    (heffect : (i.effect p.state).outcome = .ok distance) (hdistance : distance ≠ 0) :
    (∃ p', p.dispatch length text i = .next p' ∧ P p'.position) ↔
      ∃ target, jumpTarget length p.position distance = .ok target ∧ P target := by
  rw [dispatch_of_ok heffect hdistance]
  cases jumpTarget length p.position distance with
  | error error => simp
  | ok target => simp

/-- What breaks a run off at a jump. -/
lemma exists_dispatch_eq_stop_iff {length : Nat} {error : RunError}
    (heffect : (i.effect p.state).outcome = .ok distance) (hdistance : distance ≠ 0) :
    (∃ run, p.dispatch length text i = .stop run ∧ run.result = .error error) ↔
      jumpTarget length p.position distance = .error error := by
  rw [dispatch_of_ok heffect hdistance]
  cases jumpTarget length p.position distance with
  | error error' => simp [abort]
  | ok target => simp

end Progress

namespace Program

/-- For a jump at the position of a run the listing shows the place to which the next round leads. -/
structure ShowsJump (program : Program) (limit : Option Nat) (p : Progress) (i : Instruction)
    (distance : Int64) : Prop where
  /-- A line number is shown exactly if the run goes on with that line of the program. -/
  line (target : Nat) : program.listing.Shows p.position i (Listing.renderNumber target) ↔
    target < program.length ∧ ∃ p', (program.loop limit).round p = .next p' ∧ p'.position = target
  /-- The end is shown exactly if the run goes on past the last line. -/
  afterEnd : program.listing.Shows p.position i "end" ↔
    ∃ p', (program.loop limit).round p = .next p' ∧ program.length ≤ p'.position
  /-- The place before the start is shown exactly if the jump breaks the run off. -/
  beforeStart : program.listing.Shows p.position i "before start" ↔
    ∃ run, (program.loop limit).round p = .stop run ∧
      run.result = .error (.jumpBeforeStart (p.position + 1) distance)

/-- Of a jump with another distance than 0 the listing shows where it leads. -/
lemma showsJump_of_ne_zero (hdistance : i.jumpDistance? = some distance)
    (heffect : (i.effect p.state).outcome = .ok distance) (hzero : distance ≠ 0)
    (hround : (program.loop limit).round p = p.dispatch program.length text i) :
    program.ShowsJump limit p i distance := by
  have hshows : ∀ place : Landing,
      program.listing.Shows p.position i (Listing.renderLanding place) ↔
        landing program.length p.position distance = place :=
    fun place => Listing.shows_renderLanding_iff hdistance
  constructor
  · intro target
    have hnext : (∃ p', p.dispatch program.length text i = .next p' ∧ p'.position = target) ↔
        jumpTarget program.length p.position distance = .ok target := by
      rw [Progress.exists_dispatch_eq_next_iff (P := (· = target)) heffect hzero, exists_eq_right]
    rw [hround, hnext]
    exact (hshows (.line target)).trans landing_eq_line_iff
  · rw [hround, Progress.exists_dispatch_eq_next_iff heffect hzero]
    exact (hshows .afterEnd).trans landing_eq_afterEnd_iff
  · rw [hround, Progress.exists_dispatch_eq_stop_iff heffect hzero]
    exact (hshows .beforeStart).trans landing_eq_beforeStart_iff

/-- Of a jump with the distance 0 the listing shows the line of the jump itself, and the run goes on with
the next line. -/
lemma not_showsJump_zero (hdistance : i.jumpDistance? = some 0)
    (heffect : (i.effect p.state).outcome = .ok 0)
    (hposition : p.position < program.length)
    (hround : (program.loop limit).round p = p.dispatch program.length text i) :
    ¬ program.ShowsJump limit p i 0 := by
  intro h
  rw [Progress.dispatch_of_ok_zero heffect] at hround
  have hlanding := landing_zero hposition
  split at hlanding
  · have hshown : program.listing.Shows p.position i (Listing.renderLanding (.line p.position)) :=
      (Listing.shows_renderLanding_iff hdistance).2 hlanding
    obtain ⟨-, p', hnext, hsame⟩ := (h.line p.position).1 hshown
    rw [hround] at hnext
    cases hnext
    exact absurd hsame (Nat.succ_ne_self p.position)
  · have hshown : program.listing.Shows p.position i (Listing.renderLanding .beforeStart) :=
      (Listing.shows_renderLanding_iff hdistance).2 hlanding
    obtain ⟨run, hstop, -⟩ := h.beforeStart.1 hshown
    rw [hround] at hstop
    cases hstop

/-- The listing shows where a jump that is taken leads, if and only if its distance is not 0.  This is so
for every program and every entry of its listing, wherever and with whatever state a run has come to
it, as long as the step limit lets it carry the jump out. -/
theorem showsJump_iff (program : Program) (limit : Option Nat) (p : Progress) (i : Instruction)
    (distance : Int64) (hentry : (p.position, .instruction i) ∈ program.listing.entries)
    (hdistance : i.jumpDistance? = some distance) (htaken : i.Taken p.state)
    (hsteps : ∀ max, limit = some max → p.steps < max) :
    program.ShowsJump limit p i distance ↔ distance ≠ 0 := by
  obtain ⟨text, hline, hparse⟩ := mem_entries_listing_instruction_iff.1 hentry
  have hposition : p.position < program.length := (Array.getElem?_eq_some_iff.1 hline).1
  have heffect := htaken.outcome_eq hdistance
  have hround := round_loop_eq_dispatch hline hparse hsteps
  constructor
  · rintro h rfl
    exact not_showsJump_zero hdistance heffect hposition hround h
  · intro hzero
    exact showsJump_of_ne_zero hdistance heffect hzero hround

/-- The second line of this program jumps to the last one, and the listing shows it. -/
theorem showsJump_to_last_line : ∃ (program : Program) (p : Progress) (i : Instruction),
    program.lines = #["CMP M1, 0", "JZ 2", "OUTPUT M1", "EXIT"] ∧
    (program.loop (some 2)).after 1 (.start .initial #[]) = .next p ∧
    (p.position, .instruction i) ∈ program.listing.entries ∧ i.jumpDistance? = some 2 ∧
    i.Taken p.state ∧ (∀ max, some 2 = some max → p.steps < max) ∧
    program.ShowsJump (some 2) p i 2 := by
  let program : Program := ⟨#["CMP M1, 0", "JZ 2", "OUTPUT M1", "EXIT"]⟩
  let p : Progress := ⟨1, 1, #[], #[], { State.initial with lastCategory := .comparison }⟩
  let i : Instruction := .ofOperands .jz [.integer 2]
  have hafter : (program.loop (some 2)).after 1 (.start .initial #[]) = .next p := by decide +kernel
  have hentry : (p.position, .instruction i) ∈ program.listing.entries := by decide +kernel
  have htaken : i.Taken p.state := ⟨rfl, 2, by decide +kernel⟩
  have hsteps : ∀ max, some 2 = some max → p.steps < max := by
    rintro max ⟨⟩
    decide
  refine ⟨program, p, i, rfl, hafter, hentry, rfl, htaken, hsteps, ?_⟩
  exact (showsJump_iff program (some 2) p i 2 hentry rfl htaken hsteps).2 (by decide)

/-- The second line of this program seems to lead to itself, but the run goes on with the third one. -/
theorem exists_not_showsJump : ∃ (program : Program) (p : Progress) (i : Instruction),
    program.lines = #["CMP 0, 0", "JZ 0", "OUTPUT 1"] ∧
    (program.loop none).after 1 (.start .initial #[]) = .next p ∧
    (p.position, .instruction i) ∈ program.listing.entries ∧ i.jumpDistance? = some 0 ∧
    i.Taken p.state ∧ program.listing.Shows p.position i (Listing.renderNumber 1) ∧
    ((program.loop none).round p = .next ⟨2, 2, #[], #[], { p.state with lastCategory := .jump }⟩) ∧
    ¬ program.ShowsJump none p i 0 := by
  let program : Program := ⟨#["CMP 0, 0", "JZ 0", "OUTPUT 1"]⟩
  let p : Progress := ⟨1, 1, #[], #[], { State.initial with lastCategory := .comparison }⟩
  let i : Instruction := .ofOperands .jz [.integer 0]
  have hafter : (program.loop none).after 1 (.start .initial #[]) = .next p := by decide +kernel
  have hentry : (p.position, .instruction i) ∈ program.listing.entries := by decide +kernel
  have htaken : i.Taken p.state := ⟨rfl, 0, by decide +kernel⟩
  have hshown : program.listing.Shows p.position i (Listing.renderNumber 1) := by
    unfold Listing.Shows
    decide +kernel
  have hround : (program.loop none).round p =
      .next ⟨2, 2, #[], #[], { p.state with lastCategory := .jump }⟩ := by decide +kernel
  refine ⟨program, p, i, rfl, hafter, hentry, rfl, htaken, hshown, hround, ?_⟩
  intro h
  obtain ⟨-, p', hnext, hsame⟩ := (h.line 1).1 hshown
  rw [hround] at hnext
  cases hnext
  exact absurd hsame (by decide)

end Program

end StackMachine
