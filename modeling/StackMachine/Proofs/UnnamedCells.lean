import StackMachine.Proofs.Calls
import StackMachine.Proofs.Relocations

/-!
# Cells that a program does not name

A program can reach a cell of the memory only by an operand with its address.  If no statement of the
program has such an operand (`Program.Names`), then the value of the cell is of no account: from states
that agree off the cell (`State.AgreesOff`), the program runs alike, and the cell keeps the value that it
had in each of them (`Program.run_of_unnamed`).

The proof is about a single change of the cell.  To overwrite it before the run is the same as to overwrite
it wherever the run stands (`Program.after_setCell`).  That the cell keeps its value is a case of this, for
to overwrite it with its own value changes nothing at the start.
-/

namespace StackMachine

/-- The instruction has an operand with the address of the cell. -/
def Instruction.Names (i : Instruction) (cell : Fin cellCount) : Prop :=
  .memory (State.address cell) ∈ i.operands

/-- The program has a line with an instruction that names the cell. -/
def Program.Names (program : Program) (cell : Fin cellCount) : Prop :=
  ∃ text ∈ program.lines, ∃ i ∈ Statement.instruction? text, i.Names cell

instance (i : Instruction) (cell : Fin cellCount) : Decidable (i.Names cell) :=
  inferInstanceAs (Decidable (_ ∈ _))

instance (program : Program) (cell : Fin cellCount) : Decidable (program.Names cell) :=
  inferInstanceAs (Decidable (∃ text ∈ program.lines, ∃ i ∈ Statement.instruction? text, i.Names cell))

/-- The two states differ at most in the value of the cell. -/
structure State.AgreesOff (cell : Fin cellCount) (s s' : State) : Prop where
  memory : ∀ other, other ≠ cell → s'.memory.get other = s.memory.get other
  stack : s'.stack = s.stack
  lastCategory : s'.lastCategory = s.lastCategory
  comparison : s'.comparison = s.comparison

namespace State

variable {cell : Fin cellCount} {s s' : State}

/-- A state that agrees with another one off a cell comes from it by a change of the cell. -/
lemma AgreesOff.eq_setCell (h : s.AgreesOff cell s') : s' = s.setCell cell (s'.memory.get cell) := by
  have hmemory : s'.memory = (s.setCell cell (s'.memory.get cell)).memory := by
    refine memory_ext fun other => ?_
    by_cases hsame : other = cell
    · rw [hsame, get_memory_setCell]
    · rw [get_memory_setCell_of_ne hsame, h.memory other hsame]
  obtain ⟨memory, stack, category, comparison⟩ := s'
  obtain ⟨-, rfl, rfl, rfl⟩ := h
  exact congrArg (fun memory => (⟨memory, s.stack, s.lastCategory, s.comparison⟩ : State)) hmemory

end State

namespace Relocation

/-- The cell is overwritten with the value, and everything else stays as it is. -/
def overwriting (cell : Fin cellCount) (value : Int64) : Relocation where
  address := id
  memory memory := memory.set cell value cell.isLt
  base := []

variable {cell : Fin cellCount} {value : Int64}

lemma state_overwriting (s : State) : (overwriting cell value).state s = s.setCell cell value := by
  simp only [state, overwriting, State.setCell, List.append_nil]

/-- Every operand but the cell is carried over. -/
lemma carries_overwriting {operand : Operand} (h : operand ≠ .memory (State.address cell)) :
    (overwriting cell value).Carries operand := by
  cases operand with
  | integer value => exact trivial
  | memory address =>
    cases hcell : State.cell address with
    | error fault => exact .fault hcell hcell
    | ok other =>
      have hother : other ≠ cell := by
        rintro rfl
        exact h (congrArg Operand.memory (State.eq_address_of_cell hcell))
      refine .cell hcell hcell fun s written => ?_
      rw [state_overwriting, state_overwriting, State.setCell_comm hother]

end Relocation

namespace Program

variable {program : Program} {cell : Fin cellCount}

/-- A line of the program does the same after the change of a cell that the program does not name. -/
lemma imitates_setCell (hunnamed : ¬ program.Names cell) (limit : Option Nat) (value : Int64)
    {p : Progress} {text : String} (hline : program.lines[p.position]? = some text) :
    p.Imitates (·.setCell cell value) id limit text := by
  have hstate : (Relocation.overwriting cell value).state = (·.setCell cell value) :=
    funext Relocation.state_overwriting
  rw [← hstate]
  refine Relocation.imitates_self rfl ?_ fun _ _ _ => .inl rfl
  intro i hparse operand hmem
  refine Relocation.carries_overwriting ?_
  rintro rfl
  have hi : i ∈ Statement.instruction? text := by
    rw [Statement.instruction?, hparse]
    rfl
  exact hunnamed ⟨text, Array.mem_of_getElem? hline, i, hi, hmem⟩

/-- To overwrite a cell that the program does not name is the same before the run and after any number of
rounds. -/
lemma after_setCell (hunnamed : ¬ program.Names cell) (limit : Option Nat) (s : State) (value : Int64)
    (events : Array Event) (rounds : Nat) :
    (program.loop limit).after rounds (.start (s.setCell cell value) events) =
      ((program.loop limit).after rounds (.start s events)).map
        (Progress.mapState (·.setCell cell value)) (Run.mapState (·.setCell cell value)) := by
  have hcategory : ∀ s : State, (s.setCell cell value).lastCategory = s.lastCategory := fun _ => rfl
  exact after_mapState hcategory fun _ _ _ _ _ hline => imitates_setCell hunnamed limit value hline

/-- So it is for the answer. -/
lemma run_setCell (hunnamed : ¬ program.Names cell) (limit : Option Nat) (s : State) (value : Int64)
    (events : Array Event) :
    program.run limit (s.setCell cell value) events =
      (program.run limit s events).map (Run.mapState (·.setCell cell value)) := by
  have hcategory : ∀ s : State, (s.setCell cell value).lastCategory = s.lastCategory := fun _ => rfl
  exact run_mapState hcategory fun _ _ _ _ hline => imitates_setCell hunnamed limit value hline

/-- A run leaves a cell alone that the program does not name. -/
lemma get_memory_after (hunnamed : ¬ program.Names cell) (limit : Option Nat) (s : State)
    (events : Array Event) (rounds : Nat) :
    ((program.loop limit).after rounds (.start s events)).state.memory.get cell = s.memory.get cell := by
  have hsame := after_setCell hunnamed limit s (s.memory.get cell) events rounds
  rw [State.setCell_get] at hsame
  rw [hsame]
  cases (program.loop limit).after rounds (.start s events) <;>
    exact State.get_memory_setCell _ cell _

/-- A cell that no statement of a program names has no influence on a run, and the run none on it.  From two
states that agree off the cell, the program stands after any number of rounds in the same place, with the
same reports, and comes to the same result.  The states still agree off the cell: the second one is the
first one with its own value in the cell, which is the value from the start in each of them. -/
theorem run_of_unnamed {program : Program} {cell : Fin cellCount} {s s' : State}
    (hunnamed : ¬ program.Names cell) (hagrees : s.AgreesOff cell s') (limit : Option Nat)
    (events : Array Event) :
    (∀ rounds,
      (program.loop limit).after rounds (.start s' events) =
        ((program.loop limit).after rounds (.start s events)).map
          (Progress.mapState (·.setCell cell (s'.memory.get cell)))
          (Run.mapState (·.setCell cell (s'.memory.get cell))) ∧
      ((program.loop limit).after rounds (.start s events)).state.memory.get cell = s.memory.get cell) ∧
    program.run limit s' events =
      (program.run limit s events).map (Run.mapState (·.setCell cell (s'.memory.get cell))) ∧
    ∀ run, program.run limit s events = some run → run.state.memory.get cell = s.memory.get cell := by
  obtain ⟨value, rfl⟩ : ∃ value, s' = s.setCell cell value := ⟨_, hagrees.eq_setCell⟩
  rw [State.get_memory_setCell]
  refine ⟨?_, run_setCell hunnamed limit s value events, ?_⟩
  · intro rounds
    exact ⟨after_setCell hunnamed limit s value events rounds,
      get_memory_after hunnamed limit s events rounds⟩
  · intro run hrun
    obtain ⟨rounds, hends⟩ := ends_of_run_eq_some hrun
    have hkept := get_memory_after hunnamed limit s events rounds
    rwa [Loop.runFor_eq_some_iff.1 hends] at hkept

/-- The comment is no operand, and a jump and a fault on the way are the same with another value in `M3`. -/
theorem run_of_unnamed_but_in_comment :
    let program : Program := ⟨#["PUSH 4 ; not M3", "POP M1", "JPOS M1, 2", "EXIT", "OUTPUT M9"]⟩
    let cell : Fin cellCount := ⟨2, by decide⟩
    let s' : State := State.initial.setCell cell 99
    ¬ program.Names cell ∧ State.initial.AgreesOff cell s' ∧
      ∃ run, program.run none .initial #[] = some run ∧ run.result =
        .ok ⟨4, false, #[⟨5, "OUTPUT M9", .badAddress⟩]⟩ ∧ run.state.memory.get cell = 0 ∧
      program.run none s' #[] = some (run.mapState (·.setCell cell 99)) := by
  intro program cell s'
  have hunnamed : ¬ program.Names cell := by decide +kernel
  have hagrees : State.initial.AgreesOff cell s' := ⟨by decide, rfl, rfl, rfl⟩
  have hrun : program.run none .initial #[] =
      some ⟨.ok ⟨4, false, #[⟨5, "OUTPUT M9", .badAddress⟩]⟩,
        #[.failure ⟨5, "OUTPUT M9", .badAddress⟩],
        { State.initial with memory := #v[4, 0, 0, 0, 0, 0, 0, 0], lastCategory := .data }⟩ := by
    decide +kernel
  obtain ⟨-, hsame, hkept⟩ := run_of_unnamed hunnamed hagrees none #[]
  refine ⟨hunnamed, hagrees, _, hrun, rfl, hkept _ hrun, ?_⟩
  rw [hsame, hrun, Option.map_some]
  rfl

end Program

end StackMachine
