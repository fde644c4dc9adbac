import Mathlib.Logic.Equiv.Basic
import StackMachine.Proofs.Canonical
import StackMachine.Proofs.Relocations

/-!
# Renamings of the cells

No cell of the memory differs from the others.  A permutation of the cells moves the values in the memory
(`State.permute`) and renames the cells in the statements of a program (`Program.rename`).  An address
that belongs to no cell stays as it is, and so does a line that cannot be read.

The renamed program does on the permuted memory what the program does (`Program.run_rename`): its run is
an image of the other run, with the values of the cells moved and the new texts in its reports.
-/

namespace StackMachine

variable (σ : Equiv.Perm (Fin cellCount))

/-- The state with the value of every cell moved to the new place of the cell. -/
def State.permute (s : State) : State :=
  { s with memory := Vector.ofFn fun cell => s.memory.get (σ.symm cell) }

/-- The values of the cells are moved, and nothing else. -/
def Relocation.permutation : Relocation where
  address address :=
    match State.cell address with
    | .ok cell => State.address (σ cell)
    | .error _ => address
  memory memory := Vector.ofFn fun cell => memory.get (σ.symm cell)
  base := []

/-- The text of a line with its cells renamed: the canonical statement for its instruction with the new
names, if there is an instruction that can be read. -/
def Statement.rename (text : String) : String :=
  match parse text with
  | .ok (some i) => ((Relocation.permutation σ).instruction i).render
  | _ => text

/-- The program with its cells renamed. -/
def Program.rename (program : Program) : Program :=
  program.mapText (Statement.rename σ)

/-- The run of the renamed program, from the permuted state. -/
def Run.rename (run : Run) : Run :=
  run.image (·.permute σ) (Statement.rename σ)

/-- The same for a run under way. -/
def Progress.rename (p : Progress) : Progress :=
  p.image (·.permute σ) (Statement.rename σ)

variable {σ}

lemma State.get_memory_permute (s : State) (cell : Fin cellCount) :
    (s.permute σ).memory.get (σ cell) = s.memory.get cell := by
  have hcell : (s.permute σ).memory.get (σ cell) = s.memory.get (σ.symm (σ cell)) :=
    Vector.getElem_ofFn _
  rw [hcell, Equiv.symm_apply_apply]

/-- A value that is written into a cell is moved to the new place of the cell. -/
lemma State.permute_setCell (s : State) (cell : Fin cellCount) (value : Int64) :
    (s.setCell cell value).permute σ = (s.permute σ).setCell (σ cell) value := by
  have hmemory : ((s.setCell cell value).permute σ).memory =
      ((s.permute σ).setCell (σ cell) value).memory := by
    refine memory_ext fun place => ?_
    obtain ⟨other, rfl⟩ := σ.surjective place
    rw [get_memory_permute]
    by_cases hsame : other = cell
    · rw [hsame, get_memory_setCell, get_memory_setCell]
    · rw [get_memory_setCell_of_ne hsame, get_memory_setCell_of_ne (σ.injective.ne hsame),
        get_memory_permute]
  exact congrArg (fun memory => ({ s with memory := memory } : State)) hmemory

namespace Relocation

lemma state_permutation (s : State) : (permutation σ).state s = s.permute σ := by
  simp only [state, permutation, State.permute, List.append_nil]

lemma address_permutation_of_ok {address : Int64} {cell : Fin cellCount}
    (h : State.cell address = .ok cell) : (permutation σ).address address = State.address (σ cell) := by
  simp only [permutation, h]

lemma address_permutation_of_error {address : Int64} {fault : Fault}
    (h : State.cell address = .error fault) : (permutation σ).address address = address := by
  simp only [permutation, h]

/-- Every operand is carried over. -/
lemma carries_permutation (operand : Operand) : (permutation σ).Carries operand := by
  cases operand with
  | integer value => exact trivial
  | memory address =>
    cases hcell : State.cell address with
    | error fault => exact .fault hcell (by rw [address_permutation_of_error hcell, hcell])
    | ok cell =>
      have hcell' : State.cell ((permutation σ).address address) = .ok (σ cell) := by
        rw [address_permutation_of_ok hcell, State.cell_address]
      refine .cell hcell hcell' fun s value => ?_
      rw [state_permutation, state_permutation, State.permute_setCell]

/-- The new name of a cell can be read. -/
lemma readable_operand_permutation {operand : Operand} (h : operand.Readable) :
    ((permutation σ).operand operand).Readable := by
  have hcells : ∀ cell, (Operand.memory (State.address cell)).Readable := by decide
  cases operand with
  | integer value => exact trivial
  | memory address =>
    rw [operand_memory]
    cases hcell : State.cell address with
    | error fault => rwa [address_permutation_of_error hcell]
    | ok cell =>
      rw [address_permutation_of_ok hcell]
      exact hcells (σ cell)

end Relocation

/-- The renamed line holds the renamed instruction, or no instruction as before. -/
lemma Statement.parse_rename (text : String) :
    parse (rename σ text) = (parse text).map (Option.map (Relocation.permutation σ).instruction) := by
  rcases hread : parse text with fault | _ | i
  · simp only [rename, hread, Except.map]
  · simp only [rename, hread, Except.map, Option.map_none]
  · have hreadable : ((Relocation.permutation σ).instruction i).Readable := by
      intro renamed hrenamed
      obtain ⟨operand, hmem, rfl⟩ := List.mem_map.1 hrenamed
      exact Relocation.readable_operand_permutation (readable_of_parse_eq_ok hread operand hmem)
    simp only [rename, hread, Except.map, Option.map_some]
    exact parse_render_of_readable hreadable

/-- So the renamed line does the same in the permuted state. -/
lemma Progress.imitates_rename (p : Progress) (limit : Option Nat) (text : String) :
    p.Imitates (·.permute σ) (Statement.rename σ) limit text := by
  have hstate : (Relocation.permutation σ).state = (·.permute σ) :=
    funext Relocation.state_permutation
  rw [← hstate]
  refine Relocation.imitates (Statement.parse_rename text) ?_ ?_
  · intro i _ operand _
    exact Relocation.carries_permutation operand
  · intro i _ _
    exact .inl rfl

namespace Program

/-- The cells are interchangeable.  With all cells renamed by a permutation and their values moved
accordingly, a program stands after any number of rounds where the renaming of its run stands, and its
answer is the renamed answer.  To rename a run changes nothing in the account that it gives, nor in its
stack and its flags, and every cell has its value in its new place. -/
theorem run_rename (program : Program) (limit : Option Nat) (σ : Equiv.Perm (Fin cellCount))
    (s : State) (events : Array Event) :
    (∀ rounds, ((program.rename σ).loop limit).after rounds
        (.start (s.permute σ) (events.map (Event.mapText (Statement.rename σ)))) =
      ((program.loop limit).after rounds (.start s events)).map (Progress.rename σ) (Run.rename σ)) ∧
    (program.rename σ).run limit (s.permute σ) (events.map (Event.mapText (Statement.rename σ))) =
      (program.run limit s events).map (Run.rename σ) ∧
    ∀ run : Run,
      run.SameAccount (run.rename σ) ∧
      (run.rename σ).state.stack = run.state.stack ∧
      (run.rename σ).state.comparison = run.state.comparison ∧
      (run.rename σ).state.lastCategory = run.state.lastCategory ∧
      ∀ cell, (run.rename σ).state.memory.get (σ cell) = run.state.memory.get cell := by
  have hcategory : ∀ s : State, (s.permute σ).lastCategory = s.lastCategory := fun _ => rfl
  refine ⟨?_, ?_, ?_⟩
  · intro rounds
    exact after_image hcategory fun n _ p _ text _ => p.imitates_rename limit text
  · exact run_image hcategory fun n p _ text _ => p.imitates_rename limit text
  · intro run
    exact ⟨run.sameAccount_image _ _, rfl, rfl, rfl, run.state.get_memory_permute⟩

/-- With the first and the last cell exchanged, `M1` and `M8` change places, `M9` is as faulty as before and
a line that cannot be read is kept. -/
example :
    let σ : Equiv.Perm (Fin cellCount) := Equiv.swap ⟨0, by decide⟩ ⟨7, by decide⟩
    (rename σ ⟨#["mov m1, M2 ; first", "POP M8", "PUSH M9", "MOV M1 M2"]⟩).lines =
      #["MOV M8, M2", "POP M1", "PUSH M9", "MOV M1 M2"] := by decide +kernel

end Program

end StackMachine
