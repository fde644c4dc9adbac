/-!
# Loops

A `Loop` goes from state to state, round by round, until its condition fails or a round breaks it off.
`Loop.runFor` allows it a number of rounds and answers `none` if they do not suffice. A state in which
the condition fails costs no round, so the number bounds how often the body is entered.
-/

namespace StackMachine

/-- How one round of a loop ends. -/
inductive Round (σ ρ : Type) where
  /-- The loop goes on in another state. -/
  | next (state : σ)
  /-- The loop is broken off. -/
  | stop (result : ρ)

/-- A loop over states of type `σ` with a result of type `ρ`. -/
structure Loop (σ ρ : Type) where
  /-- The result, if the loop is over in the given state. -/
  finished? : σ → Option ρ
  /-- The body of the loop. -/
  round : σ → Round σ ρ

namespace Loop

variable {σ ρ : Type}

/-- The result of the loop, if it ends within the given number of rounds. -/
def runFor (loop : Loop σ ρ) : Nat → σ → Option ρ
  | 0, s => loop.finished? s
  | rounds + 1, s =>
    match loop.finished? s with
    | some result => some result
    | none =>
      match loop.round s with
      | .next s' => loop.runFor rounds s'
      | .stop result => some result

theorem runFor_zero (loop : Loop σ ρ) (s : σ) : loop.runFor 0 s = loop.finished? s := rfl

/-- A loop that is over takes no round. -/
theorem runFor_of_finished {loop : Loop σ ρ} {s : σ} {result : ρ} (h : loop.finished? s = some result)
    (rounds : Nat) : loop.runFor rounds s = some result := by
  cases rounds with
  | zero => exact h
  | succ n => simp [runFor, h]

theorem runFor_succ_of_next {loop : Loop σ ρ} {s s' : σ} (h : loop.finished? s = none)
    (hr : loop.round s = .next s') (rounds : Nat) :
    loop.runFor (rounds + 1) s = loop.runFor rounds s' := by
  simp [runFor, h, hr]

theorem runFor_succ_of_stop {loop : Loop σ ρ} {s : σ} {result : ρ} (h : loop.finished? s = none)
    (hr : loop.round s = .stop result) (rounds : Nat) :
    loop.runFor (rounds + 1) s = some result := by
  simp [runFor, h, hr]

/-- More rounds never change a result. -/
theorem runFor_mono {loop : Loop σ ρ} {m n : Nat} (hmn : m ≤ n) {s : σ} {result : ρ}
    (h : loop.runFor m s = some result) : loop.runFor n s = some result := by
  induction m generalizing n s with
  | zero => exact runFor_of_finished h n
  | succ m ih =>
    obtain ⟨k, rfl⟩ : ∃ k, n = k + 1 := ⟨n - 1, by omega⟩
    cases hfinished : loop.finished? s with
    | some r =>
      rw [runFor_of_finished hfinished] at h ⊢
      exact h
    | none =>
      cases hround : loop.round s with
      | next s' =>
        rw [runFor_succ_of_next hfinished hround] at h ⊢
        exact ih (by omega) h
      | stop r =>
        rw [runFor_succ_of_stop hfinished hround] at h ⊢
        exact h

end Loop

end StackMachine
