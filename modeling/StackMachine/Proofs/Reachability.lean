import Mathlib.Logic.Relation
import StackMachine.Proofs.Loops

/-!
# Where a loop can get to

`Loop.Steps` is one round from which a loop goes on, and `Loop.Reaches` is any number of them.  A loop
also reaches the state in which it is over; `Loop.after` answers with the result there and does not tell
the state.

A loop ends in a result if and only if it reaches a state in which it exits with that result
(`ends_iff_exists_exits`).  To carry a run of one loop over to another it is enough to match single
steps (`Reaches.simulate`).  A loop that differs from another one only in that some of its rounds break
it off is called cut short (`CutShort`): it goes only where the other one goes.
-/

namespace StackMachine.Loop

variable {σ τ ρ π : Type} {loop a : Loop σ ρ} {b : Loop τ π} {s s' t : σ} {r : ρ}

/-- The loop goes from one state to another in a round. -/
def Steps (loop : Loop σ ρ) (s s' : σ) : Prop :=
  loop.finished? s = none ∧ loop.round s = .next s'

/-- The loop goes from one state to another in some number of rounds. -/
def Reaches (loop : Loop σ ρ) : σ → σ → Prop :=
  Relation.ReflTransGen loop.Steps

/-- The loop does not go on from the state: it is over there, or the next round breaks it off. -/
inductive Exits (loop : Loop σ ρ) (s : σ) (r : ρ) : Prop where
  | finished (hfinished : loop.finished? s = some r)
  | stopped (hfinished : loop.finished? s = none) (hround : loop.round s = .stop r)

/-- A step does not change the result. -/
lemma Steps.ends_iff (h : loop.Steps s s') : loop.Ends s r ↔ loop.Ends s' r := by
  obtain ⟨hfinished, hround⟩ := h
  constructor
  · rintro ⟨rounds, hrun⟩
    cases rounds with
    | zero =>
      rw [runFor_zero, hfinished] at hrun
      cases hrun
    | succ n =>
      rw [runFor_succ_of_next hfinished hround] at hrun
      exact ⟨n, hrun⟩
  · rintro ⟨n, hrun⟩
    exact ⟨n + 1, by rw [runFor_succ_of_next hfinished hround, hrun]⟩

/-- Nor does any number of them. -/
lemma Reaches.ends_iff (h : loop.Reaches s t) : loop.Ends s r ↔ loop.Ends t r := by
  induction h with
  | refl => exact Iff.rfl
  | tail _ hstep ih => exact ih.trans hstep.ends_iff

/-- A loop that exits with a result ends in it. -/
lemma Exits.ends (h : loop.Exits s r) : loop.Ends s r := by
  cases h with
  | finished hfinished => exact ⟨0, hfinished⟩
  | stopped hfinished hround => exact ⟨1, runFor_succ_of_stop hfinished hround 0⟩

/-- A loop ends where it reaches a state in which it exits. -/
theorem ends_iff_exists_exits : loop.Ends s r ↔ ∃ t, loop.Reaches s t ∧ loop.Exits t r := by
  constructor
  · rintro ⟨rounds, hrun⟩
    induction rounds generalizing s with
    | zero => exact ⟨s, .refl, .finished hrun⟩
    | succ n ih =>
      cases hfinished : loop.finished? s with
      | some r' =>
        rw [runFor_of_finished hfinished] at hrun
        exact ⟨s, .refl, .finished (hfinished.trans hrun)⟩
      | none =>
        cases hround : loop.round s with
        | stop r' =>
          rw [runFor_succ_of_stop hfinished hround] at hrun
          obtain rfl := Option.some.inj hrun
          exact ⟨s, .refl, .stopped hfinished hround⟩
        | next s' =>
          rw [runFor_succ_of_next hfinished hround] at hrun
          obtain ⟨t, hreaches, hexits⟩ := ih hrun
          exact ⟨t, hreaches.head ⟨hfinished, hround⟩, hexits⟩
  · rintro ⟨t, hreaches, hexits⟩
    exact hreaches.ends_iff.2 hexits.ends

/-- A loop reaches a state in which it is not over, if and only if it stands there at some point. -/
lemma reaches_iff_exists_after (ht : loop.finished? t = none) :
    loop.Reaches s t ↔ ∃ rounds, loop.after rounds s = .next t := by
  constructor
  · intro h
    induction h using Relation.ReflTransGen.head_induction_on with
    | refl => exact ⟨0, after_zero_of_unfinished ht⟩
    | head hstep _ ih =>
      obtain ⟨rounds, hafter⟩ := ih
      exact ⟨rounds + 1, by rw [after_succ_of_next hstep.1 hstep.2, hafter]⟩
  · rintro ⟨rounds, hafter⟩
    refine (after_induction (P := fun s' => loop.Reaches s s') ?_ .refl hafter).1
    intro s₁ s₂ hreaches hfinished hround
    exact hreaches.tail ⟨hfinished, hround⟩

/-! ### Round by round -/

/-- Where a loop is under way after one more round, it has come there in a step. -/
lemma exists_steps_of_after_succ {n : Nat} (h : loop.after (n + 1) s = .next t) :
    ∃ u, loop.after n s = .next u ∧ loop.Steps u t := by
  rw [after_succ] at h
  cases hafter : loop.after n s with
  | stop r =>
    rw [hafter, Round.bind_stop] at h
    cases h
  | next u =>
    refine ⟨u, rfl, finished?_of_after_eq_next hafter, ?_⟩
    rw [hafter, Round.bind_next] at h
    cases hround : loop.round u with
    | stop r =>
      rw [hround, Round.bind_stop] at h
      cases h
    | next v =>
      rw [hround, Round.bind_next] at h
      cases hfinished : loop.finished? v with
      | some r =>
        rw [after_of_finished hfinished] at h
        cases h
      | none =>
        rw [after_zero_of_unfinished hfinished] at h
        exact h

/-- What each step keeps, while it counts one more round, holds wherever the loop is under way. -/
lemma after_counted {P : Nat → σ → Prop} (hstart : P 0 s)
    (hstep : ∀ n u t, P n u → loop.Steps u t → P (n + 1) t) {n : Nat} (h : loop.after n s = .next t) :
    P n t := by
  induction n generalizing t with
  | zero =>
    cases hfinished : loop.finished? s with
    | some r =>
      rw [after_of_finished hfinished] at h
      cases h
    | none =>
      rw [after_zero_of_unfinished hfinished] at h
      cases h
      exact hstart
  | succ n ih =>
    obtain ⟨u, hu, hsteps⟩ := exists_steps_of_after_succ h
    exact hstep n u t (ih hu) hsteps

/-- What each step makes greater is greater after more rounds. -/
lemma lt_of_after_lt {f : σ → Nat} (hstep : ∀ u t, loop.Steps u t → f u < f t) {m n : Nat} {u : σ}
    (hmn : m < n) (hm : loop.after m s = .next u) (hn : loop.after n s = .next t) : f u < f t := by
  induction hmn generalizing t with
  | refl =>
    obtain ⟨v, hv, hsteps⟩ := exists_steps_of_after_succ hn
    obtain rfl : u = v := Round.next.inj (hm.symm.trans hv)
    exact hstep u t hsteps
  | step _ ih =>
    obtain ⟨v, hv, hsteps⟩ := exists_steps_of_after_succ hn
    exact Nat.lt_trans (ih hv) (hstep v t hsteps)

/-- The loop enters its body exactly as many times as given, and ends in the result. -/
def EndsAfter (loop : Loop σ ρ) (rounds : Nat) (s : σ) (r : ρ) : Prop :=
  (∀ n < rounds, ∃ t, loop.after n s = .next t) ∧ loop.after rounds s = .stop r

/-- A loop that ends within some number of rounds enters its body so many times or fewer. -/
lemma exists_endsAfter {bound : Nat} (h : loop.runFor bound s = some r) :
    ∃ rounds ≤ bound, loop.EndsAfter rounds s r := by
  induction bound generalizing s with
  | zero => exact ⟨0, Nat.le_refl 0, fun n hn => absurd hn (Nat.not_lt_zero n), runFor_eq_some_iff.1 h⟩
  | succ bound ih =>
    cases hfinished : loop.finished? s with
    | some r' =>
      rw [runFor_of_finished hfinished] at h
      refine ⟨0, Nat.zero_le _, fun n hn => absurd hn (Nat.not_lt_zero n), ?_⟩
      rw [after_of_finished hfinished, Option.some.inj h]
    | none =>
      have hunder : loop.after 0 s = .next s := after_zero_of_unfinished hfinished
      cases hround : loop.round s with
      | stop r' =>
        rw [runFor_succ_of_stop hfinished hround] at h
        refine ⟨1, Nat.le_add_left 1 bound, ?_, ?_⟩
        · intro n hn
          obtain rfl : n = 0 := Nat.lt_one_iff.1 hn
          exact ⟨s, hunder⟩
        · rw [after_succ_of_stop hfinished hround, Option.some.inj h]
      | next s' =>
        rw [runFor_succ_of_next hfinished hround] at h
        obtain ⟨rounds, hle, hnext, hstop⟩ := ih h
        refine ⟨rounds + 1, Nat.succ_le_succ hle, ?_, ?_⟩
        · intro n hn
          cases n with
          | zero => exact ⟨s, hunder⟩
          | succ n =>
            rw [after_succ_of_next hfinished hround]
            exact hnext n (Nat.lt_of_succ_lt_succ hn)
        · rw [after_succ_of_next hfinished hround, hstop]

/-- A loop that is not under way any more after some number of rounds ends within them. -/
lemma exists_runFor_of_forall_lt {bound : Nat} (h : ∀ n t, loop.after n s = .next t → n < bound) :
    ∃ r, loop.runFor bound s = some r := by
  cases hafter : loop.after bound s with
  | next t => exact absurd (h bound t hafter) (Nat.lt_irrefl bound)
  | stop r => exact ⟨r, runFor_eq_some_iff.2 hafter⟩

/-! ### Steps matched -/

/-- Where the steps of a loop can be matched by those of another one, so can all that it reaches. -/
lemma Reaches.simulate {R : σ → τ → Prop} {u : τ}
    (hstep : ∀ s u s', R s u → a.Steps s s' → ∃ u', b.Steps u u' ∧ R s' u') (hR : R s u)
    (h : a.Reaches s t) : ∃ u', b.Reaches u u' ∧ R t u' := by
  induction h with
  | refl => exact ⟨u, .refl, hR⟩
  | tail _ hs ih =>
    obtain ⟨v, hreaches, hRv⟩ := ih
    obtain ⟨u', hu, hRu⟩ := hstep _ v _ hRv hs
    exact ⟨u', hreaches.tail hu, hRu⟩

/-! ### Loops cut short -/

/-- The loop `a` is the loop `b`, but some of its rounds break it off, with results of a certain kind. -/
structure CutShort (a b : Loop σ ρ) (Cut : ρ → Prop) : Prop where
  /-- They are over in the same states. -/
  finished (s : σ) : a.finished? s = b.finished? s
  /-- They have the same rounds, apart from those that cut `a` short. -/
  round (s : σ) : a.round s = b.round s ∨ ∃ r, a.round s = .stop r ∧ Cut r

namespace CutShort

variable {c : Loop σ ρ} {Cut : ρ → Prop}

/-- A loop that is not cut short in a round goes through the round of the other loop. -/
lemma round_eq (h : CutShort a c Cut) (hnext : ∀ r, a.round s = .stop r → ¬ Cut r) :
    a.round s = c.round s := by
  obtain heq | ⟨r, hstop, hcut⟩ := h.round s
  · exact heq
  · exact absurd hcut (hnext r hstop)

/-- A loop that is cut short only goes where the other one goes. -/
lemma reaches (h : CutShort a c Cut) (hreaches : a.Reaches s t) : c.Reaches s t := by
  refine Relation.ReflTransGen.mono ?_ _ _ hreaches
  rintro s₁ s₂ ⟨hfinished, hround⟩
  have heq : a.round s₁ = c.round s₁ := h.round_eq (by simp [hround])
  exact ⟨by rw [← h.finished, hfinished], by rw [← heq, hround]⟩

/-- A result that does not come from cutting the loop short is the result of the other loop. -/
lemma runFor_eq_some (h : CutShort a c Cut) (hr : ¬ Cut r) {rounds : Nat}
    (hrun : a.runFor rounds s = some r) : c.runFor rounds s = some r := by
  induction rounds generalizing s with
  | zero =>
    rw [runFor_zero] at hrun ⊢
    rw [← h.finished, hrun]
  | succ n ih =>
    cases hfinished : a.finished? s with
    | some r' =>
      rw [runFor_of_finished hfinished] at hrun
      rw [runFor_of_finished ((h.finished s).symm.trans hfinished), hrun]
    | none =>
      have hfinished' : c.finished? s = none := (h.finished s).symm.trans hfinished
      cases hround : a.round s with
      | next s' =>
        have heq : a.round s = c.round s := h.round_eq (by simp [hround])
        rw [runFor_succ_of_next hfinished hround] at hrun
        rw [runFor_succ_of_next hfinished' (heq ▸ hround)]
        exact ih hrun
      | stop r' =>
        rw [runFor_succ_of_stop hfinished hround] at hrun
        obtain rfl : r' = r := Option.some.inj hrun
        have heq : a.round s = c.round s := by
          refine h.round_eq fun r'' hstop => ?_
          obtain rfl : r' = r'' := Round.stop.inj (hround.symm.trans hstop)
          exact hr
        exact runFor_succ_of_stop hfinished' (heq ▸ hround) n

end CutShort

end StackMachine.Loop
