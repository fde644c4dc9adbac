import Mathlib.Tactic.Common
import StackMachine.Loop

/-!
# Loops followed round by round

`Loop.runFor` answers with the result of a loop only.  `Loop.after` also tells where a loop stands
while it is still under way, so it accounts for loops that never end.

Two loops are compared by `Loop.Matches`: a relation between their states and a relation between their
results, kept by every round.  Loops that match stay in step for any number of rounds
(`Matches.after`).
-/

namespace StackMachine

variable {σ τ ρ π : Type}

namespace Round

/-- A round with its state, if the loop goes on, replaced by an image of it. -/
def mapState (f : σ → τ) : Round σ ρ → Round τ ρ
  | .next s => .next (f s)
  | .stop r => .stop r

/-- A round with its state or its result replaced by an image of it. -/
def map (f : σ → τ) (g : ρ → π) : Round σ ρ → Round τ π
  | .next s => .next (f s)
  | .stop r => .stop (g r)

/-- Goes on from the state, unless the loop is broken off. -/
def bind (round : Round σ ρ) (f : σ → Round τ ρ) : Round τ ρ :=
  match round with
  | .next s => f s
  | .stop r => .stop r

@[simp] lemma bind_next (s : σ) (f : σ → Round τ ρ) : bind (.next s) f = f s := rfl

@[simp] lemma bind_stop (r : ρ) (f : σ → Round τ ρ) : bind (.stop r) f = .stop r := rfl

/-- The result, if the loop is broken off. -/
def result? : Round σ ρ → Option ρ
  | .next _ => none
  | .stop r => some r

/-- Two rounds end alike: either both loops go on, in related states, or both are broken off, with
related results. -/
inductive Related (R : σ → τ → Prop) (Q : ρ → π → Prop) : Round σ ρ → Round τ π → Prop where
  | next {s : σ} {t : τ} (h : R s t) : Related R Q (.next s) (.next t)
  | stop {r : ρ} {q : π} (h : Q r q) : Related R Q (.stop r) (.stop q)

lemma result?_map (f : σ → τ) (g : ρ → π) (round : Round σ ρ) :
    (round.map f g).result? = round.result?.map g := by
  cases round <;> rfl

end Round

namespace Loop

/-! ### Where a loop stands -/

/-- Where the loop stands after the given number of rounds: in a state from which it goes on, or at
its result. -/
def after (loop : Loop σ ρ) : Nat → σ → Round σ ρ
  | 0, s =>
    match loop.finished? s with
    | some r => .stop r
    | none => .next s
  | rounds + 1, s =>
    match loop.finished? s with
    | some r => .stop r
    | none =>
      match loop.round s with
      | .next s' => loop.after rounds s'
      | .stop r => .stop r

/-- The loop ends in the given result, after however many rounds. -/
def Ends (loop : Loop σ ρ) (s : σ) (r : ρ) : Prop :=
  ∃ rounds, loop.runFor rounds s = some r

variable {loop : Loop σ ρ} {s s' : σ} {r : ρ}

lemma after_zero_of_unfinished (h : loop.finished? s = none) : loop.after 0 s = .next s := by
  simp [after, h]

/-- A loop that is over stays at its result. -/
lemma after_of_finished (h : loop.finished? s = some r) (rounds : Nat) :
    loop.after rounds s = .stop r := by
  cases rounds <;> simp [after, h]

lemma after_succ_of_next (h : loop.finished? s = none) (hr : loop.round s = .next s') (rounds : Nat) :
    loop.after (rounds + 1) s = loop.after rounds s' := by
  simp [after, h, hr]

lemma after_succ_of_stop (h : loop.finished? s = none) (hr : loop.round s = .stop r) (rounds : Nat) :
    loop.after (rounds + 1) s = .stop r := by
  simp [after, h, hr]

/-- The rounds that are allowed to a loop give the result that it has reached by then. -/
lemma runFor_eq_result? (rounds : Nat) (s : σ) : loop.runFor rounds s = (loop.after rounds s).result? := by
  induction rounds generalizing s with
  | zero =>
    cases h : loop.finished? s with
    | none => rw [runFor_zero, h, after_zero_of_unfinished h, Round.result?]
    | some r => rw [runFor_zero, h, after_of_finished h, Round.result?]
  | succ n ih =>
    cases h : loop.finished? s with
    | some r => rw [runFor_of_finished h, after_of_finished h, Round.result?]
    | none =>
      cases hr : loop.round s with
      | next s' => rw [runFor_succ_of_next h hr, after_succ_of_next h hr, ih]
      | stop r => rw [runFor_succ_of_stop h hr, after_succ_of_stop h hr, Round.result?]

lemma runFor_eq_some_iff {rounds : Nat} : loop.runFor rounds s = some r ↔ loop.after rounds s = .stop r := by
  rw [runFor_eq_result?]
  cases loop.after rounds s with
  | next _ => simp [Round.result?]
  | stop _ => simp [Round.result?]

lemma ends_of_runFor {rounds : Nat} (h : loop.runFor rounds s = some r) : loop.Ends s r :=
  ⟨rounds, h⟩

/-- A loop that ends within some number of rounds has no other result. -/
lemma runFor_eq_some_iff_ends {rounds : Nat} {r₀ : ρ} (h : loop.runFor rounds s = some r₀) :
    loop.runFor rounds s = some r ↔ loop.Ends s r := by
  refine ⟨ends_of_runFor, ?_⟩
  rintro ⟨m, hm⟩
  have hr : loop.runFor (max rounds m) s = some r := runFor_mono (Nat.le_max_right rounds m) hm
  have hr₀ : loop.runFor (max rounds m) s = some r₀ := runFor_mono (Nat.le_max_left rounds m) h
  rw [h, ← hr₀, hr]

/-- A loop has one result at most. -/
lemma Ends.unique {r₀ : ρ} (h : loop.Ends s r) (h₀ : loop.Ends s r₀) : r = r₀ := by
  obtain ⟨rounds, hrun⟩ := h
  have hrun₀ := (runFor_eq_some_iff_ends hrun).2 h₀
  exact Option.some.inj (hrun.symm.trans hrun₀)

/-- A loop stands in states before it stands at its result. -/
lemma lt_of_after {m n : Nat} (hm : loop.after m s = .next s') (hn : loop.after n s = .stop r) :
    m < n := by
  by_contra hle
  have hover := runFor_mono (Nat.not_lt.1 hle) (runFor_eq_some_iff.2 hn)
  rw [runFor_eq_some_iff, hm] at hover
  cases hover

/-! ### What holds along a loop -/

/-- A property that every round keeps holds wherever the loop stands, and the loop is not over there. -/
lemma after_induction {P : σ → Prop}
    (hround : ∀ s s', P s → loop.finished? s = none → loop.round s = .next s' → P s')
    (hs : P s) {rounds : Nat} (h : loop.after rounds s = .next s') :
    P s' ∧ loop.finished? s' = none := by
  induction rounds generalizing s with
  | zero =>
    cases hf : loop.finished? s with
    | some r => simp [after_of_finished hf] at h
    | none =>
      rw [after_zero_of_unfinished hf] at h
      cases h
      exact ⟨hs, hf⟩
  | succ n ih =>
    cases hf : loop.finished? s with
    | some r => simp [after_of_finished hf] at h
    | none =>
      cases hr : loop.round s with
      | stop r => simp [after_succ_of_stop hf hr] at h
      | next t =>
        rw [after_succ_of_next hf hr] at h
        exact ih (hround s t hs hf hr) h

/-- One more round is carried out where the loop goes on, and then the loop may be over. -/
lemma after_succ (rounds : Nat) (s : σ) :
    loop.after (rounds + 1) s =
      (loop.after rounds s).bind fun s' => (loop.round s').bind (loop.after 0) := by
  induction rounds generalizing s with
  | zero =>
    cases hf : loop.finished? s with
    | some r => rw [after_of_finished hf, after_of_finished hf, Round.bind_stop]
    | none =>
      rw [after_zero_of_unfinished hf, Round.bind_next]
      cases hr : loop.round s with
      | stop r => rw [after_succ_of_stop hf hr, Round.bind_stop]
      | next t => rw [after_succ_of_next hf hr, Round.bind_next]
  | succ n ih =>
    cases hf : loop.finished? s with
    | some r => rw [after_of_finished hf, after_of_finished hf, Round.bind_stop]
    | none =>
      cases hr : loop.round s with
      | stop r => rw [after_succ_of_stop hf hr, after_succ_of_stop hf hr, Round.bind_stop]
      | next t => rw [after_succ_of_next hf hr, after_succ_of_next hf hr, ih]

/-- What holds at the start, at the end of a loop that is over, and after every round holds wherever
the loop stands.  It may depend on the number of rounds. -/
lemma after_rounds_invariant {J : Nat → Round σ ρ → Prop} (hstart : J 0 (.next s))
    (hfinished : ∀ n s' r, J n (.next s') → loop.finished? s' = some r → J n (.stop r))
    (hround : ∀ n s', loop.after n s = .next s' → J n (.next s') → J (n + 1) (loop.round s'))
    (hstop : ∀ n r, loop.after n s = .stop r → J n (.stop r) → J (n + 1) (.stop r))
    (rounds : Nat) : J rounds (loop.after rounds s) := by
  have hzero : ∀ n s', J n (.next s') → J n (loop.after 0 s') := by
    intro n s' h
    cases hf : loop.finished? s' with
    | some r =>
      rw [after_of_finished hf]
      exact hfinished n s' r h hf
    | none =>
      rw [after_zero_of_unfinished hf]
      exact h
  induction rounds with
  | zero => exact hzero 0 s hstart
  | succ n ih =>
    rw [after_succ]
    cases hafter : loop.after n s with
    | stop r =>
      rw [hafter] at ih
      exact hstop n r hafter ih
    | next s' =>
      rw [hafter] at ih
      have hnext := hround n s' hafter ih
      rw [Round.bind_next]
      cases hr : loop.round s' with
      | stop r =>
        rw [hr] at hnext
        exact hnext
      | next t =>
        rw [hr] at hnext
        exact hzero (n + 1) t hnext

/-- The same for what does not depend on the number of rounds. -/
lemma after_invariant {J : Round σ ρ → Prop} (hstart : J (.next s))
    (hfinished : ∀ s' r, J (.next s') → loop.finished? s' = some r → J (.stop r))
    (hround : ∀ n s', loop.after n s = .next s' → J (.next s') → J (loop.round s')) (rounds : Nat) :
    J (loop.after rounds s) :=
  after_rounds_invariant (J := fun _ => J) hstart (fun _ => hfinished) hround (fun _ _ _ h => h) rounds

/-- Where a loop goes on, it is not over. -/
lemma finished?_of_after_eq_next {rounds : Nat} (h : loop.after rounds s = .next s') :
    loop.finished? s' = none :=
  (after_induction (P := fun _ => True) (fun _ _ _ _ _ => trivial) trivial h).2

/-! ### Loops in step -/

/-- Loops that are over in the same states and have the same rounds elsewhere stand alike. -/
lemma after_congr {a b : Loop σ ρ} (hfinished : ∀ s, a.finished? s = b.finished? s)
    (hround : ∀ s, b.finished? s = none → a.round s = b.round s) (rounds : Nat) (s : σ) :
    a.after rounds s = b.after rounds s := by
  induction rounds generalizing s with
  | zero => simp only [after, hfinished]
  | succ n ih =>
    simp only [after, hfinished]
    cases hb : b.finished? s with
    | some r => rfl
    | none => simp only [hround s hb, ih]

/-- Two loops match under a relation between their states and one between their results: from related
states both are over, with related results, or both go through a round that ends alike. -/
structure Matches (a : Loop σ ρ) (b : Loop τ π) (R : σ → τ → Prop) (Q : ρ → π → Prop) : Prop where
  /-- They are over in related states only together. -/
  finished {s : σ} {t : τ} (h : R s t) : Option.Rel Q (a.finished? s) (b.finished? t)
  /-- Their rounds end alike. -/
  round {s : σ} {t : τ} (h : R s t) (ha : a.finished? s = none) (hb : b.finished? t = none) :
    (a.round s).Related R Q (b.round t)

namespace Matches

variable {a : Loop σ ρ} {b : Loop τ π} {R : σ → τ → Prop} {Q : ρ → π → Prop} {t : τ}

/-- In related states both loops go on, or both are over with related results. -/
lemma finished_cases (h : Matches a b R Q) (hst : R s t) :
    (a.finished? s = none ∧ b.finished? t = none) ∨
      ∃ r q, a.finished? s = some r ∧ b.finished? t = some q ∧ Q r q := by
  have hrel := h.finished hst
  cases ha : a.finished? s with
  | none =>
    rw [ha] at hrel
    cases hb : b.finished? t with
    | none => exact .inl ⟨rfl, rfl⟩
    | some q => rw [hb] at hrel; cases hrel
  | some r =>
    rw [ha] at hrel
    cases hb : b.finished? t with
    | none => rw [hb] at hrel; cases hrel
    | some q =>
      rw [hb] at hrel
      cases hrel with
      | some hq => exact .inr ⟨r, q, rfl, rfl, hq⟩

/-- Loops that match stand alike after every number of rounds. -/
theorem after (h : Matches a b R Q) (hst : R s t) (rounds : Nat) :
    (a.after rounds s).Related R Q (b.after rounds t) := by
  induction rounds generalizing s t with
  | zero =>
    obtain ⟨ha, hb⟩ | ⟨r, q, ha, hb, hq⟩ := h.finished_cases hst
    · rw [after_zero_of_unfinished ha, after_zero_of_unfinished hb]
      exact .next hst
    · rw [after_of_finished ha, after_of_finished hb]
      exact .stop hq
  | succ n ih =>
    obtain ⟨ha, hb⟩ | ⟨r, q, ha, hb, hq⟩ := h.finished_cases hst
    · have hround := h.round hst ha hb
      cases hs : a.round s with
      | next s' =>
        cases ht : b.round t with
        | next t' =>
          rw [hs, ht] at hround
          rw [after_succ_of_next ha hs, after_succ_of_next hb ht]
          cases hround with
          | next hst' => exact ih hst'
        | stop q => rw [hs, ht] at hround; cases hround
      | stop r =>
        cases ht : b.round t with
        | next t' => rw [hs, ht] at hround; cases hround
        | stop q =>
          rw [hs, ht] at hround
          rw [after_succ_of_stop ha hs, after_succ_of_stop hb ht]
          cases hround with
          | stop hq => exact .stop hq
    · rw [after_of_finished ha, after_of_finished hb]
      exact .stop hq

end Matches

section Images

variable {a : Loop σ ρ} {b : Loop τ π} {f : σ → τ} {g : ρ → π}

/-- A loop that is over in the images of states where another loop is over does as well without a round. -/
lemma after_zero_map (hfinished : ∀ s, b.finished? (f s) = (a.finished? s).map g) (s : σ) :
    b.after 0 (f s) = (a.after 0 s).map f g := by
  have hb := hfinished s
  cases ha : a.finished? s with
  | none =>
    rw [ha, Option.map_none] at hb
    rw [after_zero_of_unfinished ha, after_zero_of_unfinished hb, Round.map]
  | some r =>
    rw [ha, Option.map_some] at hb
    rw [after_of_finished ha, after_of_finished hb, Round.map]

/-- A loop whose rounds are the images of the rounds of another loop stands at the images of its states.
Only the rounds count that the other loop goes through until then. -/
lemma after_map_of_lt (hfinished : ∀ s, b.finished? (f s) = (a.finished? s).map g) {s : σ}
    {rounds : Nat}
    (hround : ∀ n < rounds, ∀ s', a.after n s = .next s' → b.round (f s') = (a.round s').map f g) :
    b.after rounds (f s) = (a.after rounds s).map f g := by
  induction rounds with
  | zero => exact after_zero_map hfinished s
  | succ n ih =>
    rw [after_succ, after_succ, ih fun m hm => hround m (Nat.lt_succ_of_lt hm)]
    cases hs : a.after n s with
    | stop r => rfl
    | next s' =>
      simp only [Round.map, Round.bind_next, hround n (Nat.lt_succ_self n) s' hs]
      cases a.round s' with
      | stop r => rfl
      | next t => exact after_zero_map hfinished t

/-- A loop that goes through the images of the states of another loop stands at their images. -/
lemma after_map (hfinished : ∀ s, b.finished? (f s) = (a.finished? s).map g)
    (hround : ∀ s, b.round (f s) = (a.round s).map f g) (rounds : Nat) (s : σ) :
    b.after rounds (f s) = (a.after rounds s).map f g :=
  after_map_of_lt hfinished fun _ _ s' _ => hround s'

/-- Its results are the images of the other ones. -/
lemma runFor_map (hfinished : ∀ s, b.finished? (f s) = (a.finished? s).map g)
    (hround : ∀ s, b.round (f s) = (a.round s).map f g) (rounds : Nat) (s : σ) :
    b.runFor rounds (f s) = (a.runFor rounds s).map g := by
  rw [runFor_eq_result?, runFor_eq_result?, after_map hfinished hround, Round.result?_map]

end Images

end Loop

end StackMachine
