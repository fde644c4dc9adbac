import Mathlib.Tactic.Ring
import StackMachine.Jump

/-!
# Where jumps lead

`jumpTarget` and `landing` add a distance to a position in 64-bit words.  For every position that is a
word they agree with the sum of integers (`jumpTarget_of_lt`), also where the sum is no word.

The two computations are written apart from each other.  `landing_eq_ofTarget` says that a listing
shows the place at which a run goes on, for all positions and all distances.
-/

namespace StackMachine

open Text.Decimal (word? word?_eq_some_iff)

variable {length position : Nat} {distance : Int64}

/-- The checked sum of a position and a distance is their exact sum. -/
lemma checkedSum?_word?_eq_some_iff {target : Int64} :
    (word? (position : Int)).bind (checkedSum? · distance) = some target ↔
      position < 2 ^ 63 ∧ target.toInt = (position : Int) + distance.toInt := by
  rw [Option.bind_eq_some_iff]
  constructor
  · rintro ⟨w, hw, htarget⟩
    rw [word?_eq_some_iff] at hw
    rw [checkedSum?_eq_some_iff] at htarget
    have hhi := w.toInt_lt
    exact ⟨by omega, by omega⟩
  · rintro ⟨hposition, htarget⟩
    have hval : (Int64.ofInt position).toInt = (position : Int) :=
      Int64.toInt_ofInt_of_le (by omega) (by omega)
    refine ⟨Int64.ofInt position, word?_eq_some_iff.2 hval, ?_⟩
    rw [checkedSum?_eq_some_iff, hval, htarget]

/-- There is no checked sum where the position or the exact sum is no word. -/
lemma checkedSum?_word?_eq_none_iff :
    (word? (position : Int)).bind (checkedSum? · distance) = none ↔
      2 ^ 63 ≤ position ∨ 2 ^ 63 ≤ (position : Int) + distance.toInt := by
  have hlo := distance.le_toInt
  rw [Option.eq_none_iff_forall_ne_some]
  constructor
  · intro h
    by_contra hlt
    have hval : (Int64.ofInt ((position : Int) + distance.toInt)).toInt =
        (position : Int) + distance.toInt := Int64.toInt_ofInt_of_le (by omega) (by omega)
    exact h _ (checkedSum?_word?_eq_some_iff.2 ⟨by omega, hval⟩)
  · intro h target htarget
    obtain ⟨hposition, hsum⟩ := checkedSum?_word?_eq_some_iff.1 htarget
    have hhi := target.toInt_lt
    omega

/-! ### The target of a jump -/

/-- A jump from a position that is a word leads to the exact sum of the position and the distance.  A
sum below zero is an error; a sum that is no word ends the run, as does every other position past the
end of the program. -/
theorem jumpTarget_of_lt (hposition : position < 2 ^ 63) :
    jumpTarget length position distance =
      if (position : Int) + distance.toInt < 0 then .error (.jumpBeforeStart (position + 1) distance)
      else if (position : Int) + distance.toInt < 2 ^ 63 then
        .ok ((position : Int) + distance.toInt).toNat
      else .ok length := by
  unfold jumpTarget
  cases hsum : (word? (position : Int)).bind (checkedSum? · distance) with
  | none =>
    have hbig := checkedSum?_word?_eq_none_iff.1 hsum
    have hpos : 0 < distance := by
      rw [Int64.lt_iff_toInt_lt]
      simp only [Int64.toInt_zero]
      omega
    simp only [if_pos hpos]
    rw [if_neg (by omega), if_neg (by omega)]
  | some target =>
    have hval := (checkedSum?_word?_eq_some_iff.1 hsum).2
    have hhi := target.toInt_lt
    have hneg : target < 0 ↔ target.toInt < 0 := by
      rw [Int64.lt_iff_toInt_lt, Int64.toInt_zero]
    simp only [hneg]
    by_cases h : target.toInt < 0
    · rw [if_pos h, if_pos (by omega)]
    · rw [if_neg h, if_neg (by omega), if_pos (by omega), Int64.toNatClampNeg, hval]

/-- The only error of a jump is that it leads before the first line. -/
lemma eq_jumpBeforeStart_of_jumpTarget_eq_error {error : RunError}
    (h : jumpTarget length position distance = .error error) :
    error = .jumpBeforeStart (position + 1) distance := by
  unfold jumpTarget at h
  split at h <;> split at h <;> simp_all

/-! ### What a listing shows of it -/

/-- The place that belongs to the target of a jump. -/
def Landing.ofTarget (length : Nat) : Except RunError Nat → Landing
  | .error _ => .beforeStart
  | .ok target => if length ≤ target then .afterEnd else .line target

/-- A listing shows the place at which a run goes on. -/
theorem landing_eq_ofTarget (length position : Nat) (distance : Int64) :
    landing length position distance = .ofTarget length (jumpTarget length position distance) := by
  unfold landing jumpTarget
  cases (word? (position : Int)).bind (checkedSum? · distance) with
  | none =>
    by_cases hpos : 0 < distance
    · simp only [if_pos hpos, Landing.ofTarget, Nat.le_refl, if_true]
    · simp only [if_neg hpos, Landing.ofTarget]
  | some target =>
    by_cases hneg : target < 0
    · simp only [if_pos hneg, Landing.ofTarget]
    · simp only [if_neg hneg, Landing.ofTarget]

/-- A jump from a position that is a word is listed with the line at the exact sum of the position and the
distance, if there is that line and its position is a word. -/
lemma landing_of_lt (hposition : position < 2 ^ 63) :
    landing length position distance =
      if (position : Int) + distance.toInt < 0 then .beforeStart
      else if (position : Int) + distance.toInt < min length (2 ^ 63) then
        .line ((position : Int) + distance.toInt).toNat
      else .afterEnd := by
  rw [landing_eq_ofTarget, jumpTarget_of_lt hposition]
  by_cases hneg : (position : Int) + distance.toInt < 0
  · rw [if_pos hneg, if_pos hneg, Landing.ofTarget]
  · rw [if_neg hneg, if_neg hneg]
    by_cases hword : (position : Int) + distance.toInt < 2 ^ 63
    · rw [if_pos hword, Landing.ofTarget]
      by_cases hline : (position : Int) + distance.toInt < length
      · rw [if_neg (by omega), if_pos (by omega)]
      · rw [if_pos (by omega), if_neg (by omega)]
    · rw [if_neg hword, if_neg (by omega), Landing.ofTarget, if_pos (Nat.le_refl length)]

/-- A listing shows a line exactly for a jump whose target is that line of the program. -/
lemma landing_eq_line_iff {target : Nat} :
    landing length position distance = .line target ↔
      target < length ∧ jumpTarget length position distance = .ok target := by
  rw [landing_eq_ofTarget]
  cases jumpTarget length position distance with
  | error error => simp [Landing.ofTarget]
  | ok t =>
    simp only [Landing.ofTarget, Except.ok.injEq]
    split
    · next hle =>
      simp only [reduceCtorEq, false_iff, not_and]
      rintro hlt rfl
      omega
    · next hlt =>
      simp only [Landing.line.injEq]
      constructor
      · rintro rfl
        exact ⟨by omega, rfl⟩
      · exact fun h => h.2

/-- A jump from a position that is a word is listed with the line at the exact sum of the position and the
distance, if there is that line in a program that is not too long. -/
lemma landing_eq_line_iff_add {target : Nat} (hlength : length ≤ 2 ^ 63) (hposition : position < 2 ^ 63) :
    landing length position distance = .line target ↔
      target < length ∧ (position : Int) + distance.toInt = target := by
  rw [landing_of_lt hposition]
  split
  · next hneg =>
    simp only [reduceCtorEq, false_iff]
    omega
  · split
    · next hnonneg hline =>
      rw [Landing.line.injEq]
      omega
    · next hend =>
      simp only [reduceCtorEq, false_iff]
      omega

/-- A listing shows the end exactly for a jump whose target is past all lines. -/
lemma landing_eq_afterEnd_iff :
    landing length position distance = .afterEnd ↔
      ∃ target, jumpTarget length position distance = .ok target ∧ length ≤ target := by
  rw [landing_eq_ofTarget]
  cases jumpTarget length position distance with
  | error error => simp [Landing.ofTarget]
  | ok t =>
    simp only [Landing.ofTarget, Except.ok.injEq, exists_eq_left']
    split <;> simp_all

/-- A listing shows the place before the first line exactly for a jump that is an error. -/
lemma landing_eq_beforeStart_iff :
    landing length position distance = .beforeStart ↔
      jumpTarget length position distance = .error (.jumpBeforeStart (position + 1) distance) := by
  rw [landing_eq_ofTarget]
  cases htarget : jumpTarget length position distance with
  | error error =>
    have herror := eq_jumpBeforeStart_of_jumpTarget_eq_error htarget
    simp [Landing.ofTarget, herror]
  | ok t =>
    simp only [Landing.ofTarget, reduceCtorEq, iff_false]
    split <;> simp

/-- For the distance 0 a listing shows the line of the jump itself, if its position is a word. -/
lemma landing_zero (hposition : position < length) :
    landing length position 0 = if position < 2 ^ 63 then .line position else .beforeStart := by
  split
  · next hword =>
    rw [landing_of_lt hword, Int64.toInt_zero, Int.add_zero, if_neg (by omega), if_pos (by omega),
      Int.toNat_natCast]
  · next hbig =>
    simp only [landing, checkedSum?_word?_eq_none_iff.2 (.inl (Nat.le_of_not_lt hbig))]
    rfl

end StackMachine
