import StackMachine.Fault

/-!
# Jumps

A jump has a distance in lines, a signed 64-bit word, and is taken from a position. Both sums below are
sums of words: `checkedSum?` has no value where the exact sum does not fit, and a position beyond the
greatest word has no sum at all. In these cases the sign of the distance tells on which side of the
program the jump ends.

`jumpTarget` is where a run goes on; `landing` is what a listing shows.
-/

namespace StackMachine

/-- The sum of two words, unless it overflows. -/
def checkedSum? (a b : Int64) : Option Int64 :=
  if a.toBitVec.saddOverflow b.toBitVec then none else some (a + b)

/-- The position at which a run goes on after a jump. Every position from `length` on ends the run. -/
def jumpTarget (length position : Nat) (distance : Int64) : Except RunError Nat :=
  match (Text.Decimal.word? position).bind (checkedSum? · distance) with
  | none =>
    if 0 < distance then .ok length else .error (.jumpBeforeStart (position + 1) distance)
  | some target =>
    if target < 0 then .error (.jumpBeforeStart (position + 1) distance) else .ok target.toNatClampNeg

/-- The place to which a jump leads. -/
inductive Landing where
  /-- A place before the first line. -/
  | beforeStart
  /-- The line at a position of the program. -/
  | line (position : Nat)
  /-- A place after the last line. -/
  | afterEnd
deriving DecidableEq, Repr

/-- Where a jump from a position leads in a program with the given number of lines. -/
def landing (length position : Nat) (distance : Int64) : Landing :=
  match (Text.Decimal.word? position).bind (checkedSum? · distance) with
  | none => if 0 < distance then .afterEnd else .beforeStart
  | some target =>
    if target < 0 then .beforeStart
    else if length ≤ target.toNatClampNeg then .afterEnd
    else .line target.toNatClampNeg

/-- A checked sum is exact, and there is one whenever the exact sum fits into a word. -/
theorem checkedSum?_eq_some_iff {a b c : Int64} :
    checkedSum? a b = some c ↔ c.toInt = a.toInt + b.toInt := by
  unfold checkedSum?
  have hlo := c.le_toInt
  have hhi := c.toInt_lt
  have hsum := Int64.toInt_add a b
  split
  · next h =>
    simp only [BitVec.saddOverflow, Bool.or_eq_true, decide_eq_true_eq, Int64.toInt_toBitVec] at h
    simp only [reduceCtorEq, false_iff]
    omega
  · next h =>
    simp only [BitVec.saddOverflow, Bool.or_eq_true, decide_eq_true_eq, Int64.toInt_toBitVec] at h
    have hexact : (a + b).toInt = a.toInt + b.toInt := by
      rw [hsum, Int.bmod_eq_of_le] <;> omega
    rw [Option.some.injEq, ← Int64.toInt_inj, hexact, eq_comm]

end StackMachine
