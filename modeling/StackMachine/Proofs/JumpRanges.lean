import StackMachine.Proofs.Jumps

/-!
# The range of a jump

A run and a listing both add a distance to a position, and both have to tell on which side of the program
the sum lies.  They compute with words of 64 bits: positions and lengths are unsigned, distances and sums
are signed.  The interesting positions and distances are those near `2 ^ 63`, where the position is no
signed word or the sum is none.

`Landing.Agrees` says that the two agree, for all words.  `Landing.Exact` says that they are right, that is,
that they compare the sum of integers with the program, and `Landing.Noticed` says of each addition that its
result is exact or that there is no result.  They are right for every position that is a signed word
(`landing_of_lt`); for the others the distance alone decides.  The three are put together in
`landing_exact`.
-/

namespace StackMachine

open Text.Decimal (word? word?_eq_some_iff)

/-- The target of a jump is an unsigned word if the length of the program is one. -/
lemma lt_of_jumpTarget_eq_ok {length position target : Nat} {distance : Int64} (hlength : length < 2 ^ 64)
    (h : jumpTarget length position distance = .ok target) : target < 2 ^ 64 := by
  unfold jumpTarget at h
  split at h
  · split at h
    · rwa [← Except.ok.inj h]
    · cases h
  · next sum _ =>
    split at h
    · cases h
    · have hhi := sum.toInt_lt
      rw [← Except.ok.inj h, Int64.toNatClampNeg]
      omega

namespace Landing

variable {length position : UInt64} {distance : Int64}

/-! ### Agreement -/

/-- A listing shows where a run goes on. -/
structure Agrees (length position : UInt64) (distance : Int64) : Prop where
  /-- The place before the first line is listed if the run is broken off.  The error has the number of the
  line, which is computed as a word. -/
  beforeStart_iff : landing length.toNat position.toNat distance = .beforeStart ↔
    jumpTarget length.toNat position.toNat distance =
      .error (.jumpBeforeStart (position + 1).toNat distance)
  /-- The end is listed if the run goes on past the last line. -/
  afterEnd_iff : landing length.toNat position.toNat distance = .afterEnd ↔
    ∃ target : UInt64, jumpTarget length.toNat position.toNat distance = .ok target.toNat ∧
      length ≤ target
  /-- A line is listed if the run goes on with it. -/
  line_iff (target : UInt64) : landing length.toNat position.toNat distance = .line target.toNat ↔
    jumpTarget length.toNat position.toNat distance = .ok target.toNat ∧ target < length

/-- The number of a line is a word, unless its position is the greatest one. -/
lemma toNat_add_one (hposition : position.toNat < 2 ^ 64 - 1) :
    (position + 1).toNat = position.toNat + 1 := by
  rw [UInt64.toNat_add, UInt64.toNat_one]
  omega

lemma agrees (hposition : position.toNat < 2 ^ 64 - 1) : Agrees length position distance := by
  refine ⟨?_, ?_, fun target => ?_⟩
  · rw [toNat_add_one hposition]
    exact landing_eq_beforeStart_iff
  · rw [landing_eq_afterEnd_iff]
    constructor
    · rintro ⟨target, htarget, hle⟩
      have hword := lt_of_jumpTarget_eq_ok length.toNat_lt htarget
      have hvalue : (UInt64.ofNat target).toNat = target := UInt64.toNat_ofNat_of_lt' hword
      exact ⟨.ofNat target, by rw [hvalue, htarget], UInt64.le_iff_toNat_le.2 (by rwa [hvalue])⟩
    · rintro ⟨target, htarget, hle⟩
      exact ⟨target.toNat, htarget, UInt64.le_iff_toNat_le.1 hle⟩
  · rw [landing_eq_line_iff, UInt64.lt_iff_toNat_lt, and_comm]

/-! ### Exactness -/

/-- From a position that is a word, the place before the first line is listed for a negative sum. -/
lemma eq_beforeStart_iff_add (hposition : position.toNat < 2 ^ 63) :
    landing length.toNat position.toNat distance = .beforeStart ↔
      (position.toNat : Int) + distance.toInt < 0 := by
  rw [landing_of_lt hposition]
  split
  · next hneg => exact iff_of_true rfl hneg
  · next hneg =>
    refine iff_of_false ?_ hneg
    split <;> exact Landing.noConfusion

/-- And the end is listed for a sum that is past all lines. -/
lemma eq_afterEnd_iff_add (hlength : length.toNat ≤ 2 ^ 63) (hposition : position.toNat < 2 ^ 63) :
    landing length.toNat position.toNat distance = .afterEnd ↔
      (length.toNat : Int) ≤ (position.toNat : Int) + distance.toInt := by
  rw [landing_of_lt hposition]
  split
  · next hneg => exact iff_of_false Landing.noConfusion (by omega)
  · split
    · next hline => exact iff_of_false Landing.noConfusion (by omega)
    · next hend => exact iff_of_true rfl (by omega)

/-- A listing shows where the sum of integers lies.  It can do so for lengths that are signed words. -/
structure Exact (length position : UInt64) (distance : Int64) : Prop where
  /-- The place before the first line is listed for a negative sum. -/
  beforeStart_iff : landing length.toNat position.toNat distance = .beforeStart ↔
    (position.toNat : Int) + distance.toInt < 0
  /-- The end is listed for a sum that is the length or more. -/
  afterEnd_iff (hlength : length.toNat ≤ 2 ^ 63 - 1) :
    landing length.toNat position.toNat distance = .afterEnd ↔
      (length.toNat : Int) ≤ (position.toNat : Int) + distance.toInt
  /-- A line is listed if its position is the sum. -/
  line_iff (hlength : length.toNat ≤ 2 ^ 63 - 1) (target : UInt64) :
    landing length.toNat position.toNat distance = .line target.toNat ↔
      (position.toNat : Int) + distance.toInt = target.toNat ∧
      0 ≤ (position.toNat : Int) + distance.toInt ∧
      (position.toNat : Int) + distance.toInt < length.toNat

lemma exact (hposition : position.toNat < 2 ^ 63) : Exact length position distance := by
  refine ⟨eq_beforeStart_iff_add hposition, fun hlength => ?_, fun hlength target => ?_⟩
  · exact eq_afterEnd_iff_add (by omega) hposition
  · rw [landing_eq_line_iff_add (by omega) hposition]
    omega

/-! ### Additions -/

/-- No addition overflows unnoticed. -/
structure Noticed (position : UInt64) (distance : Int64) : Prop where
  /-- The number of the line is the successor of its position. -/
  number_eq : (position + 1).toNat = position.toNat + 1
  /-- The sum that is computed is the sum of integers. -/
  sum_eq_some_iff (sum : Int64) :
    (word? (position.toNat : Int)).bind (checkedSum? · distance) = some sum ↔
      position.toNat < 2 ^ 63 ∧ sum.toInt = (position.toNat : Int) + distance.toInt
  /-- There is no sum if the position or the sum of integers is no signed word. -/
  sum_eq_none_iff : (word? (position.toNat : Int)).bind (checkedSum? · distance) = none ↔
    2 ^ 63 ≤ position.toNat ∨ 2 ^ 63 ≤ (position.toNat : Int) + distance.toInt

lemma noticed (hposition : position.toNat < 2 ^ 64 - 1) : Noticed position distance :=
  ⟨toNat_add_one hposition, fun _ => checkedSum?_word?_eq_some_iff, checkedSum?_word?_eq_none_iff⟩

end Landing

/-- The two computations of the range of a jump agree, and they are exact.

For every position but the greatest one, every length and every distance, a listing shows the place before
the first line, the end or a line exactly if a run is broken off there, goes on past the last line or goes on
with that line.  For a position that is a signed word this is where the sum of integers lies.  Each addition
on the way is exact or is seen to overflow. -/
theorem landing_exact (length position : UInt64) (distance : Int64)
    (hposition : position.toNat < 2 ^ 64 - 1) :
    Landing.Agrees length position distance ∧
    (position.toNat < 2 ^ 63 → Landing.Exact length position distance) ∧
    Landing.Noticed position distance :=
  ⟨Landing.agrees hposition, Landing.exact, Landing.noticed hposition⟩

/-- From the greatest position that is a signed word, the longest jump back leads before the first line and
a jump forwards has a sum that is no word.  From the next position there is no sum at all. -/
theorem landing_exact_past_words : ∃ greatest next : UInt64,
    greatest.toNat = 2 ^ 63 - 1 ∧ next.toNat = 2 ^ 63 ∧
    landing (5 : UInt64).toNat greatest.toNat Int64.minValue = .beforeStart ∧
    landing (5 : UInt64).toNat greatest.toNat 1 = .afterEnd ∧
    jumpTarget (5 : UInt64).toNat next.toNat (-1) = .error (.jumpBeforeStart (next + 1).toNat (-1)) := by
  let greatest : UInt64 := 0x7FFFFFFFFFFFFFFF
  let next : UInt64 := 0x8000000000000000
  have hgreatest : greatest.toNat < 2 ^ 64 - 1 := by decide +kernel
  have hnext : next.toNat < 2 ^ 64 - 1 := by decide +kernel
  have hword : greatest.toNat < 2 ^ 63 := by decide +kernel
  have hback := (landing_exact 5 greatest Int64.minValue hgreatest).2.1 hword
  have hforth := (landing_exact 5 greatest 1 hgreatest).2.1 hword
  have hagrees := (landing_exact 5 next (-1) hnext).1
  refine ⟨greatest, next, by decide +kernel, by decide +kernel, ?_, ?_, ?_⟩
  · exact hback.beforeStart_iff.2 (by decide +kernel)
  · exact (hforth.afterEnd_iff (by decide +kernel)).2 (by decide +kernel)
  · exact hagrees.beforeStart_iff.1 (by decide +kernel)

end StackMachine
