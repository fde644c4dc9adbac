/-!
# Decimal numerals

How numbers are written and read in statements, listings and arguments. `ofNat` and `ofInt` write the
shortest numeral, with a minus sign below zero. `nat?` reads one or more ASCII digits and nothing else;
`int64?` allows one sign in front and `uint64?` one plus sign, and both refuse a value that does not fit
into 64 bits.
-/

namespace StackMachine.Text.Decimal

/-- The decimal digits of a number. -/
def ofNat (n : Nat) : List Char :=
  Nat.toDigits 10 n

/-- The decimal numeral of an integer. -/
def ofInt : Int → List Char
  | .ofNat n => ofNat n
  | .negSucc n => '-' :: ofNat (n + 1)

/-- Reads a numeral of one or more digits. -/
def nat? (text : List Char) : Option Nat :=
  if text ≠ [] ∧ text.all Char.isDigit then some (Nat.ofDigitChars 10 text 0) else none

/-- Reads a numeral with at most one sign in front. -/
def int? : List Char → Option Int
  | '+' :: digits => (nat? digits).map fun n => (n : Int)
  | '-' :: digits => (nat? digits).map fun n => -(n : Int)
  | digits => (nat? digits).map fun n => (n : Int)

/-- The signed 64-bit word with the given value, if there is one. -/
def word? (value : Int) : Option Int64 :=
  if Int64.minValue.toInt ≤ value ∧ value ≤ Int64.maxValue.toInt then some (Int64.ofInt value) else none

/-- Reads a signed 64-bit numeral. -/
def int64? (text : List Char) : Option Int64 :=
  (int? text).bind word?

/-- Reads an unsigned 64-bit numeral, which may have a plus sign in front. -/
def uint64? (text : List Char) : Option Nat :=
  let digits := match text with
    | '+' :: digits => digits
    | digits => digits
  (nat? digits).filter (· < UInt64.size)

/-! ### Reading back -/

/-- A written number reads back. -/
theorem nat?_ofNat (n : Nat) : nat? (ofNat n) = some n := by
  have hne : Nat.toDigits 10 n ≠ [] := Nat.toDigits_ne_nil
  have hall : (Nat.toDigits 10 n).all Char.isDigit = true :=
    List.all_eq_true.2 fun _ => Nat.isDigit_of_mem_toDigits (by decide) (by decide)
  simp [nat?, ofNat, hne, hall, Nat.ofDigitChars_ten_toDigits]

/-- The word with a given value is the only one that has it. -/
theorem word?_eq_some_iff {value : Int} {w : Int64} : word? value = some w ↔ w.toInt = value := by
  have hlo := w.le_toInt
  have hhi := w.toInt_lt
  have hmin : Int64.minValue.toInt = -2 ^ 63 := by decide
  have hmax : Int64.maxValue.toInt = 2 ^ 63 - 1 := by decide
  unfold word?
  rw [hmin, hmax]
  split
  · next h =>
    have hval : (Int64.ofInt value).toInt = value := Int64.toInt_ofInt_of_le (by omega) (by omega)
    rw [Option.some.injEq, ← Int64.toInt_inj, hval, eq_comm]
  · next h =>
    simp only [reduceCtorEq, false_iff]
    omega

/-- A word's value is in its range, and the word is recovered from it. -/
theorem word?_toInt (w : Int64) : word? w.toInt = some w :=
  word?_eq_some_iff.2 rfl

end StackMachine.Text.Decimal
