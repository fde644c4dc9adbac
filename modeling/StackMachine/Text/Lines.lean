/-!
# Lines

`lines` cuts a text at its line feeds. One carriage return directly before a line feed belongs to the
line end; any other carriage return stays in its line. What follows the last line feed is a line only
if it is not empty, so a text that ends in a line feed has no empty last line.

The alphabet is a parameter, so that the same rule serves for characters and for bytes.
-/

namespace StackMachine.Text

/-- The lines of a text whose line feed is `lf` and whose carriage return is `cr`. -/
def lines {α : Type} [DecidableEq α] (lf cr : α) : List α → List (List α)
  | [] => []
  | a :: rest =>
    if a = lf then [] :: lines lf cr rest
    else if a = cr ∧ rest.head? = some lf then lines lf cr rest
    else
      match lines lf cr rest with
      | [] => [[a]]
      | line :: more => (a :: line) :: more

/-- The lines of a text in characters. -/
def charLines (text : String) : List String :=
  (lines '\n' '\r' text.toList).map String.ofList

/-- The lines of a text in bytes. -/
def byteLines (bytes : ByteArray) : List ByteArray :=
  (lines 10 13 bytes.data.toList).map List.toByteArray

section
variable {α : Type} [DecidableEq α] {lf cr : α}

@[simp] theorem lines_nil : lines lf cr [] = [] := rfl

@[simp] theorem lines_lf_cons (rest : List α) : lines lf cr (lf :: rest) = [] :: lines lf cr rest := by
  simp [lines]

/-- Only the empty text has no line. -/
theorem lines_eq_nil_iff {text : List α} : lines lf cr text = [] ↔ text = [] := by
  induction text with
  | nil => simp
  | cons a rest ih =>
    simp only [lines, reduceCtorEq, iff_false]
    split
    · simp
    · split
      · next hcr =>
        rw [ih]
        rintro rfl
        simp at hcr
      · split <;> simp
end

end StackMachine.Text
