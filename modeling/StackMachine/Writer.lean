/-!
# Writers

A `Writer` collects what is written to it. It may have a capacity in bytes. A text that does not fit is
written as far as it does, and the write fails; a character may be cut in two by this.
-/

namespace StackMachine

/-- Something that texts can be written to. -/
structure Writer where
  /-- The greatest number of bytes that it takes, if there is one. -/
  capacity : Option Nat
  /-- The bytes that have been written. -/
  written : ByteArray

namespace Writer

/-- A writer to which nothing has been written. -/
def new (capacity : Option Nat) : Writer :=
  ⟨capacity, .empty⟩

/-- Writes a text. If it does not fit, the answer is an error with what remains of the writer. -/
def write (w : Writer) (text : String) : Except Writer Writer :=
  let written := w.written ++ text.toUTF8
  match w.capacity with
  | none => .ok { w with written := written }
  | some capacity =>
    if written.size ≤ capacity then .ok { w with written := written }
    else .error { w with written := written.extract 0 capacity }

/-- Writes texts one after the other, up to the first that does not fit. -/
def writeAll (w : Writer) : List String → Except Writer Writer
  | [] => .ok w
  | text :: rest =>
    match w.write text with
    | .error w' => .error w'
    | .ok w' => w'.writeAll rest

/-- A writer without a capacity takes everything. -/
theorem write_of_capacity_eq_none {w : Writer} (h : w.capacity = none) (text : String) :
    w.write text = .ok { w with written := w.written ++ text.toUTF8 } := by
  simp [write, h]

/-- What has been written stays within the capacity. -/
theorem size_written_le_of_write {w w' : Writer} {capacity : Nat} (h : w.capacity = some capacity)
    {text : String} (hw : w.write text = .ok w' ∨ w.write text = .error w') :
    w'.written.size ≤ capacity := by
  simp only [write, h] at hw
  split at hw
  · next hfit =>
    obtain rfl : _ = w' := by simpa using hw
    exact hfit
  · obtain rfl : _ = w' := by simpa using hw
    simp only [ByteArray.size_extract]
    omega

end Writer

end StackMachine
