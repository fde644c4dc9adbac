import Mathlib.Tactic.Common
import StackMachine.Writer

/-!
# What writers take

A writer that has kept to its capacity takes several texts as it takes one (`writeAll_some`), and it
has the bytes of a text that it does not take in full up to its capacity.
-/

namespace StackMachine

/-- Bytes that are cut off within their first part do not show what follows it. -/
lemma extract_append_of_le {a b : ByteArray} {n : Nat} (h : n ≤ a.size) :
    (a ++ b).extract 0 n = a.extract 0 n := by
  rw [ByteArray.extract_append, Nat.zero_sub, Nat.sub_eq_zero_of_le h, ByteArray.extract_same,
    ByteArray.append_empty]

/-- Nothing is cut off where there is enough room. -/
lemma extract_eq_self_of_le {a : ByteArray} {n : Nat} (h : a.size ≤ n) : a.extract 0 n = a := by
  apply ByteArray.ext
  rw [ByteArray.data_extract]
  exact Array.extract_eq_self_of_le h

namespace Writer

variable {capacity : Nat} {written : ByteArray}

/-- A text fits into a writer if it takes no more room than is left. -/
lemma write_of_le {text : String} (h : (written ++ text.toUTF8).size ≤ capacity) :
    write ⟨some capacity, written⟩ text = .ok ⟨some capacity, written ++ text.toUTF8⟩ := by
  simp only [write]
  rw [if_pos h]

/-- A text that does not fit is written as far as it does. -/
lemma write_of_lt {text : String} (h : capacity < (written ++ text.toUTF8).size) :
    write ⟨some capacity, written⟩ text =
      .error ⟨some capacity, (written ++ text.toUTF8).extract 0 capacity⟩ := by
  simp only [write]
  rw [if_neg (Nat.not_le.2 h)]

/-- A writer without a capacity takes several texts as one. -/
lemma writeAll_none (written : ByteArray) (texts : List String) :
    writeAll ⟨none, written⟩ texts = .ok ⟨none, written ++ (String.join texts).toUTF8⟩ := by
  induction texts generalizing written with
  | nil => simp [writeAll]
  | cons text rest ih =>
    simp only [writeAll]
    rw [write_of_capacity_eq_none rfl, String.join_cons]
    simp only [ih, String.toUTF8_eq_toByteArray, String.toByteArray_append, ByteArray.append_assoc]

/-- A writer with a capacity does so too. -/
lemma writeAll_some (h : written.size ≤ capacity) (texts : List String) :
    writeAll ⟨some capacity, written⟩ texts = write ⟨some capacity, written⟩ (String.join texts) := by
  induction texts generalizing written with
  | nil =>
    have hsize : (written ++ (String.join []).toUTF8).size ≤ capacity := by simpa using h
    rw [write_of_le hsize]
    simp [writeAll]
  | cons text rest ih =>
    have hjoin : written ++ (String.join (text :: rest)).toUTF8 =
        written ++ text.toUTF8 ++ (String.join rest).toUTF8 := by
      simp only [String.join_cons, String.toUTF8_eq_toByteArray, String.toByteArray_append,
        ByteArray.append_assoc]
    simp only [writeAll]
    rcases Nat.lt_or_ge capacity (written ++ text.toUTF8).size with hlt | hle
    · have hlt' : capacity < (written ++ (String.join (text :: rest)).toUTF8).size := by
        rw [hjoin, ByteArray.size_append]
        omega
      rw [write_of_lt hlt, write_of_lt hlt', hjoin, extract_append_of_le (Nat.le_of_lt hlt)]
    · rw [write_of_le hle]
      simp only [ih hle]
      simp only [write, hjoin]

/-- Writing does not change the capacity. -/
lemma capacity_of_writeAll_eq_ok {w w' : Writer} {texts : List String} (h : w.writeAll texts = .ok w') :
    w'.capacity = w.capacity := by
  induction texts generalizing w with
  | nil =>
    obtain rfl : w = w' := by simpa [writeAll] using h
    rfl
  | cons text rest ih =>
    simp only [writeAll] at h
    rcases hwrite : w.write text with w₁ | w₁
    · simp [hwrite] at h
    · rw [hwrite] at h
      rw [ih h]
      unfold write at hwrite
      grind

end Writer

end StackMachine
