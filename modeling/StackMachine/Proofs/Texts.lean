import Mathlib.Data.List.TakeWhile
import Mathlib.Tactic.Common
import StackMachine.Text.Blank
import StackMachine.Text.Decimal

/-!
# Reading back pieces of text

What trimming, cutting at a character and reading a numeral do to a text that has been put together
from such pieces.
-/

namespace StackMachine.Text

/-- A character that can stand within an operand: it is no blank, no comma and no semicolon. -/
def PlainChar (c : Char) : Prop :=
  isBlank c = false ∧ c ≠ ',' ∧ c ≠ ';'

instance (c : Char) : Decidable (PlainChar c) :=
  inferInstanceAs (Decidable (isBlank c = false ∧ c ≠ ',' ∧ c ≠ ';'))

/-! ### Spans -/

section Spans

variable {p : Char → Bool} {span rest span' rest' : List Char}

/-- A span of characters of one kind ends before the first character of another kind. -/
lemma takeWhile_append_of_head (hspan : ∀ c ∈ span, p c = true) (hrest : ∀ c ∈ rest.head?, p c = false) :
    (span ++ rest).takeWhile p = span ∧ (span ++ rest).dropWhile p = rest := by
  rw [List.takeWhile_append_of_pos hspan, List.dropWhile_append_of_pos hspan]
  cases rest with
  | nil => simp
  | cons c rest =>
    have hc : p c = false := hrest c rfl
    simp [hc]

/-- A text has one span of that kind at its start. -/
lemma append_inj_of_head (hspan : ∀ c ∈ span, p c = true) (hrest : ∀ c ∈ rest.head?, p c = false)
    (hspan' : ∀ c ∈ span', p c = true) (hrest' : ∀ c ∈ rest'.head?, p c = false)
    (h : span ++ rest = span' ++ rest') : span = span' ∧ rest = rest' := by
  obtain ⟨htake, hdrop⟩ := takeWhile_append_of_head hspan hrest
  obtain ⟨htake', hdrop'⟩ := takeWhile_append_of_head hspan' hrest'
  exact ⟨by rw [← htake, h, htake'], by rw [← hdrop, h, hdrop']⟩

/-- What follows the span begins with a character of another kind. -/
lemma head_dropWhile (p : Char → Bool) (text : List Char) :
    ∀ c ∈ (text.dropWhile p).head?, p c = false := by
  intro c hc
  have hhead := List.head?_dropWhile_not p text
  rw [Option.mem_def.1 hc] at hhead
  exact hhead

end Spans

/-! ### Blanks -/

/-- A digit is no blank. -/
lemma isBlank_eq_false_of_isDigit {c : Char} (h : c.isDigit = true) : isBlank c = false := by
  simp only [Char.isDigit, ge_iff_le, Bool.and_eq_true, decide_eq_true_eq, UInt32.le_iff_toNat_le] at h
  have hcode : 48 ≤ c.toNat ∧ c.toNat ≤ 57 := h
  simp only [isBlank, blankRanges, List.any_cons, List.any_nil, Bool.or_eq_false_iff,
    Bool.and_eq_false_iff, decide_eq_false_iff_not, and_true]
  omega

/-- Nothing is taken off a text without blanks. -/
lemma trim_of_forall_not_isBlank {text : List Char} (h : ∀ c ∈ text, isBlank c = false) :
    trim text = text := by
  have hnone : ∀ t : List Char, (∀ c ∈ t, isBlank c = false) → t.dropWhile isBlank = t := by
    intro t ht
    cases t with
    | nil => rfl
    | cons c t => rw [List.dropWhile_cons_of_neg (by simp [ht c])]
  unfold trim trimStart
  rw [hnone text h, hnone text.reverse (by simpa using h), List.reverse_reverse]

/-- A blank in front of a text is taken off. -/
lemma trim_cons_of_isBlank {c : Char} (h : isBlank c = true) (text : List Char) :
    trim (c :: text) = trim text := by
  unfold trim trimStart
  rw [List.dropWhile_cons_of_pos h]

/-- Blanks behind a text are taken off. -/
lemma trim_append_of_isBlank (text : List Char) {blanks : List Char}
    (h : ∀ c ∈ blanks, isBlank c = true) : trim (text ++ blanks) = trim text := by
  have hnone : blanks.dropWhile isBlank = [] := List.dropWhile_eq_nil_iff.2 h
  unfold trim trimStart
  rw [List.dropWhile_append]
  cases hrest : text.dropWhile isBlank with
  | nil => simp [hnone]
  | cons c rest =>
    rw [List.isEmpty_cons, if_neg Bool.false_ne_true, List.reverse_append,
      List.dropWhile_append_of_pos fun c hc => h c (List.mem_reverse.1 hc)]

/-- Nothing but the blanks around it is taken off a text without blanks. -/
lemma trim_between {before text after : List Char} (hbefore : ∀ c ∈ before, isBlank c = true)
    (htext : ∀ c ∈ text, isBlank c = false) (hafter : ∀ c ∈ after, isBlank c = true) :
    trim (before ++ text ++ after) = text := by
  have hstart : trim (before ++ text) = trim text := by
    rw [trim, trimStart, List.dropWhile_append_of_pos hbefore, trim, trimStart]
  rw [trim_append_of_isBlank _ hafter, hstart, trim_of_forall_not_isBlank htext]

/-- What is left of a text has been in it. -/
lemma mem_of_mem_trim {c : Char} {text : List Char} (h : c ∈ trim text) : c ∈ text := by
  unfold trim trimStart at h
  have hend := List.dropWhile_subset _ (List.mem_reverse.1 h)
  exact List.dropWhile_subset _ (List.mem_reverse.1 hend)

/-- A text is its trimmed form between blanks. -/
lemma exists_eq_append_trim (text : List Char) :
    ∃ before after, (∀ c ∈ before, isBlank c = true) ∧ (∀ c ∈ after, isBlank c = true) ∧
      text = before ++ trim text ++ after := by
  have hblank : ∀ (t : List Char), ∀ c ∈ t.takeWhile isBlank, isBlank c = true :=
    fun t c hc => List.mem_takeWhile_imp hc
  have hend : trimStart text = trim text ++ ((trimStart text).reverse.takeWhile isBlank).reverse := by
    rw [trim, ← List.reverse_append, List.takeWhile_append_dropWhile, List.reverse_reverse]
  refine ⟨text.takeWhile isBlank, ((trimStart text).reverse.takeWhile isBlank).reverse, hblank text,
    ?_, ?_⟩
  · intro c hc
    exact hblank _ c (List.mem_reverse.1 hc)
  · rw [List.append_assoc, ← hend]
    exact (List.takeWhile_append_dropWhile).symm

/-- A trimmed text does not end in a blank. -/
lemma isBlank_eq_false_of_trim_eq_concat {text start : List Char} {c : Char}
    (h : trim text = start ++ [c]) : isBlank c = false := by
  unfold trim at h
  have hdrop : (trimStart text).reverse.dropWhile isBlank = c :: start.reverse := by
    simpa using congrArg List.reverse h
  have hne : (trimStart text).reverse.dropWhile isBlank ≠ [] := by simp [hdrop]
  have hhead := List.head_dropWhile_not (p := isBlank) hne
  simpa only [hdrop, List.head_cons] using hhead

/-! ### Cutting -/

/-- The first piece of a text that is cut at a character ends before the first such character. -/
lemma exists_splitOn_eq_cons (text : List Char) (a : Char) :
    ∃ rest, text.splitOn a = text.takeWhile (· ≠ a) :: rest := by
  induction text with
  | nil => exact ⟨[], by simp⟩
  | cons c text ih =>
    obtain ⟨rest, hrest⟩ := ih
    rw [List.splitOn_cons_eq_if_modifyHead]
    by_cases hc : c = a
    · exact ⟨text.splitOn a, by simp [hc]⟩
    · exact ⟨rest, by simp [hc, hrest]⟩

/-- What follows the end of a piece has no part in it. -/
lemma takeWhile_takeWhile_append_cons {p q : Char → Bool} {x : Char} (hx : p x = false)
    (text rest : List Char) :
    ((text ++ x :: rest).takeWhile q).takeWhile p = (text.takeWhile q).takeWhile p := by
  induction text with
  | nil => by_cases hq : q x <;> simp [hq, hx]
  | cons c text ih =>
    rw [List.cons_append, List.takeWhile_cons, List.takeWhile_cons]
    by_cases hq : q c
    · rw [if_pos hq, if_pos hq, List.takeWhile_cons, List.takeWhile_cons, ih]
    · rw [if_neg hq, if_neg hq]

/-- The pieces of a text that is cut at a character consist of the other characters of the text. -/
lemma mem_and_ne_of_mem_splitOn {text piece : List Char} {a c : Char} (h : piece ∈ text.splitOn a)
    (hc : c ∈ piece) : c ∈ text ∧ c ≠ a := by
  induction text generalizing piece with
  | nil => simp_all
  | cons d text ih =>
    rw [List.splitOn_cons_eq_if_modifyHead] at h
    by_cases hd : d = a
    · rw [if_pos (by simpa using hd)] at h
      rcases List.mem_cons.1 h with rfl | h
      · simp at hc
      · exact ⟨List.mem_cons_of_mem d (ih h hc).1, (ih h hc).2⟩
    · rw [if_neg (by simpa using hd)] at h
      obtain ⟨rest, hrest⟩ := exists_splitOn_eq_cons text a
      rw [hrest, List.modifyHead_cons] at h
      rcases List.mem_cons.1 h with rfl | h
      · rcases List.mem_cons.1 hc with rfl | hc
        · exact ⟨List.mem_cons_self, hd⟩
        · have hfirst := ih (by simp [hrest]) hc
          exact ⟨List.mem_cons_of_mem d hfirst.1, hfirst.2⟩
      · have hlater := ih (by simp [hrest, h]) hc
        exact ⟨List.mem_cons_of_mem d hlater.1, hlater.2⟩

/-! ### Numerals -/

namespace Decimal

/-- A written number consists of digits. -/
lemma isDigit_of_mem_ofNat {n : Nat} {c : Char} (h : c ∈ ofNat n) : c.isDigit = true :=
  Nat.isDigit_of_mem_toDigits (by decide) (by decide) h

/-- A written integer consists of digits, behind a minus sign perhaps. -/
lemma eq_minus_or_isDigit_of_mem_ofInt {z : Int} {c : Char} (h : c ∈ ofInt z) :
    c = '-' ∨ c.isDigit = true := by
  cases z with
  | ofNat n => exact .inr (isDigit_of_mem_ofNat h)
  | negSucc n =>
    rcases List.mem_cons.1 h with rfl | h
    · exact .inl rfl
    · exact .inr (isDigit_of_mem_ofNat h)

/-- A written integer can stand within an operand. -/
lemma plainChar_of_mem_ofInt {z : Int} {c : Char} (h : c ∈ ofInt z) : PlainChar c := by
  rcases eq_minus_or_isDigit_of_mem_ofInt h with rfl | hdigit
  · decide
  · refine ⟨isBlank_eq_false_of_isDigit hdigit, ?_, ?_⟩ <;> rintro rfl <;>
      simp [Char.isDigit] at hdigit

/-- No other character is found in a written integer. -/
lemma notMem_ofInt {z : Int} {c : Char} (hminus : c ≠ '-') (hdigit : c.isDigit = false) : c ∉ ofInt z := by
  intro h
  rcases eq_minus_or_isDigit_of_mem_ofInt h with rfl | hc
  · exact hminus rfl
  · rw [hdigit] at hc
    cases hc

lemma ofInt_ne_nil (z : Int) : ofInt z ≠ [] := by
  cases z with
  | ofNat n => exact Nat.toDigits_ne_nil
  | negSucc n => simp [ofInt]

/-- A written integer reads back. -/
lemma int?_ofInt (z : Int) : int? (ofInt z) = some z := by
  cases z with
  | negSucc n =>
    simp only [ofInt, int?, nat?_ofNat]
    rfl
  | ofNat n =>
    -- the numeral does not begin with a sign, so it is read as a number
    have hread := nat?_ofNat n
    simp only [ofInt]
    cases hdigits : ofNat n with
    | nil => exact absurd hdigits Nat.toDigits_ne_nil
    | cons c digits =>
      have hdigit : c.isDigit = true := isDigit_of_mem_ofNat (n := n) (by simp [hdigits])
      rw [hdigits] at hread
      have hplus : c ≠ '+' := by rintro rfl; simp [Char.isDigit] at hdigit
      have hminus : c ≠ '-' := by rintro rfl; simp [Char.isDigit] at hdigit
      unfold int?
      split
      · next h => exact absurd (List.cons.inj h).1 hplus
      · next h => exact absurd (List.cons.inj h).1 hminus
      · rw [hread]
        rfl

/-- A written word reads back. -/
lemma int64?_ofInt (w : Int64) : int64? (ofInt w.toInt) = some w := by
  rw [int64?, int?_ofInt, Option.bind_some, word?_toInt]

end Decimal

end StackMachine.Text
