import StackMachine.Proofs.Operands

/-!
# How an operand is spelled

`Decimal.Numeral` and `Operand.Spells` say which texts stand for an integer and for an operand, without
a word about how they are read.  The results are that reading finds just these
(`Decimal.int64?_eq_some_iff`, `Operand.parse_eq_ok_iff`) and which fault it finds in any other text
(`Operand.parse_eq_error_iff`).
-/

namespace StackMachine

open Text

namespace Text.Decimal

/-- The numerals of an integer: digits, with a sign in front or without. -/
inductive Numeral : List Char → Int → Prop
  /-- Digits alone. -/
  | unsigned {digits : List Char} (hne : digits ≠ []) (hdigits : ∀ c ∈ digits, c.isDigit = true) :
      Numeral digits (Nat.ofDigitChars 10 digits 0)
  /-- Digits behind a plus sign. -/
  | plus {digits : List Char} (hne : digits ≠ []) (hdigits : ∀ c ∈ digits, c.isDigit = true) :
      Numeral ('+' :: digits) (Nat.ofDigitChars 10 digits 0)
  /-- Digits behind a minus sign. -/
  | minus {digits : List Char} (hne : digits ≠ []) (hdigits : ∀ c ∈ digits, c.isDigit = true) :
      Numeral ('-' :: digits) (-(Nat.ofDigitChars 10 digits 0))

lemma nat?_eq_some_iff {text : List Char} {n : Nat} :
    nat? text = some n ↔
      text ≠ [] ∧ (∀ c ∈ text, c.isDigit = true) ∧ Nat.ofDigitChars 10 text 0 = n := by
  simp [nat?, and_assoc]

/-- An integer is read from its numerals, and from no other text. -/
lemma int?_eq_some_iff {text : List Char} {z : Int} : int? text = some z ↔ Numeral text z := by
  constructor
  · intro h
    unfold int? at h
    split at h
    all_goals
      simp only [Option.map_eq_some_iff, Option.bind_eq_bind, Option.bind_eq_some_iff, Option.pure_def,
        Option.some.injEq] at h
      obtain ⟨-, ⟨n, hn, rfl⟩, rfl⟩ := h
      obtain ⟨hne, hdigits, rfl⟩ := nat?_eq_some_iff.1 hn
    · exact .plus hne hdigits
    · exact .minus hne hdigits
    · exact .unsigned hne hdigits
  · rintro (⟨hne, hdigits⟩ | ⟨hne, hdigits⟩ | ⟨hne, hdigits⟩)
    all_goals have hread := nat?_eq_some_iff.2 ⟨hne, hdigits, rfl⟩
    · -- a sign in front would be one of the digits
      unfold int?
      split
      · simp [Char.isDigit] at hdigits
      · simp [Char.isDigit] at hdigits
      · rw [hread]
        rfl
    · rw [int?, hread]
      rfl
    · rw [int?, hread]
      rfl

/-- A word is read from the numerals of its value, and from no other text. -/
lemma int64?_eq_some_iff {text : List Char} {value : Int64} :
    int64? text = some value ↔ Numeral text value.toInt := by
  simp only [int64?, Option.bind_eq_some_iff, int?_eq_some_iff, word?_eq_some_iff]
  exact ⟨by rintro ⟨z, hz, rfl⟩; exact hz, fun h => ⟨_, h, rfl⟩⟩

lemma Numeral.ne_nil {text : List Char} {z : Int} (h : Numeral text z) : text ≠ [] := by
  cases h with
  | unsigned hne => exact hne
  | plus | minus => exact List.cons_ne_nil _ _

/-- There are only digits and signs in a numeral. -/
lemma Numeral.isDigit_or_sign {text : List Char} {z : Int} (h : Numeral text z) {c : Char}
    (hc : c ∈ text) : c.isDigit = true ∨ c = '+' ∨ c = '-' := by
  cases h with
  | unsigned _ hdigits => exact .inl (hdigits c hc)
  | plus _ hdigits =>
    rcases List.mem_cons.1 hc with rfl | hc
    · exact .inr (.inl rfl)
    · exact .inl (hdigits c hc)
  | minus _ hdigits =>
    rcases List.mem_cons.1 hc with rfl | hc
    · exact .inr (.inr rfl)
    · exact .inl (hdigits c hc)

/-- A numeral can stand within an operand, and there is no letter in it. -/
lemma Numeral.plainChar {text : List Char} {z : Int} (h : Numeral text z) {c : Char} (hc : c ∈ text) :
    PlainChar c ∧ c ≠ 'M' ∧ c ≠ 'm' := by
  rcases h.isDigit_or_sign hc with hdigit | rfl | rfl
  · refine ⟨⟨isBlank_eq_false_of_isDigit hdigit, ?_, ?_⟩, ?_, ?_⟩ <;> rintro rfl <;>
      simp [Char.isDigit] at hdigit
  · decide
  · decide

end Text.Decimal

namespace Operand

/-- The spellings of an operand.  The address of a cell is the code point of its name less 48. -/
inductive Spells : List Char → Operand → Prop
  /-- A cell is spelled with a letter and one character, which is its name. -/
  | cell {letter name : Char} {address : Int64} (hletter : CellLetter letter) (hname : PlainChar name)
      (haddress : address.toInt = (name.toNat : Int) - 48) : Spells [letter, name] (.memory address)
  /-- A literal is spelled with a numeral. -/
  | literal {text : List Char} {value : Int64} (htext : Decimal.Numeral text value.toInt) :
      Spells text (.integer value)

/-- The fault of a text that spells no operand: a bad address if it begins as a cell does, and
otherwise a bad numeral. -/
def misspelling : List Char → Fault
  | 'M' :: _ | 'm' :: _ => .badAddress
  | text => .badInteger (String.ofList text)

/-- A spelling is not empty and can stand within a statement. -/
lemma Spells.plain {text : List Char} {operand : Operand} (h : Spells text operand) :
    text ≠ [] ∧ ∀ c ∈ text, PlainChar c := by
  cases h with
  | cell hletter hname =>
    have hplain : ∀ {c : Char}, CellLetter c → PlainChar c := by
      rintro c (rfl | rfl) <;> decide
    simp [hplain hletter, hname]
  | literal htext => exact ⟨htext.ne_nil, fun c hc => (htext.plainChar hc).1⟩

/-- A token that does not begin as a cell does is read as a numeral. -/
lemma parse_of_head_trim {token : List Char} (h : ∀ c ∈ (trim token).head?, ¬ CellLetter c) :
    Operand.parse token = match Decimal.int64? (trim token) with
      | some value => .ok (.integer value)
      | none => .error (.badInteger (String.ofList (trim token))) := by
  unfold Operand.parse
  split
  · next htrim => exact absurd (.inl rfl) (h 'M' (by simp [htrim]))
  · next htrim => exact absurd (.inr rfl) (h 'm' (by simp [htrim]))
  · rfl

lemma misspelling_cons {letter : Char} (hletter : CellLetter letter) (name : List Char) :
    misspelling (letter :: name) = .badAddress := by
  rcases hletter with rfl | rfl <;> rfl

lemma misspelling_of_head {text : List Char} (h : ∀ c ∈ text.head?, ¬ CellLetter c) :
    misspelling text = .badInteger (String.ofList text) := by
  unfold misspelling
  split
  · exact absurd (.inl rfl) (h 'M' rfl)
  · exact absurd (.inr rfl) (h 'm' rfl)
  · rfl

section Tokens

variable {token : List Char}

/-- An operand is read from each of its spellings, with blanks around it or not. -/
lemma Spells.parse_eq {operand : Operand} (h : Spells (trim token) operand) :
    Operand.parse token = .ok operand := by
  generalize htrim : trim token = text at h
  cases h with
  | @cell letter name address hletter _ haddress =>
    have hcell : cellAddress name = address := by
      rw [← Int64.toInt_inj, toInt_cellAddress, haddress]
    rw [parse_of_trim_eq_cell hletter htrim, hcell]
  | literal htext =>
    have hhead : ∀ c ∈ (trim token).head?, ¬ CellLetter c := by
      intro c hc hletter
      have hletters := (htext.plainChar (htrim ▸ List.mem_of_mem_head? hc)).2
      exact hletter.elim hletters.1 hletters.2
    rw [parse_of_head_trim hhead, htrim, Decimal.int64?_eq_some_iff.2 htext]

/-- A token holds a spelling between its blanks, or there is a fault in it. -/
lemma spells_or_parse_eq_error (hcomma : ',' ∉ token) (hsemicolon : ';' ∉ token) :
    (∃ operand, Spells (trim token) operand) ∨
      Operand.parse token = .error (misspelling (trim token)) := by
  by_cases hhead : ∀ c ∈ (trim token).head?, ¬ CellLetter c
  · cases hvalue : Decimal.int64? (trim token) with
    | some value => exact .inl ⟨.integer value, .literal (Decimal.int64?_eq_some_iff.1 hvalue)⟩
    | none => exact .inr (by rw [parse_of_head_trim hhead, hvalue, misspelling_of_head hhead])
  · push Not at hhead
    obtain ⟨letter, hmem, hletter⟩ := hhead
    obtain ⟨name, htrim⟩ := List.head?_eq_some_iff.1 hmem
    by_cases hname : name.length = 1
    · obtain ⟨c, rfl⟩ := List.length_eq_one_iff.1 hname
      have hconcat : trim token = [letter] ++ [c] := htrim
      refine .inl ⟨.memory (cellAddress c), ?_⟩
      rw [htrim]
      exact .cell hletter (plainChar_of_trim_eq hconcat hcomma hsemicolon) (toInt_cellAddress c)
    · refine .inr ?_
      rw [parse_of_trim_eq_malformed hletter htrim hname, htrim, misspelling_cons hletter]

/-- What is read from a token is the operand that is spelled between its blanks. -/
lemma parse_eq_ok_iff (hcomma : ',' ∉ token) (hsemicolon : ';' ∉ token) {operand : Operand} :
    Operand.parse token = .ok operand ↔ Spells (trim token) operand := by
  refine ⟨fun h => ?_, Spells.parse_eq⟩
  rcases spells_or_parse_eq_error hcomma hsemicolon with ⟨operand', hspells⟩ | hfault
  · rw [hspells.parse_eq] at h
    rwa [← Except.ok.inj h]
  · rw [hfault] at h
    cases h

/-- There is a fault in a token exactly if nothing is spelled between its blanks. -/
lemma parse_eq_error_iff (hcomma : ',' ∉ token) (hsemicolon : ';' ∉ token) {fault : Fault} :
    Operand.parse token = .error fault ↔
      (∀ operand, ¬ Spells (trim token) operand) ∧ fault = misspelling (trim token) := by
  rcases spells_or_parse_eq_error hcomma hsemicolon with ⟨operand, hspells⟩ | hfault
  · simp only [hspells.parse_eq, reduceCtorEq, false_iff]
    exact fun h => h.1 operand hspells
  · have hnone : ∀ operand, ¬ Spells (trim token) operand := by
      intro operand hspells
      rw [hspells.parse_eq] at hfault
      cases hfault
    rw [hfault, Except.error.injEq, eq_comm]
    exact (and_iff_right hnone).symm

end Tokens

end Operand

end StackMachine
