import StackMachine.Proofs.Texts
import StackMachine.Statement

/-!
# Operands and their text

`Operand.render` writes an operand and `Operand.parse` reads one.  An operand that is a cell is written
with the character that names the cell.  It can be read back only if there is such a character and if
it is no blank, no comma and no semicolon, for these end an operand in a statement.

`Operand.Readable` says this of an operand.  `Operand.visible` is what a statement shows of an operand,
up to the first comma or semicolon in it; of an operand that is not readable, this cannot be read.
-/

namespace StackMachine

open Text

/-! ### Cells and their names -/

/-- The name of a cell is the character whose code point is its address plus 48. -/
lemma cellName?_eq_some_iff {address : Int64} {name : Char} :
    cellName? address = some name ↔ (name.toNat : Int) = address.toInt + 48 := by
  constructor
  · intro h
    simp only [cellName?] at h
    split at h
    · next hcode =>
      have hname : (Char.ofNat (address.toInt + 48).toNat).toNat = (address.toInt + 48).toNat := by
        rw [Char.ofNat, dif_pos hcode.2]
        rfl
      rw [← Option.some.inj h, hname]
      omega
    · cases h
  · intro h
    have haddress : cellAddress name = address := by
      rw [← Int64.toInt_inj, toInt_cellAddress]
      omega
    rw [← haddress, cellName?_cellAddress]

namespace Operand

/-- A statement can hold the operand: it is a literal, or a cell whose name exists and is no blank, no
comma and no semicolon. -/
def Readable : Operand → Prop
  | .memory address => ∃ name : Char, (name.toNat : Int) = address.toInt + 48 ∧
      isBlank name = false ∧ name ≠ ',' ∧ name ≠ ';'
  | .integer _ => True

/-- A cell is readable if its name can stand within an operand. -/
lemma readable_memory_iff {address : Int64} :
    (memory address).Readable ↔ ∃ name ∈ cellName? address, PlainChar name := by
  refine exists_congr fun name => ?_
  rw [Option.mem_def, cellName?_eq_some_iff, PlainChar]

-- the instance looks at the one name of a cell, and never at all characters
instance : DecidablePred Readable
  | .memory _ => @decidable_of_iff _ _ readable_memory_iff.symm (Option.decidableExistsMem _)
  | .integer _ => inferInstanceAs (Decidable True)

/-- The text of an operand up to the first comma or semicolon. -/
def visible (operand : Operand) : List Char :=
  (operand.render.toList.takeWhile (· ≠ ';')).takeWhile (· ≠ ',')

/-! ### The text of an operand -/

lemma toList_render_named {address : Int64} {name : Char} (h : cellName? address = some name) :
    (Operand.memory address).render.toList = ['M', name] := by
  simp [render, h]

lemma toList_render_unnamed {address : Int64} (h : cellName? address = none) :
    (Operand.memory address).render.toList = 'M' :: '<' :: (Decimal.ofInt address.toInt ++ ['>']) := by
  simp [render, h]

lemma toList_render_integer (value : Int64) :
    (Operand.integer value).render.toList = Decimal.ofInt value.toInt := by
  simp [render]

/-- The text of an operand begins with a character that does not end it. -/
lemma exists_toList_render_eq_cons (operand : Operand) :
    ∃ c rest, operand.render.toList = c :: rest ∧ PlainChar c := by
  cases operand with
  | memory address =>
    cases h : cellName? address with
    | some name => exact ⟨'M', _, toList_render_named h, by decide⟩
    | none => exact ⟨'M', _, toList_render_unnamed h, by decide⟩
  | integer value =>
    obtain ⟨c, rest, hcons⟩ := List.exists_cons_of_ne_nil (Decimal.ofInt_ne_nil value.toInt)
    have hplain : PlainChar c := Decimal.plainChar_of_mem_ofInt (z := value.toInt) (by simp [hcons])
    exact ⟨c, rest, by rw [toList_render_integer, hcons], hplain⟩

/-- The text of a cell without a name has nothing that would end it. -/
lemma plainChar_of_mem_unnamed {address : Int} {c : Char}
    (hc : c ∈ 'M' :: '<' :: (Decimal.ofInt address ++ ['>'])) : PlainChar c := by
  simp only [List.mem_cons, List.mem_append, List.not_mem_nil, or_false] at hc
  rcases hc with rfl | rfl | hc | rfl
  · decide
  · decide
  · exact Decimal.plainChar_of_mem_ofInt hc
  · decide

/-- A readable operand is written without a blank, a comma or a semicolon. -/
lemma Readable.plainChar {operand : Operand} (h : operand.Readable) {c : Char}
    (hc : c ∈ operand.render.toList) : PlainChar c := by
  cases operand with
  | memory address =>
    obtain ⟨name, hcode, hname⟩ := h
    rw [toList_render_named (cellName?_eq_some_iff.2 hcode)] at hc
    rcases List.mem_cons.1 hc with rfl | hc
    · decide
    · rwa [List.mem_singleton.1 hc]
  | integer value =>
    rw [toList_render_integer] at hc
    exact Decimal.plainChar_of_mem_ofInt hc

/-- Nothing of an operand is hidden if no character ends it. -/
lemma visible_eq_of_plainChar {operand : Operand} (h : ∀ c ∈ operand.render.toList, PlainChar c) :
    operand.visible = operand.render.toList := by
  have hsemicolon : operand.render.toList.takeWhile (· ≠ ';') = operand.render.toList :=
    List.takeWhile_eq_self_iff.2 fun c hc => by simpa using (h c hc).2.2
  have hcomma : operand.render.toList.takeWhile (· ≠ ',') = operand.render.toList :=
    List.takeWhile_eq_self_iff.2 fun c hc => by simpa using (h c hc).2.1
  rw [visible, hsemicolon, hcomma]

/-- Blanks around the text of an operand do not count if there are none in it. -/
lemma trim_blank_of_plainChar {text : List Char} (h : ∀ c ∈ text, PlainChar c) :
    trim (' ' :: text) = text := by
  rw [trim_cons_of_isBlank (by decide)]
  exact trim_of_forall_not_isBlank fun c hc => (h c hc).1

/-! ### Reading an operand -/

/-- The letters that begin the name of a cell. -/
def CellLetter (c : Char) : Prop :=
  c = 'M' ∨ c = 'm'

/-- A letter and one character name a cell. -/
lemma parse_of_trim_eq_cell {token : List Char} {letter name : Char} (hletter : CellLetter letter)
    (h : trim token = [letter, name]) : Operand.parse token = .ok (.memory (cellAddress name)) := by
  rcases hletter with rfl | rfl <;> simp only [Operand.parse, h]

/-- A letter and more or less than one character are a fault. -/
lemma parse_of_trim_eq_malformed {token name : List Char} {letter : Char} (hletter : CellLetter letter)
    (h : trim token = letter :: name) (hname : name.length ≠ 1) :
    Operand.parse token = .error .badAddress := by
  rcases hletter with rfl | rfl
  all_goals
    simp only [Operand.parse, h]
    match name with
    | [] => rfl
    | [_] => exact absurd rfl hname
    | _ :: _ :: _ => rfl

/-- A readable operand reads back from its text behind a blank. -/
lemma parse_toList_render {operand : Operand} (h : operand.Readable) :
    Operand.parse (' ' :: operand.render.toList) = .ok operand := by
  have htrim := trim_blank_of_plainChar fun c hc => h.plainChar (c := c) hc
  cases operand with
  | memory address =>
    obtain ⟨name, hcode, -⟩ := h
    rw [toList_render_named (cellName?_eq_some_iff.2 hcode)] at htrim ⊢
    have haddress : cellAddress name = address := by
      rw [← Int64.toInt_inj, toInt_cellAddress]
      omega
    rw [parse_of_trim_eq_cell (.inl rfl) htrim, haddress]
  | integer value =>
    rw [toList_render_integer] at htrim ⊢
    have hread := Decimal.int64?_ofInt value
    have hM : 'M' ∉ Decimal.ofInt value.toInt := Decimal.notMem_ofInt (by decide) (by decide)
    have hm : 'm' ∉ Decimal.ofInt value.toInt := Decimal.notMem_ofInt (by decide) (by decide)
    unfold Operand.parse
    rw [htrim]
    split
    · next h => exact absurd (by simp [h]) hM
    · next h => exact absurd (by simp [h]) hm
    · rw [hread]

/-- Blanks behind its text do not count either. -/
lemma parse_toList_render_append {operand : Operand} (h : operand.Readable) {blanks : List Char}
    (hblanks : ∀ c ∈ blanks, isBlank c = true) :
    Operand.parse (' ' :: operand.render.toList ++ blanks) = .ok operand := by
  rw [← parse_toList_render h, Operand.parse, trim_append_of_isBlank _ hblanks, Operand.parse]

/-- Of any other operand no token is left that can be read. -/
lemma exists_parse_visible_eq_error {operand : Operand} (h : ¬ operand.Readable) :
    ∃ fault, Operand.parse (' ' :: operand.visible) = .error fault := by
  cases operand with
  | integer value => exact absurd trivial h
  | memory address =>
    refine ⟨.badAddress, ?_⟩
    cases hname : cellName? address with
    | none =>
      have hplain : ∀ c ∈ (Operand.memory address).render.toList, PlainChar c := by
        rw [toList_render_unnamed hname]
        exact fun c hc => plainChar_of_mem_unnamed hc
      have htrim : trim (' ' :: (Operand.memory address).visible) =
          'M' :: '<' :: (Decimal.ofInt address.toInt ++ ['>']) := by
        rw [visible_eq_of_plainChar hplain, trim_blank_of_plainChar hplain, toList_render_unnamed hname]
      exact parse_of_trim_eq_malformed (.inl rfl) htrim (by simp)
    | some name =>
      -- the name is a blank, which is trimmed, or a comma or a semicolon, which ends the operand
      have htrim : trim (' ' :: (Operand.memory address).visible) = ['M'] := by
        rw [trim_cons_of_isBlank (by decide)]
        unfold visible
        rw [toList_render_named hname]
        by_cases hend : name = ',' ∨ name = ';'
        · rcases hend with rfl | rfl <;> decide
        · obtain ⟨hcomma, hsemicolon⟩ := not_or.1 hend
          have hblank : isBlank name = true := by
            by_contra hblank
            exact h ⟨name, cellName?_eq_some_iff.1 hname, by simpa using hblank, hcomma, hsemicolon⟩
          have hM : isBlank 'M' = false := by decide
          simp [hcomma, hsemicolon, trim, trimStart, hblank, hM]
      exact parse_of_trim_eq_malformed (.inl rfl) htrim (by simp)

/-- A token without a comma or a semicolon ends in a character that can name a cell. -/
lemma plainChar_of_trim_eq {token start : List Char} {name : Char} (h : trim token = start ++ [name])
    (hcomma : ',' ∉ token) (hsemicolon : ';' ∉ token) : PlainChar name := by
  have hmem : name ∈ token := mem_of_mem_trim (by simp [h])
  refine ⟨isBlank_eq_false_of_trim_eq_concat h, ?_, ?_⟩
  · rintro rfl
    exact hcomma hmem
  · rintro rfl
    exact hsemicolon hmem

/-- A cell that is named in such a token is readable. -/
lemma readable_of_trim_eq {token : List Char} {c name : Char} (h : trim token = [c, name])
    (hcomma : ',' ∉ token) (hsemicolon : ';' ∉ token) : (memory (cellAddress name)).Readable := by
  have hconcat : trim token = [c] ++ [name] := h
  exact ⟨name, by rw [toInt_cellAddress]; omega, plainChar_of_trim_eq hconcat hcomma hsemicolon⟩

/-- Every operand that is read from such a token is readable. -/
lemma readable_of_parse_eq_ok {token : List Char} {operand : Operand}
    (h : Operand.parse token = .ok operand) (hcomma : ',' ∉ token) (hsemicolon : ';' ∉ token) :
    operand.Readable := by
  unfold Operand.parse at h
  split at h
  · next name htrim =>
    split at h
    · rw [← Except.ok.inj h]
      exact readable_of_trim_eq htrim hcomma hsemicolon
    · cases h
  · next name htrim =>
    split at h
    · rw [← Except.ok.inj h]
      exact readable_of_trim_eq htrim hcomma hsemicolon
    · cases h
  · split at h
    · rw [← Except.ok.inj h]
      exact trivial
    · cases h

end Operand

end StackMachine
