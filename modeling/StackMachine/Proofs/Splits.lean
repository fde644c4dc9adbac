import StackMachine.Proofs.Texts
import StackMachine.Statement

/-!
# Cutting a line

`Splits` says that a line consists of some blanks, a word, the text behind the word, and a comment or
nothing.  Every line with a statement splits (`exists_splits`), and in one way only (`Splits.unique`).
The word is its keyword, so `Splits.parse_eq` says how such a line is read.
-/

namespace StackMachine.Statement

open Text

/-- A text of blanks, or an empty one. -/
def Blanks (text : List Char) : Prop :=
  ∀ c ∈ text, isBlank c = true

instance : DecidablePred Blanks := List.decidableBAll _

/-- A text without a blank or a semicolon. -/
def Unbroken (text : List Char) : Prop :=
  ∀ c ∈ text, isBlank c = false ∧ c ≠ ';'

instance : DecidablePred Unbroken := List.decidableBAll _

/-- A text that is left out of a statement: it is empty or begins with a semicolon. -/
def IsComment (text : List Char) : Prop :=
  text = [] ∨ ∃ rest, text = ';' :: rest

/-- A keyword names the opcode whose mnemonic is its upper case. -/
def Names (keyword : List Char) (op : Opcode) : Prop :=
  toUpperCase keyword = op.mnemonic.toList

instance (keyword : List Char) (op : Opcode) : Decidable (Names keyword op) :=
  inferInstanceAs (Decidable (toUpperCase keyword = op.mnemonic.toList))

lemma opcode?_eq_some_iff {keyword : List Char} {op : Opcode} :
    opcode? keyword = some op ↔ Names keyword op := by
  rw [opcode?, Opcode.ofMnemonic?_eq_some_iff, ← String.toList_inj, String.toList_ofList, eq_comm, Names]

lemma all_isBlank_iff {text : List Char} : text.all isBlank = true ↔ Blanks text :=
  List.all_eq_true

lemma IsComment.head {text : List Char} (h : IsComment text) : ∀ c ∈ text.head?, c = ';' := by
  rcases h with rfl | ⟨rest, rfl⟩ <;> simp

lemma Blanks.semicolon {text : List Char} (h : Blanks text) : ';' ∉ text := fun hmem =>
  Bool.false_ne_true (h ';' hmem)

lemma Blanks.comma {text : List Char} (h : Blanks text) : ',' ∉ text := fun hmem =>
  Bool.false_ne_true (h ',' hmem)

/-- One other character is enough. -/
lemma not_blanks_of_mem {text : List Char} {c : Char} (hc : c ∈ text) (h : isBlank c = false) :
    ¬ Blanks text := fun hblanks => by
  rw [hblanks c hc] at h
  cases h

/-- A line consists of blanks, a word, the text behind the word, and a comment or nothing. -/
structure Splits (line lead word arguments comment : List Char) : Prop where
  /-- These are the pieces of the line. -/
  line_eq : line = lead ++ (word ++ arguments) ++ comment
  /-- The word has only blanks before it. -/
  lead_blanks : Blanks lead
  /-- There is a word. -/
  word_ne_nil : word ≠ []
  /-- The word goes on without a blank or a semicolon. -/
  word_unbroken : Unbroken word
  /-- A blank ends the word, if any other text does. -/
  arguments_head : ∀ c ∈ arguments.head?, isBlank c = true
  /-- The comment does not begin in the text behind the word. -/
  arguments_plain : ';' ∉ arguments
  /-- A semicolon begins the comment. -/
  comment : IsComment comment

/-- The comment is what follows the first semicolon. -/
lemma code_append {before comment : List Char} (hbefore : ';' ∉ before) (hcomment : IsComment comment) :
    code (before ++ comment) = before ∧ (before ++ comment).dropWhile (· ≠ ';') = comment := by
  refine takeWhile_append_of_head (fun c hc => decide_eq_true ?_) fun c hc => ?_
  · rintro rfl
    exact hbefore hc
  · simp [hcomment.head c hc]

namespace Splits

variable {line lead word arguments comment : List Char}

lemma code_eq (h : Splits line lead word arguments comment) :
    code line = lead ++ (word ++ arguments) ∧ line.dropWhile (· ≠ ';') = comment := by
  have hword : ';' ∉ word := fun hmem => (h.word_unbroken _ hmem).2 rfl
  rw [h.line_eq]
  exact code_append (by simp [h.lead_blanks.semicolon, hword, h.arguments_plain]) h.comment

/-- The word begins where the blanks end. -/
lemma trimStart_code (h : Splits line lead word arguments comment) :
    (code line).takeWhile isBlank = lead ∧ trimStart (code line) = word ++ arguments := by
  obtain ⟨d, rest, hcons⟩ := List.exists_cons_of_ne_nil h.word_ne_nil
  rw [h.code_eq.1]
  refine takeWhile_append_of_head h.lead_blanks fun c hc => ?_
  obtain rfl : d = c := by simpa [hcons] using hc
  exact (h.word_unbroken d (by simp [hcons])).1

/-- The word is the keyword of the statement. -/
lemma keyword_code (h : Splits line lead word arguments comment) :
    keyword (code line) = word ∧ argumentText (code line) = arguments := by
  rw [keyword, argumentText, h.trimStart_code.2]
  refine takeWhile_append_of_head (fun c hc => ?_) fun c hc => ?_
  · simp [(h.word_unbroken c hc).1]
  · simp [h.arguments_head c hc]

/-- A line splits in one way only. -/
lemma unique {lead' word' arguments' comment' : List Char} (h : Splits line lead word arguments comment)
    (h' : Splits line lead' word' arguments' comment') :
    lead = lead' ∧ word = word' ∧ arguments = arguments' ∧ comment = comment' := by
  refine ⟨?_, ?_, ?_, ?_⟩
  · rw [← h.trimStart_code.1, h'.trimStart_code.1]
  · rw [← h.keyword_code.1, h'.keyword_code.1]
  · rw [← h.keyword_code.2, h'.keyword_code.2]
  · rw [← h.code_eq.2, h'.code_eq.2]

/-- How a line is read that splits. -/
lemma parse_eq {line : String} (h : Splits line.toList lead word arguments comment) :
    parse line = match opcode? word with
      | none => .error .unknownKeyword
      | some op => (parseOperands arguments).map fun operands => some (.ofOperands op operands) := by
  have hvisible : ¬ Blanks (code line.toList) := by
    obtain ⟨c, hc⟩ := List.exists_mem_of_ne_nil word h.word_ne_nil
    exact not_blanks_of_mem (by simp [h.code_eq.1, hc]) (h.word_unbroken c hc).1
  simp only [parse]
  rw [if_neg (mt all_isBlank_iff.1 hvisible), h.keyword_code.1, h.keyword_code.2]
  cases opcode? word with
  | none => rfl
  | some op => cases parseOperands arguments <;> rfl

end Splits

/-- A semicolon begins what follows the code of a line. -/
lemma isComment_dropWhile (line : List Char) : IsComment (line.dropWhile (· ≠ ';')) := by
  cases hdrop : line.dropWhile (· ≠ ';') with
  | nil => exact .inl rfl
  | cons c rest =>
    have hc : c = ';' := by simpa using head_dropWhile (· ≠ ';') line c (by rw [hdrop]; rfl)
    exact .inr ⟨rest, by rw [hc]⟩

/-- There is no semicolon in the code of a line. -/
lemma semicolon_notMem_code (line : List Char) : ';' ∉ code line := fun hmem => by
  simpa using List.mem_takeWhile_imp hmem

/-- A line whose code is not blank splits. -/
lemma exists_splits {line : List Char} (h : ¬ Blanks (code line)) :
    ∃ lead word arguments comment, Splits line lead word arguments comment := by
  have hstart : ';' ∉ trimStart (code line) := fun hmem =>
    semicolon_notMem_code line (List.dropWhile_subset _ hmem)
  refine ⟨(code line).takeWhile isBlank, keyword (code line), argumentText (code line),
    line.dropWhile (· ≠ ';'), ?_, fun c hc => List.mem_takeWhile_imp hc, ?_, fun c hc => ⟨?_, ?_⟩,
    fun c hc => ?_, fun hc => ?_, isComment_dropWhile line⟩
  · rw [keyword, argumentText, List.takeWhile_append_dropWhile, trimStart,
      List.takeWhile_append_dropWhile]
    exact List.takeWhile_append_dropWhile.symm
  · -- a character that is no blank stands first behind the blanks
    intro hnil
    have hne : trimStart (code line) ≠ [] := fun hall => h (List.dropWhile_eq_nil_iff.1 hall)
    obtain ⟨c, rest, hcons⟩ := List.exists_cons_of_ne_nil hne
    have hc : isBlank c = false := head_dropWhile isBlank (code line) c (by
      rw [← trimStart, hcons]
      rfl)
    rw [keyword, hcons, List.takeWhile_cons_of_pos (by simp [hc])] at hnil
    cases hnil
  · simpa using List.mem_takeWhile_imp hc
  · rintro rfl
    exact hstart (List.takeWhile_subset _ hc)
  · simpa using head_dropWhile _ _ c hc
  · exact hstart (List.dropWhile_subset _ hc)

end StackMachine.Statement
