import StackMachine.Proofs.Operands
import StackMachine.Proofs.Splits

/-!
# Canonical statements

`Instruction.render` writes an instruction as a statement, and `Statement.parse` reads statements.  They
undo each other exactly for the instructions that a statement can hold (`Instruction.Readable`).  Every
other instruction is written as a line that cannot be read at all, so no line stands for another
instruction than the one that it was written for.

`operandText` is the part of a canonical statement behind its mnemonic.
-/

namespace StackMachine

open Text

/-! ### Reading the operands -/

section Tokens

variable {α β ε : Type} {f : α → Except ε β}

/-- A list of tokens cannot be read if one of them cannot. -/
lemma exists_mapM_eq_error {as : List α} {a : α} (ha : a ∈ as) {e : ε} (h : f a = .error e) :
    ∃ e', as.mapM f = .error e' := by
  induction as with
  | nil => simp at ha
  | cons b as ih =>
    rw [List.mapM_cons]
    cases hb : f b with
    | error e' => exact ⟨e', rfl⟩
    | ok b' =>
      rcases List.mem_cons.1 ha with rfl | ha
      · rw [h] at hb
        cases hb
      · obtain ⟨e', he'⟩ := ih ha
        exact ⟨e', by rw [he']; rfl⟩

/-- Everything that is read comes from one of the tokens. -/
lemma exists_mem_of_mapM_eq_ok {as : List α} {bs : List β} (h : as.mapM f = .ok bs) {b : β}
    (hb : b ∈ bs) : ∃ a ∈ as, f a = .ok b := by
  induction as generalizing bs with
  | nil =>
    obtain rfl : [] = bs := Except.ok.inj h
    simp at hb
  | cons a as ih =>
    rw [List.mapM_cons] at h
    cases ha : f a with
    | error e => rw [ha] at h; cases h
    | ok c =>
      cases has : as.mapM f with
      | error e => rw [ha, has] at h; cases h
      | ok cs =>
        rw [ha, has] at h
        obtain rfl : c :: cs = bs := Except.ok.inj h
        rcases List.mem_cons.1 hb with rfl | hb
        · exact ⟨a, List.mem_cons_self, ha⟩
        · obtain ⟨a', ha', hread⟩ := ih has hb
          exact ⟨a', List.mem_cons_of_mem a ha', hread⟩

end Tokens

/-- The text of operands behind a mnemonic. -/
def operandText (operands : List Operand) : List Char :=
  [','].intercalate (operands.map fun operand => ' ' :: operand.render.toList)

lemma operandText_singleton (a : Operand) : operandText [a] = ' ' :: a.render.toList := by
  simp [operandText]

lemma operandText_cons_cons (a b : Operand) (rest : List Operand) :
    operandText (a :: b :: rest) = ' ' :: a.render.toList ++ ',' :: operandText (b :: rest) := by
  simp [operandText, List.intercalate_cons_cons]

/-- A blank sets off the text of operands. -/
lemma exists_operandText_eq_cons (a : Operand) (rest : List Operand) :
    ∃ text, operandText (a :: rest) = ' ' :: text := by
  cases rest with
  | nil => exact ⟨_, operandText_singleton a⟩
  | cons b rest => exact ⟨_, operandText_cons_cons a b rest⟩

/-- The text of operands is empty, or it begins with a blank. -/
lemma isBlank_of_mem_head?_operandText {operands : List Operand} {c : Char}
    (h : c ∈ (operandText operands).head?) : isBlank c = true := by
  cases operands with
  | nil => simp [operandText] at h
  | cons a rest =>
    obtain ⟨text, htext⟩ := exists_operandText_eq_cons a rest
    rw [htext] at h
    obtain rfl : ' ' = c := Option.some.inj h
    decide

/-- The first token is what is visible of the first operand, behind a blank. -/
lemma takeWhile_operandText (a : Operand) (rest : List Operand) :
    ((operandText (a :: rest)).takeWhile (· ≠ ';')).takeWhile (· ≠ ',') = ' ' :: a.visible := by
  have hblank : ((' ' :: a.render.toList).takeWhile (· ≠ ';')).takeWhile (· ≠ ',') =
      ' ' :: a.visible := by
    rw [List.takeWhile_cons_of_pos (by decide), List.takeWhile_cons_of_pos (by decide), Operand.visible]
  cases rest with
  | nil => rw [operandText_singleton, hblank]
  | cons b rest => rw [operandText_cons_cons, takeWhile_takeWhile_append_cons (by decide), hblank]

/-- There is more than blanks in the text of operands. -/
lemma not_all_isBlank_operandText (a : Operand) (rest : List Operand) :
    ¬ ((operandText (a :: rest)).takeWhile (· ≠ ';')).all isBlank = true := by
  obtain ⟨c, text, htext, hblank, hcomma, hsemicolon⟩ := a.exists_toList_render_eq_cons
  have hmem : c ∈ (operandText (a :: rest)).takeWhile (· ≠ ';') := by
    refine List.takeWhile_subset (· ≠ ',') ?_
    rw [takeWhile_operandText, Operand.visible, htext,
      List.takeWhile_cons_of_pos (by simpa using hsemicolon),
      List.takeWhile_cons_of_pos (by simpa using hcomma)]
    simp
  intro hall
  rw [List.all_eq_true.1 hall c hmem] at hblank
  cases hblank

/-- Readable operands hide nothing of the text. -/
lemma takeWhile_operandText_of_readable {operands : List Operand}
    (h : ∀ operand ∈ operands, operand.Readable) :
    (operandText operands).takeWhile (· ≠ ';') = operandText operands := by
  induction operands with
  | nil => rfl
  | cons a rest ih =>
    have ha : ∀ c ∈ ' ' :: a.render.toList, decide (c ≠ ';') = true := by
      intro c hc
      rcases List.mem_cons.1 hc with rfl | hc
      · decide
      · simpa using ((h a List.mem_cons_self).plainChar hc).2.2
    cases rest with
    | nil => rw [operandText_singleton, List.takeWhile_eq_self_iff.2 ha]
    | cons b rest =>
      rw [operandText_cons_cons, List.takeWhile_append_of_pos ha, List.takeWhile_cons_of_pos (by decide),
        ih fun operand hmem => h operand (List.mem_cons_of_mem a hmem)]

/-- There is a token for each of some readable operands, and they are read as the operands, with blanks
behind the last one too. -/
lemma tokens_operandText_append {operands : List Operand} (hne : operands ≠ [])
    (h : ∀ operand ∈ operands, operand.Readable) {blanks : List Char}
    (hblanks : ∀ c ∈ blanks, isBlank c = true) :
    ((operandText operands ++ blanks).splitOn ',').length = operands.length ∧
      ((operandText operands ++ blanks).splitOn ',').mapM Operand.parse = .ok operands := by
  induction operands with
  | nil => exact absurd rfl hne
  | cons a rest ih =>
    have ha : a.Readable := h a List.mem_cons_self
    have hcomma : ',' ∉ ' ' :: a.render.toList := by
      intro hc
      rcases List.mem_cons.1 hc with hc | hc
      · cases hc
      · exact (ha.plainChar hc).2.1 rfl
    cases rest with
    | nil =>
      have hcomma' : ',' ∉ ' ' :: a.render.toList ++ blanks := by
        intro hc
        rcases List.mem_append.1 hc with hc | hc
        · exact hcomma hc
        · cases hblanks ',' hc
      rw [operandText_singleton, List.splitOn_eq_singleton hcomma']
      refine ⟨rfl, ?_⟩
      rw [List.mapM_cons, Operand.parse_toList_render_append ha hblanks]
      rfl
    | cons b rest =>
      obtain ⟨hlength, hread⟩ :=
        ih (List.cons_ne_nil b rest) fun operand hmem => h operand (List.mem_cons_of_mem a hmem)
      have htext : operandText (a :: b :: rest) ++ blanks =
          (' ' :: a.render.toList) ++ ',' :: (operandText (b :: rest) ++ blanks) := by
        rw [operandText_cons_cons, List.append_assoc]
        rfl
      rw [htext, List.splitOn_append_cons_self_of_not_mem hcomma]
      refine ⟨congrArg (· + 1) hlength, ?_⟩
      rw [List.mapM_cons, Operand.parse_toList_render ha, hread]
      rfl

/-- An operand that cannot be read leaves a token that cannot be read. -/
lemma exists_token_of_not_readable {operands : List Operand}
    (h : ∃ operand ∈ operands, ¬ operand.Readable) :
    ∃ token ∈ ((operandText operands).takeWhile (· ≠ ';')).splitOn ',',
      ∃ fault, Operand.parse token = .error fault := by
  induction operands with
  | nil => simp at h
  | cons a rest ih =>
    by_cases ha : a.Readable
    · -- the first token is read, and what follows the comma is cut in the same way
      cases rest with
      | nil => simp [ha] at h
      | cons b rest =>
        have hrest : ∃ operand ∈ b :: rest, ¬ operand.Readable := by
          obtain ⟨operand, hmem, hbad⟩ := h
          rcases List.mem_cons.1 hmem with rfl | hmem
          · exact absurd ha hbad
          · exact ⟨operand, hmem, hbad⟩
        obtain ⟨token, htoken, hfault⟩ := ih hrest
        have hplain : ∀ c ∈ ' ' :: a.render.toList, c ≠ ',' ∧ c ≠ ';' := by
          intro c hc
          rcases List.mem_cons.1 hc with rfl | hc
          · decide
          · exact (ha.plainChar hc).2
        refine ⟨token, ?_, hfault⟩
        rw [operandText_cons_cons, List.takeWhile_append_of_pos fun c hc => by simpa using (hplain c hc).2,
          List.takeWhile_cons_of_pos (by decide),
          List.splitOn_append_cons_self_of_not_mem fun hc => (hplain ',' hc).1 rfl]
        exact List.mem_cons_of_mem _ htoken
    · obtain ⟨rest', hsplit⟩ := exists_splitOn_eq_cons ((operandText (a :: rest)).takeWhile (· ≠ ';')) ','
      refine ⟨' ' :: a.visible, ?_, Operand.exists_parse_visible_eq_error ha⟩
      rw [hsplit, takeWhile_operandText]
      exact List.mem_cons_self

namespace Statement

/-- The operands of a canonical statement read back, with blanks behind them too. -/
lemma parseOperands_operandText_append {operands : List Operand}
    (hlength : operands.length ≤ maxOperands) (h : ∀ operand ∈ operands, operand.Readable)
    {blanks : List Char} (hblanks : ∀ c ∈ blanks, isBlank c = true) :
    parseOperands (operandText operands ++ blanks) = .ok operands := by
  unfold parseOperands
  cases operands with
  | nil =>
    have hall : (operandText [] ++ blanks).all isBlank = true := List.all_eq_true.2 hblanks
    rw [if_pos hall]
  | cons a rest =>
    have hvisible : ¬ (operandText (a :: rest) ++ blanks).all isBlank = true := by
      intro hall
      have hblank := not_all_isBlank_operandText a rest
      rw [takeWhile_operandText_of_readable h] at hblank
      rw [List.all_append, Bool.and_eq_true] at hall
      exact hblank hall.1
    obtain ⟨hcount, hread⟩ := tokens_operandText_append (List.cons_ne_nil a rest) h hblanks
    rw [if_neg hvisible]
    simp only [if_neg (Nat.not_lt.2 (hcount ▸ hlength)), hread]

lemma parseOperands_operandText {operands : List Operand} (hlength : operands.length ≤ maxOperands)
    (h : ∀ operand ∈ operands, operand.Readable) :
    parseOperands ((operandText operands).takeWhile (· ≠ ';')) = .ok operands := by
  have hread := parseOperands_operandText_append hlength h (List.forall_mem_nil _)
  rwa [List.append_nil, ← takeWhile_operandText_of_readable h] at hread

/-- If one of the operands cannot be read, the statement is faulty. -/
lemma exists_parseOperands_eq_error {operands : List Operand}
    (h : ∃ operand ∈ operands, ¬ operand.Readable) :
    ∃ fault, parseOperands ((operandText operands).takeWhile (· ≠ ';')) = .error fault := by
  obtain ⟨token, htoken, fault, hfault⟩ := exists_token_of_not_readable h
  cases operands with
  | nil => simp at h
  | cons a rest =>
    simp only [parseOperands]
    rw [if_neg (not_all_isBlank_operandText a rest)]
    split
    · exact ⟨.operandCount, rfl⟩
    · exact exists_mapM_eq_error htoken hfault

end Statement

namespace Instruction

/-- A statement can hold the instruction: it can hold every operand. -/
def Readable (i : Instruction) : Prop :=
  ∀ operand ∈ i.operands, operand.Readable

/-- The canonical statement is the mnemonic with the text of the operands. -/
lemma toList_render (i : Instruction) :
    i.render.toList = i.opcode.mnemonic.toList ++ operandText i.operands := by
  have hjoin : ∀ (a : Operand) (rest : List Operand),
      ' ' :: (", ".intercalate ((a :: rest).map Operand.render)).toList = operandText (a :: rest) := by
    intro a rest
    induction rest generalizing a with
    | nil => simp [operandText_singleton]
    | cons b rest ih =>
      rw [operandText_cons_cons, ← ih b, List.map_cons, List.map_cons, String.intercalate_cons_cons,
        ← List.map_cons, String.toList_append, String.toList_append]
      simp
  unfold render
  split
  · next h => simp [h, operandText]
  · cases hoperands : i.operands with
    | nil => contradiction
    | cons a rest => simp [← hjoin]

end Instruction

namespace Statement

/-- A mnemonic has no blank and no semicolon. -/
lemma unbroken_mnemonic (op : Opcode) : Unbroken op.mnemonic.toList := by
  cases op <;> decide

/-- A mnemonic stands for its opcode. -/
lemma opcode?_mnemonic (op : Opcode) : opcode? op.mnemonic.toList = some op := by
  cases op <;> decide

/-- How a line is read that begins with a mnemonic. -/
lemma parse_of_mnemonic {line : String} {op : Opcode} {text comment : List Char}
    (hline : line.toList = op.mnemonic.toList ++ text ++ comment)
    (hhead : ∀ c ∈ text.head?, isBlank c = true) (hsemicolon : ';' ∉ text) (hcomment : IsComment comment) :
    parse line = (parseOperands text).map fun operands => some (.ofOperands op operands) := by
  have hsplits : Splits line.toList [] op.mnemonic.toList text comment := {
    line_eq := hline
    lead_blanks := List.forall_mem_nil _
    word_ne_nil := by cases op <;> decide
    word_unbroken := unbroken_mnemonic op
    arguments_head := hhead
    arguments_plain := hsemicolon
    comment := hcomment }
  rw [hsplits.parse_eq, opcode?_mnemonic]

/-- How a canonical statement is read. -/
lemma parse_render (i : Instruction) :
    parse i.render = (parseOperands ((operandText i.operands).takeWhile (· ≠ ';'))).map fun operands =>
      some (.ofOperands i.opcode operands) := by
  have hline : i.render.toList = i.opcode.mnemonic.toList ++
      (operandText i.operands).takeWhile (· ≠ ';') ++ (operandText i.operands).dropWhile (· ≠ ';') := by
    rw [i.toList_render, List.append_assoc, List.takeWhile_append_dropWhile]
  refine parse_of_mnemonic hline ?_ (semicolon_notMem_code _) (isComment_dropWhile _)
  intro c hc
  rw [Option.mem_def, List.head?_takeWhile, Option.filter_eq_some_iff] at hc
  exact isBlank_of_mem_head?_operandText hc.1

/-- Every operand that is read comes from one of the tokens. -/
lemma exists_token_of_mem_parseOperands {text : List Char} {operands : List Operand}
    {operand : Operand} (h : parseOperands text = .ok operands) (hmem : operand ∈ operands) :
    ∃ token ∈ text.splitOn ',', Operand.parse token = .ok operand := by
  simp only [parseOperands] at h
  split at h
  · obtain rfl : [] = operands := Except.ok.inj h
    simp at hmem
  · split at h
    · cases h
    · exact exists_mem_of_mapM_eq_ok h hmem

/-- An instruction that is read is made of the opcode and the operands that are read. -/
lemma exists_of_parse_eq_ok {line : String} {i : Instruction} (h : parse line = .ok (some i)) :
    ∃ op operands, opcode? (keyword (code line.toList)) = some op ∧
      parseOperands (argumentText (code line.toList)) = .ok operands ∧
      i = .ofOperands op operands := by
  simp only [parse] at h
  split at h
  · cases h
  · split at h
    · cases h
    · next op hop =>
      split at h
      · cases h
      · next operands hoperands =>
        exact ⟨op, operands, hop, hoperands, (Option.some.inj (Except.ok.inj h)).symm⟩

/-- Every instruction that is read is readable. -/
lemma readable_of_parse_eq_ok {line : String} {i : Instruction} (h : parse line = .ok (some i)) :
    i.Readable := by
  obtain ⟨op, operands, -, hoperands, rfl⟩ := exists_of_parse_eq_ok h
  intro operand hoperand
  have hmem : operand ∈ operands := List.mem_of_mem_take hoperand
  obtain ⟨token, htoken, hread⟩ := exists_token_of_mem_parseOperands hoperands hmem
  -- the token comes from the code of the line, which ends at the first semicolon
  refine Operand.readable_of_parse_eq_ok hread ?_ ?_
  · intro hc
    exact (mem_and_ne_of_mem_splitOn htoken hc).2 rfl
  · intro hc
    have harguments := (mem_and_ne_of_mem_splitOn htoken hc).1
    exact semicolon_notMem_code _ (List.dropWhile_subset _ (List.dropWhile_subset _ harguments))

/-- The canonical statement for a readable instruction reads back. -/
lemma parse_render_of_readable {i : Instruction} (h : i.Readable) : parse i.render = .ok (some i) := by
  rw [parse_render, parseOperands_operandText i.length_operands_le h]
  exact congrArg (fun i => Except.ok (some i)) i.ofOperands_operands

/-- So does the canonical statement for an instruction that is read. -/
lemma parse_render_of_parse_eq_ok {line : String} {i : Instruction} (h : parse line = .ok (some i)) :
    parse i.render = .ok (some i) :=
  parse_render_of_readable (readable_of_parse_eq_ok h)

/-- Blanks and a comment may follow a canonical statement. -/
lemma parse_render_append_comment {i : Instruction} (h : i.Readable) {blanks : List Char}
    (hblanks : ∀ c ∈ blanks, isBlank c = true) (comment : List Char) :
    parse (i.render ++ String.ofList (blanks ++ ';' :: comment)) = .ok (some i) := by
  have hline : (i.render ++ String.ofList (blanks ++ ';' :: comment)).toList =
      i.opcode.mnemonic.toList ++ (operandText i.operands ++ blanks) ++ ';' :: comment := by
    simp [i.toList_render]
  have hsemicolon : ';' ∉ operandText i.operands ++ blanks := by
    have hcode := semicolon_notMem_code (operandText i.operands)
    rw [code, takeWhile_operandText_of_readable h] at hcode
    simp [hcode, Blanks.semicolon hblanks]
  have hfirst : ∀ c ∈ (operandText i.operands ++ blanks).head?, isBlank c = true := by
    intro c hc
    rw [Option.mem_def, List.head?_append, Option.or_eq_some_iff] at hc
    rcases hc with hc | ⟨-, hc⟩
    · exact isBlank_of_mem_head?_operandText hc
    · exact hblanks c (List.mem_of_mem_head? hc)
  rw [parse_of_mnemonic hline hfirst hsemicolon (.inr ⟨comment, rfl⟩),
    parseOperands_operandText_append i.length_operands_le h hblanks]
  exact congrArg (fun i => Except.ok (some i)) i.ofOperands_operands

/-- Reading and writing are inverse exactly where they can be.  A canonical statement reads back as its
instruction if and only if the instruction is readable, and it is a faulty line otherwise.  Every
instruction that is read from any line is readable, so its canonical statement reads back. -/
theorem parse_render_eq_ok_iff_readable :
    (∀ i : Instruction,
      (parse i.render = .ok (some i) ↔ i.Readable) ∧
      (¬ i.Readable → ∃ fault, parse i.render = .error fault)) ∧
    (∀ (line : String) (i : Instruction), parse line = .ok (some i) →
      i.Readable ∧ parse i.render = .ok (some i)) := by
  have hback : ∀ i : Instruction, i.Readable → parse i.render = .ok (some i) := by
    intro i h
    rw [parse_render, parseOperands_operandText i.length_operands_le h]
    exact congrArg (fun i => Except.ok (some i)) i.ofOperands_operands
  have hfaulty : ∀ i : Instruction, ¬ i.Readable → ∃ fault, parse i.render = .error fault := by
    intro i h
    have hbad : ∃ operand ∈ i.operands, ¬ operand.Readable := by
      simpa [Instruction.Readable] using h
    obtain ⟨fault, hfault⟩ := exists_parseOperands_eq_error hbad
    exact ⟨fault, by rw [parse_render, hfault]; rfl⟩
  refine ⟨fun i => ⟨⟨fun hread => ?_, hback i⟩, hfaulty i⟩, fun line i hread => ?_⟩
  · exact readable_of_parse_eq_ok hread
  · exact ⟨readable_of_parse_eq_ok hread, hback i (readable_of_parse_eq_ok hread)⟩

/-- A spelling that is not canonical, and a cell that has the comma for its name. -/
theorem parse_render_eq_ok_iff_readable_examples :
    parse "  mov m1 ,+07 ; first" = .ok (some (.ofOperands .mov [.memory 1, .integer 7])) ∧
    parse (Instruction.ofOperands .mov [.memory 1, .integer 7]).render =
      .ok (some (.ofOperands .mov [.memory 1, .integer 7])) ∧
    ¬ (Instruction.ofOperands .push [.memory (-4)]).Readable ∧
    ∃ fault, parse (Instruction.ofOperands .push [.memory (-4)]).render = .error fault := by
  have hread : parse "  mov m1 ,+07 ; first" =
      .ok (some (.ofOperands .mov [.memory 1, .integer 7])) := by decide +kernel
  have hcomma : ¬ (Instruction.ofOperands .push [.memory (-4)]).Readable := by
    unfold Instruction.Readable
    decide +kernel
  refine ⟨hread, ?_, hcomma, ?_⟩
  · exact (parse_render_eq_ok_iff_readable.2 _ _ hread).2
  · exact (parse_render_eq_ok_iff_readable.1 _).2 hcomma

end Statement

end StackMachine
