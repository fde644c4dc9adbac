import StackMachine.Proofs.Canonical
import StackMachine.Proofs.Records

/-!
# Canonical texts

The canonical statement for an instruction cannot always be read as a statement: a cell may have a blank, a
comma or a semicolon for its name.  It tells which instruction it was written for all the same.

The question is where the text of the first operand ends, for `, ` may stand between two operands and a comma
may also be the name of a cell.  `Operand.first?` finds the end without a search for the comma: behind an `M`
there is one character, or an address in angle brackets, and the two are told apart by the character that
comes next (`first?_render_append`).  So operands that are written one after the other are found again
(`operandText_injective`), and with them the instruction (`Instruction.render_injective`).

The results are about records too, which have slots that are not in use: those that are built up operand by
operand have the text of an instruction, and then also its slots (`Record.eq_iff_same_text`).
-/

namespace StackMachine

open Text

/-! ### Where an operand ends -/

/-- The numeral of a word is read up to the character that comes behind it. -/
lemma Text.Decimal.int64?_takeWhile_ofInt_append (w : Int64) {stop : Char} {rest : List Char}
    (hstop : stop ∉ ofInt w.toInt) (hrest : ∀ c ∈ rest.head?, c = stop) :
    int64? ((ofInt w.toInt ++ rest).takeWhile (· ≠ stop)) = some w ∧
      (ofInt w.toInt ++ rest).dropWhile (· ≠ stop) = rest := by
  have hnumeral : ∀ c ∈ ofInt w.toInt, decide (c ≠ stop) = true := by
    intro c hc
    refine decide_eq_true ?_
    rintro rfl
    exact hstop hc
  have hhead : ∀ c ∈ rest.head?, decide (c ≠ stop) = false := by
    intro c hc
    simp [hrest c hc]
  obtain ⟨htake, hdrop⟩ := takeWhile_append_of_head hnumeral hhead
  exact ⟨by rw [htake, int64?_ofInt], hdrop⟩

namespace Operand

/-- What may follow an operand: nothing, or a comma with more behind it. -/
def EndsBefore (rest : List Char) : Prop :=
  ∀ c ∈ rest.head?, c = ','

/-- The operand whose text stands at the start of a text, and what follows it. -/
def first? : List Char → Option (Operand × List Char)
  | 'M' :: name :: rest =>
    if rest.head?.all (· = ',') then some (.memory (cellAddress name), rest)
    else
      (Decimal.int64? (rest.takeWhile (· ≠ '>'))).map fun address =>
        (.memory address, (rest.dropWhile (· ≠ '>')).tail)
  | text =>
    (Decimal.int64? (text.takeWhile (· ≠ ','))).map fun value =>
      (.integer value, text.dropWhile (· ≠ ','))

variable {rest : List Char}

/-- The text of an operand is found in front of what may follow it. -/
lemma first?_render_append (operand : Operand) (hrest : EndsBefore rest) :
    first? (operand.render.toList ++ rest) = some (operand, rest) := by
  cases operand with
  | memory address =>
    cases hname : cellName? address with
    | some name =>
      have haddress : cellAddress name = address := by
        rw [← Int64.toInt_inj, toInt_cellAddress, cellName?_eq_some_iff.1 hname]
        omega
      have hends : rest.head?.all (· = ',') = true := by
        simpa [Option.all_eq_true, EndsBefore] using hrest
      rw [toList_render_named hname]
      simp only [List.cons_append, List.nil_append, first?]
      rw [if_pos hends, haddress]
    | none =>
      -- an address begins with a digit or a sign, so it does not follow a name
      have hends : ¬ (Decimal.ofInt address.toInt ++ '>' :: rest).head?.all (· = ',') = true := by
        obtain ⟨c, numeral, hcons⟩ := List.exists_cons_of_ne_nil (Decimal.ofInt_ne_nil address.toInt)
        have hplain : PlainChar c := Decimal.plainChar_of_mem_ofInt (z := address.toInt) (by simp [hcons])
        have hcomma : c ≠ ',' := hplain.2.1
        simp [hcons, hcomma]
      have hbracket : '>' ∉ Decimal.ofInt address.toInt := Decimal.notMem_ofInt (by decide) (by decide)
      have hstop : ∀ c ∈ ('>' :: rest).head?, c = '>' := by simp
      obtain ⟨hread, hdrop⟩ := Decimal.int64?_takeWhile_ofInt_append address hbracket hstop
      rw [toList_render_unnamed hname]
      simp only [List.cons_append, List.append_assoc, List.nil_append, first?]
      rw [if_neg hends, hread, hdrop]
      rfl
  | integer value =>
    have hcomma : ',' ∉ Decimal.ofInt value.toInt := Decimal.notMem_ofInt (by decide) (by decide)
    obtain ⟨hread, hdrop⟩ := Decimal.int64?_takeWhile_ofInt_append value hcomma hrest
    rw [toList_render_integer]
    unfold first?
    split
    · next h =>
      -- a numeral does not begin as a cell does
      obtain ⟨c, numeral, hcons⟩ := List.exists_cons_of_ne_nil (Decimal.ofInt_ne_nil value.toInt)
      have hM : 'M' ∉ Decimal.ofInt value.toInt := Decimal.notMem_ofInt (by decide) (by decide)
      rw [hcons] at h hM
      obtain rfl : c = 'M' := (List.cons.inj h).1
      exact absurd List.mem_cons_self hM
    · rw [hread, hdrop]
      rfl

/-- So the operand and what follows it are determined by the text. -/
lemma render_append_inj {operand operand' : Operand} {rest' : List Char} (hrest : EndsBefore rest)
    (hrest' : EndsBefore rest')
    (h : operand.render.toList ++ rest = operand'.render.toList ++ rest') :
    operand = operand' ∧ rest = rest' := by
  have hfirst := first?_render_append operand hrest
  rw [h, first?_render_append operand' hrest'] at hfirst
  exact Prod.mk.inj (Option.some.inj hfirst.symm)

/-- A name alone and an address in brackets are never written alike. -/
lemma named_ne_unnamed (name : Char) (address : Int64) :
    String.ofList ['M', name] ≠ "M<" ++ String.ofList (Decimal.ofInt address.toInt) ++ ">" := by
  intro h
  have hlength := congrArg (fun text => text.toList.length) h
  simp at hlength

end Operand

/-! ### Operands one after the other -/

/-- What follows the first of some operands. -/
def operandsBehind : List Operand → List Char
  | [] => []
  | operand :: rest => ',' :: operandText (operand :: rest)

lemma operandText_cons (operand : Operand) (rest : List Operand) :
    operandText (operand :: rest) = ' ' :: (operand.render.toList ++ operandsBehind rest) := by
  cases rest with
  | nil => rw [operandText_singleton, operandsBehind, List.append_nil]
  | cons next rest => rw [operandText_cons_cons, operandsBehind, List.cons_append]

lemma endsBefore_operandsBehind (operands : List Operand) :
    Operand.EndsBefore (operandsBehind operands) := by
  cases operands with
  | nil => simp [Operand.EndsBefore, operandsBehind]
  | cons operand rest => simp [Operand.EndsBefore, operandsBehind]

/-- A comma sets off the operands that follow, so nothing else can stand for none. -/
lemma operandText_eq_of_operandsBehind_eq {operands operands' : List Operand}
    (h : operandsBehind operands = operandsBehind operands') :
    operandText operands = operandText operands' := by
  cases operands with
  | nil =>
    cases operands' with
    | nil => rfl
    | cons _ _ => cases h
  | cons _ _ =>
    cases operands' with
    | nil => cases h
    | cons _ _ => exact (List.cons.inj h).2

/-- Operands are determined by their text, however many there are. -/
lemma operandText_injective : Function.Injective operandText := by
  intro operands
  induction operands with
  | nil =>
    intro operands' h
    cases operands' with
    | nil => rfl
    | cons operand' rest' =>
      rw [operandText_cons] at h
      cases h
  | cons operand rest ih =>
    intro operands' h
    cases operands' with
    | nil =>
      rw [operandText_cons] at h
      cases h
    | cons operand' rest' =>
      rw [operandText_cons, operandText_cons] at h
      obtain ⟨rfl, hbehind⟩ := Operand.render_append_inj (endsBefore_operandsBehind rest)
        (endsBefore_operandsBehind rest') (List.cons.inj h).2
      rw [ih (operandText_eq_of_operandsBehind_eq hbehind)]

namespace Instruction

/-- An instruction is determined by its canonical statement. -/
lemma render_injective : Function.Injective render := by
  intro i i' h
  have htext := congrArg String.toList h
  rw [i.toList_render, i'.toList_render] at htext
  -- a mnemonic has no blank, so it is the span up to the first one
  have hspan : ∀ (op : Opcode), ∀ c ∈ op.mnemonic.toList, (! isBlank c) = true :=
    fun op c hc => by simp [(Statement.unbroken_mnemonic op c hc).1]
  have hhead : ∀ (operands : List Operand), ∀ c ∈ (operandText operands).head?, (! isBlank c) = false :=
    fun operands c hc => by simp [isBlank_of_mem_head?_operandText hc]
  obtain ⟨hmnemonic, hoperands⟩ :=
    append_inj_of_head (hspan i.opcode) (hhead i.operands) (hspan i'.opcode) (hhead i'.operands) htext
  have hopcode : i.opcode = i'.opcode := by
    have hfound := Opcode.ofMnemonic?_eq_some_iff.2 (String.toList_inj.1 hmnemonic)
    rw [Opcode.ofMnemonic?_eq_some_iff.2 rfl] at hfound
    exact (Option.some.inj hfound).symm
  rw [← i.ofOperands_operands, ← i'.ofOperands_operands, hopcode, operandText_injective hoperands]

end Instruction

/-! ### Records -/

namespace Record

/-- A record with the given operands, of which those that find no free slot are dropped. -/
def withOperands (op : Opcode) (operands : List Operand) : Record :=
  (new op).pushAll operands

/-- The records that are built without or with operands, and those to which operands are added later. -/
inductive Built : Record → Prop
  /-- A record without operands. -/
  | new (op : Opcode) : Built (new op)
  /-- A record with some operands. -/
  | withOperands (op : Opcode) (operands : List Operand) : Built (withOperands op operands)
  /-- One more operand, which is dropped if there is no free slot. -/
  | push {record : Record} (h : Built record) (operand : Operand) : Built (record.push operand)

variable {record record' : Record}

lemma withOperands_eq_ofInstruction (op : Opcode) (operands : List Operand) :
    withOperands op operands = ofInstruction (.ofOperands op operands) := by
  rw [withOperands, new_eq_ofInstruction, pushAll_ofInstruction]
  rfl

/-- What has been built is the record of an instruction, in the slots that are not in use too. -/
lemma Built.exists_eq_ofInstruction (h : Built record) : ∃ i, record = ofInstruction i := by
  induction h with
  | new op => exact ⟨_, new_eq_ofInstruction op⟩
  | withOperands op operands => exact ⟨_, withOperands_eq_ofInstruction op operands⟩
  | push _ operand ih =>
    obtain ⟨i, rfl⟩ := ih
    exact ⟨_, push_ofInstruction i operand⟩

lemma render?_ofInstruction (i : Instruction) : (ofInstruction i).render? = some i.render :=
  (answers_ofInstruction i).2.1

/-- The text of a record that has been built is the canonical statement for one instruction. -/
lemma Built.eq_of_render?_eq (h : Built record) (h' : Built record')
    (htext : record.render? = record'.render?) : record = record' := by
  obtain ⟨i, rfl⟩ := h.exists_eq_ofInstruction
  obtain ⟨i', rfl⟩ := h'.exists_eq_ofInstruction
  rw [render?_ofInstruction, render?_ofInstruction, Option.some.injEq] at htext
  rw [Instruction.render_injective htext]

/-- A statement with one operand is no statement with two, whatever names the cells have. -/
lemma render?_withOperands_ne (op op' : Opcode) (a b c : Operand) :
    (withOperands op [a]).render? ≠ (withOperands op' [b, c]).render? := by
  intro h
  have hone : (withOperands op [a]).count = 1 := rfl
  have htwo : (withOperands op' [b, c]).count = 2 := rfl
  have hsame := Built.eq_of_render?_eq (.withOperands op [a]) (.withOperands op' [b, c]) h
  rw [hsame, htwo] at hone
  cases hone

/-- A canonical text identifies an instruction.

Every record that is built up operand by operand has a text, and two of them that have the same text agree in
their opcodes, their counts and all their slots, in use or not.  A cell that is written with its name is never
written as another one is by its address, and one operand never as two are, not even if a comma or a blank is
the name of a cell. -/
theorem eq_iff_same_text :
    (∀ record record' : Record, Built record → Built record' →
      (record = record' ↔ ∃ text, record.render? = some text ∧ record'.render? = some text)) ∧
    (∀ (name : Char) (address : Int64),
      String.ofList ['M', name] ≠ "M<" ++ String.ofList (Decimal.ofInt address.toInt) ++ ">") ∧
    (∀ (op op' : Opcode) (a b c : Operand),
      (withOperands op [a]).render? ≠ (withOperands op' [b, c]).render?) := by
  refine ⟨fun record record' h h' => ⟨?_, ?_⟩, Operand.named_ne_unnamed, render?_withOperands_ne⟩
  · rintro rfl
    obtain ⟨i, rfl⟩ := h.exists_eq_ofInstruction
    exact ⟨i.render, render?_ofInstruction i, render?_ofInstruction i⟩
  · rintro ⟨text, htext, htext'⟩
    exact h.eq_of_render?_eq h' (htext.trans htext'.symm)

/-- Cells with a comma and with a blank for their names.  A third operand that is dropped leaves the text and
the slots of the record with two operands. -/
theorem eq_iff_same_text_of_comma :
    (((new .mov).push (.memory (-4))).push (.integer 5)).push (.memory 1) =
      withOperands .mov [.memory (-4), .integer 5] ∧
    (withOperands .mov [.memory (-4), .integer 5]).render? = some "MOV M,, 5" ∧
    (withOperands .mov [.memory (-4)]).render? = some "MOV M," ∧
    (withOperands .mov [.memory (-16)]).render? = some "MOV M " ∧
    withOperands .mov [.memory (-4)] ≠ withOperands .mov [.memory (-16)] := by
  have hcomma : (withOperands .mov [.memory (-4)]).render? = some "MOV M," := by decide +kernel
  have hblank : (withOperands .mov [.memory (-16)]).render? = some "MOV M " := by decide +kernel
  have htext : (withOperands .mov [.memory (-4), .integer 5]).render? = some "MOV M,, 5" := by
    decide +kernel
  have hpushed : ((((new .mov).push (.memory (-4))).push (.integer 5)).push (.memory 1)).render? =
      some "MOV M,, 5" := by decide +kernel
  have hbuilt : Built ((((new .mov).push (.memory (-4))).push (.integer 5)).push (.memory 1)) :=
    (((Built.new .mov).push _).push _).push _
  refine ⟨?_, htext, hcomma, hblank, fun heq => ?_⟩
  · exact (eq_iff_same_text.1 _ _ hbuilt (.withOperands _ _)).2 ⟨_, hpushed, htext⟩
  · obtain ⟨text, h, h'⟩ := (eq_iff_same_text.1 _ _ (.withOperands _ _) (.withOperands _ _)).1 heq
    rw [hcomma] at h
    rw [hblank, ← h] at h'
    exact absurd h' (by decide)

end Record

end StackMachine
