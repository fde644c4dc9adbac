import StackMachine.Proofs.InstructionTable
import StackMachine.Saved
import StackMachine.Statement

/-!
# Records and their slots

A `Record` has two slots and counts those in use.  Everything that looks at its operands looks at its first
slots, as many as it counts, and there is no answer if it counts more than it has (`Record.Safe`).

A record that is built up operand by operand never counts more, for an operand that finds no free slot is
dropped (`Record.push`).  Such records are those of instructions (`Record.pushAll_ofInstruction`), where the
bound is part of the type.  A saved record is read whatever its count is.  It is safe if and only if the
count is at most two, and operands that are added later change nothing about that
(`Record.safe_iff_not_overcounts`).
-/

namespace StackMachine

/-- The first elements of two sequences are found among the first elements of the first one. -/
lemma take_take_append {α : Type} (n : Nat) (as bs : List α) :
    (as.take n ++ bs).take n = (as ++ bs).take n := by
  by_cases h : as.length ≤ n
  · rw [List.take_of_length_le h]
  · have hle : n ≤ as.length := by omega
    have hlength : n ≤ (as.take n).length := by
      rw [List.length_take]
      omega
    rw [List.take_append_of_le_length hlength, List.take_append_of_le_length hle, List.take_take,
      Nat.min_self]

/-- Operands that are added one after the other are added at once. -/
lemma Instruction.ofOperands_push_append (i : Instruction) (operand : Operand) (rest : List Operand) :
    ofOperands i.opcode ((i.push operand).operands ++ rest) =
      ofOperands i.opcode (i.operands ++ operand :: rest) := by
  have htake := take_take_append maxOperands (i.operands ++ [operand]) rest
  simp only [ofOperands, push, mk.injEq, true_and]
  rw [htake, List.append_assoc, List.singleton_append]

/-- A count is saved as the integer that it is. -/
lemma Format.exists_of_count_read? {saved : Json} {n : UInt64} (h : count.read? saved = some n) :
    ∃ value, saved = .int value ∧ (n.toNat : Int) = value := by
  simp only [count] at h
  split at h
  · next value =>
    split at h
    · next hrange =>
      obtain rfl := Option.some.inj h
      have hlt : value.toNat < UInt64.size := by omega
      exact ⟨value, rfl, by rw [UInt64.toNat_ofNat_of_lt' hlt]; omega⟩
    · cases h
  · cases h

namespace Record

/-! ### Looking at a record -/

/-- The operands of a record: what is in its first slots, as many as it counts.  There is no answer if it
has fewer. -/
def operands? (record : Record) : Option (List Operand) :=
  if record.count.toNat ≤ record.slots.toList.length then
    some (record.slots.toList.take record.count.toNat)
  else none

/-- The canonical statement for a record. -/
def render? (record : Record) : Option String :=
  record.operands?.map fun operands => (Instruction.ofOperands record.opcode operands).render

/-- What comes of carrying out a record on a state. -/
def effect? (record : Record) (s : State) : Option Effect :=
  record.operands?.map fun operands =>
    (record.opcode.effect s operands).recording record.opcode.category

/-- The record can be looked at and carried out: there is an answer to everything that is asked about its
operands. -/
structure Safe (record : Record) : Prop where
  /-- It counts no more operands than an instruction can have. -/
  count_le : record.count.toNat ≤ maxOperands
  operands : record.operands?.isSome = true
  render : record.render?.isSome = true
  effect : ∀ s, (record.effect? s).isSome = true

variable {record : Record}

lemma operands?_of_count_le (h : record.count.toNat ≤ maxOperands) :
    record.operands? = some (record.slots.toList.take record.count.toNat) := by
  rw [operands?, if_pos (by rw [Vector.length_toList]; exact h)]

/-- The count decides about everything else. -/
lemma safe_iff_count_le : record.Safe ↔ record.count.toNat ≤ maxOperands := by
  refine ⟨Safe.count_le, fun h => ?_⟩
  have hoperands := operands?_of_count_le h
  exact ⟨h, by rw [hoperands]; rfl, by rw [render?, hoperands]; rfl, fun s => by
    rw [effect?, hoperands]; rfl⟩

/-! ### Building a record -/

/-- A record without operands. -/
def new (op : Opcode) : Record where
  opcode := op
  slots := Vector.replicate maxOperands (.integer 0)
  count := 0

/-- Puts an operand into the next free slot.  If there is none, the operand is dropped. -/
def push (record : Record) (operand : Operand) : Record :=
  if h : record.count.toNat < maxOperands then
    { record with
      slots := record.slots.set record.count.toNat operand h
      count := record.count + 1 }
  else record

/-- Adds operands in their order. -/
def pushAll (record : Record) (operands : List Operand) : Record :=
  operands.foldl push record

/-- Added operands change nothing about whether a record is safe. -/
lemma safe_push_iff (operand : Operand) : (record.push operand).Safe ↔ record.Safe := by
  by_cases h : record.count.toNat < maxOperands
  · have hcount : (record.push operand).count.toNat = record.count.toNat + 1 := by
      have hlt : record.count.toNat < 2 := h
      rw [push, dif_pos h, UInt64.toNat_add, UInt64.toNat_one]
      omega
    rw [safe_iff_count_le, safe_iff_count_le, hcount]
    exact ⟨fun _ => Nat.le_of_lt h, fun _ => h⟩
  · rw [push, dif_neg h]

lemma safe_pushAll_iff (operands : List Operand) : (record.pushAll operands).Safe ↔ record.Safe := by
  induction operands generalizing record with
  | nil => rfl
  | cons operand rest ih => exact ih.trans (safe_push_iff operand)

/-! ### Records of instructions -/

lemma new_eq_ofInstruction (op : Opcode) : new op = ofInstruction (.ofOperands op []) := rfl

/-- To add an operand to the record of an instruction is to add it to the instruction. -/
lemma push_ofInstruction (i : Instruction) (operand : Operand) :
    (ofInstruction i).push operand = ofInstruction (i.push operand) := by
  obtain ⟨op, operands, h⟩ := i
  match operands, h with
  | [], _ => rfl
  | [_], _ => rfl
  | [_, _], _ => rfl

/-- So it is for many operands, of which only the first find a slot. -/
lemma pushAll_ofInstruction (i : Instruction) (operands : List Operand) :
    (ofInstruction i).pushAll operands =
      ofInstruction (.ofOperands i.opcode (i.operands ++ operands)) := by
  induction operands generalizing i with
  | nil => rw [List.append_nil, Instruction.ofOperands_operands, pushAll, List.foldl_nil]
  | cons operand rest ih =>
    have hpush : (ofInstruction i).pushAll (operand :: rest) =
        (ofInstruction (i.push operand)).pushAll rest :=
      congrArg (·.pushAll rest) (push_ofInstruction i operand)
    rw [hpush, ih (i.push operand), ← Instruction.ofOperands_push_append i operand rest]
    rfl

/-- The record of an instruction has the operands, the text and the effect of the instruction. -/
lemma answers_ofInstruction (i : Instruction) :
    (ofInstruction i).operands? = some i.operands ∧ (ofInstruction i).render? = some i.render ∧
      ∀ s, (ofInstruction i).effect? s = some (i.effect s) := by
  have hoperands : (ofInstruction i).operands? = some i.operands := by
    obtain ⟨op, operands, h⟩ := i
    match operands, h with
    | [], _ => rfl
    | [_], _ => rfl
    | [_, _], _ => rfl
  refine ⟨hoperands, ?_, fun s => ?_⟩
  · rw [render?, hoperands, Option.map_some]
    exact congrArg (fun i => some (Instruction.render i)) i.ofOperands_operands
  · rw [effect?, hoperands]
    rfl

lemma safe_ofInstruction (i : Instruction) : (ofInstruction i).Safe := by
  have hle : i.operands.length ≤ maxOperands := i.length_operands_le
  have hsize : i.operands.length < UInt64.size := Nat.lt_of_le_of_lt hle (by decide)
  have hcount : (ofInstruction i).count.toNat = i.operands.length := UInt64.toNat_ofNat_of_lt' hsize
  obtain ⟨hoperands, hrender, heffect⟩ := answers_ofInstruction i
  exact ⟨hcount ▸ hle, by rw [hoperands]; rfl, by rw [hrender]; rfl, fun s => by rw [heffect s]; rfl⟩

/-! ### Saved records -/

/-- A saved record is read with the count that is saved. -/
lemma exists_count_of_read? {saved : Json} (h : format.read? saved = some record) :
    ∃ opcode slots count, Format.fields? ["opcode", "slots", "len"] saved =
      some [opcode, slots, .int count] ∧ (record.count.toNat : Int) = count := by
  simp only [format] at h
  split at h
  · next opcode slots len hfields =>
    simp only [Option.bind_eq_bind, Option.bind_eq_some_iff, Option.pure_def, Option.some.injEq] at h
    obtain ⟨op, -, operands, -, n, hn, rfl⟩ := h
    obtain ⟨count, rfl, hcount⟩ := Format.exists_of_count_read? hn
    exact ⟨opcode, slots, count, hfields, hcount⟩
  · cases h

/-! ### Where records come from -/

/-- The ways to come by a record, before operands are added to it. -/
inductive Origin where
  /-- It is new. -/
  | blank (op : Opcode)
  /-- It is the record of the instruction that a line holds. -/
  | line (text : String)
  /-- It is read from its saved form. -/
  | saved (saved : Json)

namespace Origin

/-- The record, if there is one. -/
def record? : Origin → Option Record
  | blank op => some (new op)
  | line text =>
    match Statement.parse text with
    | .ok (some i) => some (ofInstruction i)
    | _ => none
  | saved json => format.read? json

/-- The record is read from a saved form whose count is more than two. -/
def Overcounts : Origin → Prop
  | saved json => ∃ opcode slots count,
      Format.fields? ["opcode", "slots", "len"] json = some [opcode, slots, .int count] ∧ 2 < count
  | _ => False

end Origin

/-- The record of a line is that of an instruction. -/
lemma exists_of_record?_line {text : String} (h : (Origin.line text).record? = some record) :
    ∃ i, record = ofInstruction i := by
  simp only [Origin.record?] at h
  split at h
  · next i _ => exact ⟨i, (Option.some.inj h).symm⟩
  · cases h

/-- Where a record comes from tells whether it is safe.  It is not safe if and only if it is read from a saved
form that counts more than two operands.  Operands that are added later change nothing about that. -/
theorem safe_iff_not_overcounts {origin : Origin} {record : Record} (h : origin.record? = some record)
    (operands : List Operand) : (record.pushAll operands).Safe ↔ ¬ origin.Overcounts := by
  cases origin with
  | blank op =>
    obtain rfl : new op = record := Option.some.inj h
    rw [new_eq_ofInstruction, pushAll_ofInstruction]
    exact ⟨fun _ => id, fun _ => safe_ofInstruction _⟩
  | line text =>
    obtain ⟨i, rfl⟩ := exists_of_record?_line h
    rw [pushAll_ofInstruction]
    exact ⟨fun _ => id, fun _ => safe_ofInstruction _⟩
  | saved json =>
    obtain ⟨opcode, slots, count, hfields, hcount⟩ := exists_count_of_read? h
    rw [safe_pushAll_iff, safe_iff_count_le, maxOperands]
    constructor
    · rintro hle ⟨opcode', slots', count', hfields', hlt⟩
      have hsame := hfields.symm.trans hfields'
      simp only [Option.some.injEq, List.cons.injEq, Json.int.injEq] at hsame
      obtain ⟨-, -, rfl, -⟩ := hsame
      omega
    · intro hnot
      by_contra hlt
      exact hnot ⟨opcode, slots, count, hfields, by omega⟩

/-- A line whose instruction is offered two more operands, and a record that is saved with one operand and
gets another. -/
theorem safe_iff_not_overcounts_examples :
    ((ofInstruction (.ofOperands .push [.integer 1])).pushAll [.memory 2, .memory 3]).Safe ∧
    ∃ record, (Origin.saved (.arr [.str "Mov",
        .arr [.obj [("Memory", .int 1)], .obj [("Memory", .int 7)]], .int 1])).record? = some record ∧
      (record.pushAll [.integer 5]).Safe := by
  have hline : (Origin.line "PUSH 1").record? =
      some (ofInstruction (.ofOperands .push [.integer 1])) := by decide +kernel
  have hsaved : (Origin.saved (.arr [.str "Mov",
      .arr [.obj [("Memory", .int 1)], .obj [("Memory", .int 7)]], .int 1])).record? =
      some ⟨.mov, #v[.memory 1, .memory 7], 1⟩ := by decide +kernel
  refine ⟨(safe_iff_not_overcounts hline _).2 id, _, hsaved, (safe_iff_not_overcounts hsaved _).2 ?_⟩
  rintro ⟨opcode, slots, count, hfields, hlt⟩
  simp [Format.fields?] at hfields
  omega

/-- A record that claims a third operand: it is read, and nothing can be asked about its operands. -/
theorem exists_read_not_safe :
    ∃ record, format.read? (.obj [("opcode", .str "Mov"),
        ("slots", .arr [.obj [("Integer", .int 0)], .obj [("Integer", .int 0)]]), ("len", .int 3)]) =
      some record ∧ ¬ record.count.toNat ≤ maxOperands ∧ record.operands? = none ∧
      record.render? = none ∧ ∀ s, record.effect? s = none := by
  refine ⟨⟨.mov, Vector.replicate maxOperands (.integer 0), 3⟩, by decide +kernel, by decide, rfl, rfl, ?_⟩
  intro s
  rfl

end Record

end StackMachine
