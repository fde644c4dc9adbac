import Mathlib.Data.List.Forall2
import Mathlib.Data.List.Perm.Basic
import StackMachine.Proofs.Calls
import StackMachine.Proofs.Records

/-!
# What saved forms stand for

A saved form may be spelled in several ways.  A name stands for itself or is the only key of an object.  The
parts of a record come in the order of its keys, or under the keys in any order and with other members beside
them.  The spellings are given here without regard to how they are read, each type's from those of its
parts: `SpellsWord`, `SpellsName`, `SpellsList` and `SpellsParts` for the pieces, and from these
`Operand.Spelled`, `Record.Spelled` and `State.Spelled`.

A format reads the spellings of a value as that value, and nothing else (`Format.Reads`).  What it writes is
one of them, the canonical one.  So a saved form that can be read at all is saved again in its canonical form,
which stands for the same value and does not change any more (`Format.Keeps`).
-/

namespace StackMachine

variable {α β : Type} {Spells : α → Json → Prop}

/-! ### Spellings -/

/-- A word is spelled as an integer. -/
def SpellsWord (w : Int64) (saved : Json) : Prop :=
  saved = .int w.toInt

/-- The spellings of a name. -/
inductive SpellsName (name : String) : Json → Prop
  /-- The name itself. -/
  | text : SpellsName name (.str name)
  /-- An object that has the name as its only key, with no value. -/
  | key : SpellsName name (.obj [(name, .null)])

/-- A list is spelled as an array of the spellings of its items. -/
inductive SpellsList (Spells : α → Json → Prop) (as : List α) : Json → Prop
  | array {items : List Json} (hitems : List.Forall₂ Spells as items) : SpellsList Spells as (.arr items)

/-- The spellings of parts that belong to some keys. -/
inductive SpellsParts (keys : List String) (parts : List Json) : Json → Prop
  /-- The parts in the order of the keys, and nothing else. -/
  | array (hlength : parts.length = keys.length) : SpellsParts keys parts (.arr parts)
  /-- The parts under their keys, in any order, and beside them any members with other keys. -/
  | object {members others : List (String × Json)} (hlength : parts.length = keys.length)
      (hperm : members.Perm (keys.zip parts ++ others)) (hothers : ∀ member ∈ others, member.1 ∉ keys) :
      SpellsParts keys parts (.obj members)

/-- An operand is spelled as its kind with its word. -/
inductive Operand.Spelled : Operand → Json → Prop
  | memory {address : Int64} {saved : Json} (hsaved : SpellsWord address saved) :
      Spelled (.memory address) (.obj [("Memory", saved)])
  | integer {value : Int64} {saved : Json} (hsaved : SpellsWord value saved) :
      Spelled (.integer value) (.obj [("Integer", saved)])

/-- A record is spelled as its opcode, its slots and its count. -/
inductive Record.Spelled (record : Record) (saved : Json) : Prop
  | intro {opcode slots : Json}
      (hparts : SpellsParts ["opcode", "slots", "len"] [opcode, slots, .int record.count.toNat] saved)
      (hopcode : SpellsName record.opcode.name opcode)
      (hslots : SpellsList Operand.Spelled record.slots.toList slots)

/-- A state is spelled as its memory, its stack from the bottom to the top, and its flags. -/
inductive State.Spelled (s : State) (saved : Json) : Prop
  | intro {memory stack category comparison : Json}
      (hparts : SpellsParts ["memory", "stack", "last_category", "comparison"]
        [memory, stack, category, comparison] saved)
      (hmemory : SpellsList SpellsWord s.memory.toList memory)
      (hstack : SpellsList SpellsWord s.stack.reverse stack)
      (hcategory : SpellsName s.lastCategory.name category)
      (hcomparison : SpellsName s.comparison.name comparison)

/-! ### Members -/

/-- To collect a list of values is to find each of them. -/
lemma mapM_eq_some_iff {f : α → Option β} {as : List α} {bs : List β} :
    as.mapM f = some bs ↔ List.Forall₂ (fun a b => f a = some b) as bs := by
  induction as generalizing bs with
  | nil => simp [eq_comm]
  | cons a as ih =>
    simp only [List.mapM_cons, Option.bind_eq_bind, Option.bind_eq_some_iff, Option.pure_def,
      Option.some.injEq, List.forall₂_cons_left_iff, ih]
    constructor
    · rintro ⟨b, hb, bs', hbs, rfl⟩
      exact ⟨b, bs', hb, hbs, rfl⟩
    · rintro ⟨b, bs', hb, hbs, rfl⟩
      exact ⟨b, hb, bs', hbs, rfl⟩

namespace Format

variable {members : List (String × Json)} {key : String} {value : Json} {keys : List String}
  {parts : List Json} {saved : Json}

lemma member?_eq_some_iff :
    member? members key = some value ↔ members.filter (·.1 == key) = [(key, value)] := by
  unfold member?
  constructor
  · intro h
    split at h
    · next key' value' hfilter =>
      have hkey : key' = key := by
        have hmem : (key', value') ∈ members.filter (·.1 == key) := by simp [hfilter]
        simpa using (List.mem_filter.1 hmem).2
      rw [hfilter, hkey, Option.some.inj h]
    · cases h
  · intro h
    rw [h]

/-- Members can be sorted by keys that differ. -/
lemma perm_flatMap_filter (members : List (String × Json)) (hkeys : keys.Nodup) :
    members.Perm (keys.flatMap (fun key => members.filter (·.1 == key)) ++
      members.filter (·.1 ∉ keys)) := by
  induction keys with
  | nil => simp
  | cons key keys ih =>
    obtain ⟨hkey, hkeys⟩ := List.nodup_cons.1 hkeys
    have hfirst : (members.filter (·.1 ∉ keys)).filter (·.1 == key) = members.filter (·.1 == key) := by
      rw [List.filter_filter]
      refine List.filter_congr fun member _ => ?_
      by_cases heq : member.1 = key <;> simp [heq, hkey]
    have hothers : (members.filter (·.1 ∉ keys)).filter (fun member => ! (member.1 == key)) =
        members.filter (·.1 ∉ key :: keys) := by
      rw [List.filter_filter]
      refine List.filter_congr fun member _ => ?_
      by_cases heq : member.1 = key <;> simp [heq]
    have hsplit := List.filter_append_perm (·.1 == key) (members.filter (·.1 ∉ keys))
    rw [hfirst, hothers] at hsplit
    rw [List.flatMap_cons]
    refine (ih hkeys).trans ((hsplit.symm.append_left _).trans ?_)
    rw [← List.append_assoc]
    exact List.perm_append_comm.append_right _

/-- The members with a key that occurs once. -/
lemma filter_key_of_mem (hkeys : (members.map Prod.fst).Nodup) (h : (key, value) ∈ members) :
    members.filter (·.1 == key) = [(key, value)] := by
  induction members with
  | nil => cases h
  | cons member members ih =>
    obtain ⟨hkey, hkeys⟩ := List.nodup_cons.1 hkeys
    rcases List.mem_cons.1 h with rfl | h
    · have hnone : members.filter (·.1 == key) = [] := by
        refine List.filter_eq_nil_iff.2 fun member hmem heq => hkey ?_
        exact List.mem_map.2 ⟨member, hmem, by simpa using heq⟩
      rw [List.filter_cons_of_pos (by simp), hnone]
    · have hne : member.1 ≠ key := by
        intro heq
        exact hkey (List.mem_map.2 ⟨(key, value), h, heq.symm⟩)
      rw [List.filter_cons_of_neg (by simpa using hne), ih hkeys h]

/-- The parts are found under their keys if and only if the members are these parts, in any order, and
others. -/
lemma forall₂_member?_iff (hkeys : keys.Nodup) :
    List.Forall₂ (fun key part => member? members key = some part) keys parts ↔
      parts.length = keys.length ∧ ∃ others, members.Perm (keys.zip parts ++ others) ∧
        ∀ member ∈ others, member.1 ∉ keys := by
  simp only [member?_eq_some_iff]
  constructor
  · intro h
    have hzip : keys.flatMap (fun key => members.filter (·.1 == key)) = keys.zip parts := by
      clear hkeys
      induction h with
      | nil => rfl
      | cons hfilter _ ih => rw [List.flatMap_cons, hfilter, ih, List.zip_cons_cons, List.singleton_append]
    refine ⟨h.length_eq.symm, members.filter (·.1 ∉ keys), hzip ▸ perm_flatMap_filter members hkeys, ?_⟩
    intro member hmem
    simpa using (List.mem_filter.1 hmem).2
  · rintro ⟨hlength, others, hperm, hothers⟩
    refine List.forall₂_iff_zip.2 ⟨hlength.symm, fun {key part} hmem => ?_⟩
    have hnone : others.filter (·.1 == key) = [] := by
      refine List.filter_eq_nil_iff.2 fun member hmember heq => hothers member hmember ?_
      rw [beq_iff_eq.1 heq]
      exact (List.of_mem_zip hmem).1
    have hone : (keys.zip parts).filter (·.1 == key) = [(key, part)] :=
      filter_key_of_mem (by rwa [List.map_fst_zip hlength.ge]) hmem
    have hfilter := hperm.filter (·.1 == key)
    rw [List.filter_append, hnone, hone, List.append_nil] at hfilter
    exact List.perm_singleton.1 hfilter

/-- The parts of a saved record are found in each of its spellings, and nowhere else. -/
lemma fields?_eq_some_iff (hkeys : keys.Nodup) :
    fields? keys saved = some parts ↔ SpellsParts keys parts saved := by
  unfold fields?
  split
  · next members =>
    rw [mapM_eq_some_iff, forall₂_member?_iff hkeys]
    constructor
    · rintro ⟨hlength, others, hperm, hothers⟩
      exact .object hlength hperm hothers
    · rintro ⟨⟩
      next others hlength hothers hperm => exact ⟨hlength, others, hperm, hothers⟩
  · next items =>
    constructor
    · intro h
      split at h
      · next hlength =>
        obtain rfl := Option.some.inj h
        exact .array hlength
      · cases h
    · rintro ⟨⟩
      next hlength => rw [if_pos hlength]
  · next hobj harr =>
    refine iff_of_false (by simp) ?_
    rintro (_ | _)
    · exact harr _ rfl
    · exact hobj _ rfl

/-! ### Formats -/

/-- A format reads the spellings of a value as that value, and nothing else. -/
def Reads (format : Format α) (Spells : α → Json → Prop) : Prop :=
  ∀ (saved : Json) (a : α), format.read? saved = some a ↔ Spells a saved

/-- What becomes of a saved form when it is read and saved again. -/
def resave? (format : Format α) (saved : Json) : Option Json :=
  (format.read? saved).map format.write

/-- What is saved in a format comes back unchanged. -/
structure Keeps (format : Format α) (Spells : α → Json → Prop) : Prop where
  /-- Every value comes back from its saved form. -/
  faithful : format.Faithful
  /-- The values come back from all their spellings, and from nothing else. -/
  reads : format.Reads Spells
  /-- Each spelling is saved again in the form that is written.  This form is read as the same value, and it
  is saved again as it is. -/
  resaves (saved : Json) (a : α) (hsaved : Spells a saved) :
    format.resave? saved = some (format.write a) ∧ format.read? (format.write a) = some a ∧
      format.resave? (format.write a) = some (format.write a)

/-- It is enough that a format is faithful and reads just the spellings. -/
lemma Keeps.of {format : Format α} (hfaithful : format.Faithful) (hreads : format.Reads Spells) :
    format.Keeps Spells where
  faithful := hfaithful
  reads := hreads
  resaves saved a hsaved := by
    refine ⟨?_, hfaithful a, ?_⟩
    · rw [resave?, (hreads saved a).2 hsaved, Option.map_some]
    · rw [resave?, hfaithful a, Option.map_some]

lemma word_reads : word.Reads SpellsWord := by
  intro saved w
  simp only [word, SpellsWord]
  split
  · rw [Text.Decimal.word?_eq_some_iff, Json.int.injEq, eq_comm]
  · next hint =>
    refine iff_of_false (by simp) ?_
    rintro rfl
    exact hint _ rfl

lemma count_reads : count.Reads fun n saved => saved = .int n.toNat := by
  intro saved n
  constructor
  · intro h
    obtain ⟨value, rfl, hvalue⟩ := exists_of_count_read? h
    rw [hvalue]
  · rintro rfl
    exact count_faithful n

/-- Names that tell all values apart are read in both of their spellings. -/
lemma named_reads {all : List α} {name : α → String} (hall : ∀ a, a ∈ all)
    (hname : ∀ a b, name a = name b → a = b) : (named all name).Reads fun a => SpellsName (name a) := by
  have hfind : ∀ word a, all.find? (name · == word) = some a ↔ word = name a := by
    intro word a
    constructor
    · intro h
      have hword := List.find?_some h
      simp only [beq_iff_eq] at hword
      exact hword.symm
    · rintro rfl
      exact named_faithful hall hname a
  intro saved a
  simp only [named]
  split
  · rw [hfind]
    constructor
    · rintro rfl
      exact .text
    · rintro ⟨⟩
      rfl
  · rw [hfind]
    constructor
    · rintro rfl
      exact .key
    · rintro ⟨⟩
      rfl
  · next hstr hobj =>
    refine iff_of_false (by simp) ?_
    rintro (_ | _)
    · exact hstr _ rfl
    · exact hobj _ rfl

lemma list_reads {item : Format α} (h : item.Reads Spells) : item.list.Reads (SpellsList Spells) := by
  have hitems : ∀ as items, List.Forall₂ (fun saved a => item.read? saved = some a) items as ↔
      List.Forall₂ Spells as items := by
    intro as items
    constructor
    · intro hforall
      exact List.Forall₂.flip (hforall.imp fun saved a => (h saved a).1)
    · intro hforall
      exact List.Forall₂.flip (hforall.imp fun a saved => (h saved a).2)
  intro saved as
  simp only [list]
  split
  · rw [mapM_eq_some_iff, hitems]
    constructor
    · exact .array
    · rintro ⟨hforall⟩
      exact hforall
  · next harr =>
    refine iff_of_false (by simp) ?_
    rintro ⟨_⟩
    exact harr _ rfl

lemma vector_reads {item : Format α} (h : item.Reads Spells) (n : Nat) :
    (item.vector n).Reads fun as => SpellsList Spells as.toList := by
  intro saved v
  simp only [vector, Option.bind_eq_some_iff, ← list_reads h saved]
  constructor
  · rintro ⟨as, has, hv⟩
    split at hv
    · rw [← Option.some.inj hv]
      exact has
    · cases hv
  · intro hv
    exact ⟨v.toList, hv, by simp [Vector.toList]⟩

end Format

/-! ### The machine's data -/

lemma Opcode.format_reads : Opcode.format.Reads fun op => SpellsName op.name :=
  Format.named_reads mem_all fun a b => by cases a <;> cases b <;> decide

lemma Category.format_reads : Category.format.Reads fun category => SpellsName category.name :=
  Format.named_reads (fun a => by cases a <;> decide) fun a b => by cases a <;> cases b <;> decide

lemma Comparison.format_reads : Comparison.format.Reads fun result => SpellsName result.name :=
  Format.named_reads (fun a => by cases a <;> decide) fun a b => by cases a <;> cases b <;> decide

lemma Operand.format_reads : Operand.format.Reads Operand.Spelled := by
  intro saved operand
  constructor
  · intro h
    simp only [Operand.format] at h
    split at h
    · obtain ⟨address, hword, rfl⟩ := Option.map_eq_some_iff.1 h
      exact .memory ((Format.word_reads _ _).1 hword)
    · obtain ⟨value, hword, rfl⟩ := Option.map_eq_some_iff.1 h
      exact .integer ((Format.word_reads _ _).1 hword)
    · cases h
  · rintro (hword | hword)
    · simp only [Operand.format, (Format.word_reads _ _).2 hword, Option.map_some]
    · simp only [Operand.format, (Format.word_reads _ _).2 hword, Option.map_some]

lemma Record.format_reads : Record.format.Reads Record.Spelled := by
  intro saved record
  have hkeys : ["opcode", "slots", "len"].Nodup := by decide
  have hslots := Format.vector_reads Operand.format_reads maxOperands
  constructor
  · intro h
    simp only [Record.format] at h
    split at h
    · next opcode slots count hfields =>
      simp only [Option.bind_eq_bind, Option.bind_eq_some_iff, Option.pure_def, Option.some.injEq] at h
      obtain ⟨op, hop, operands, hoperands, n, hn, rfl⟩ := h
      obtain rfl := (Format.count_reads _ _).1 hn
      exact ⟨(Format.fields?_eq_some_iff hkeys).1 hfields, (Opcode.format_reads _ _).1 hop,
        (hslots _ _).1 hoperands⟩
    · cases h
  · rintro ⟨hparts, hopcode, hspelled⟩
    simp only [Record.format, (Format.fields?_eq_some_iff hkeys).2 hparts,
      (Opcode.format_reads _ _).2 hopcode, (hslots _ _).2 hspelled, (Format.count_reads _ _).2 rfl]
    rfl

lemma State.format_reads : State.format.Reads State.Spelled := by
  intro saved s
  have hkeys : ["memory", "stack", "last_category", "comparison"].Nodup := by decide
  have hcells := Format.vector_reads Format.word_reads cellCount
  have hwords := Format.list_reads Format.word_reads
  constructor
  · intro h
    simp only [State.format] at h
    split at h
    · next memory stack category comparison hfields =>
      simp only [Option.bind_eq_bind, Option.bind_eq_some_iff, Option.pure_def, Option.some.injEq] at h
      obtain ⟨cells, hcells', words, hwords', c, hc, r, hr, rfl⟩ := h
      exact ⟨(Format.fields?_eq_some_iff hkeys).1 hfields, (hcells _ _).1 hcells',
        by simpa using (hwords _ _).1 hwords', (Category.format_reads _ _).1 hc,
        (Comparison.format_reads _ _).1 hr⟩
    · cases h
  · rintro ⟨hparts, hmemory, hstack, hcategory, hcomparison⟩
    simp only [State.format, (Format.fields?_eq_some_iff hkeys).2 hparts, (hcells _ _).2 hmemory,
      (hwords _ _).2 hstack, (Category.format_reads _ _).2 hcategory,
      (Comparison.format_reads _ _).2 hcomparison]
    simp

/-- What is saved comes back unchanged: opcodes, categories, comparisons, operands, records with any count,
and states with any memory and any stack.

Every value comes back from its saved form.  A saved form can be read if and only if it spells a value, in
any of the ways to do so; then it is saved again in the form that is written, which is read as the same
value and saved again as it is.

In particular, whatever calls a machine that was new has been given, its state comes back from its saved
form, with every cell, with the stack in its order, and with both flags. -/
theorem Format.saved_values_come_back :
    Opcode.format.Keeps (fun op => SpellsName op.name) ∧
    Category.format.Keeps (fun category => SpellsName category.name) ∧
    Comparison.format.Keeps (fun result => SpellsName result.name) ∧
    Operand.format.Keeps Operand.Spelled ∧
    Record.format.Keeps Record.Spelled ∧
    State.format.Keeps State.Spelled ∧
    ∀ calls : List Call, State.format.read? (State.format.write (State.initial.afterCalls calls)) =
      some (State.initial.afterCalls calls) :=
  ⟨.of Opcode.format_faithful Opcode.format_reads, .of Category.format_faithful Category.format_reads,
    .of Comparison.format_faithful Comparison.format_reads,
    .of Operand.format_faithful Operand.format_reads, .of Record.format_faithful Record.format_reads,
    .of State.format_faithful State.format_reads, fun _ => State.format_faithful _⟩

/-- A record that claims more operands than it can have, under keys in another order, with its opcode as a
key and with a member that belongs to nothing. -/
theorem Format.saved_values_come_back_from_other_spelling :
    ∃ saved, saved = Json.obj [("len", .int 18446744073709551615), ("note", .str "len"),
        ("slots", .arr [.obj [("Memory", .int (-9223372036854775808))], .obj [("Integer", .int 0)]]),
        ("opcode", .obj [("Mov", .null)])] ∧
      ∃ canonical, Record.format.resave? saved = some canonical ∧
        canonical = .obj [("opcode", .str "Mov"),
          ("slots", .arr [.obj [("Memory", .int (-9223372036854775808))], .obj [("Integer", .int 0)]]),
          ("len", .int 18446744073709551615)] ∧
        Record.format.resave? canonical = some canonical := by
  obtain ⟨-, -, -, -, hrecord, -, -⟩ := saved_values_come_back
  let record : Record := ⟨.mov, #v[.memory (-9223372036854775808), .integer 0], 18446744073709551615⟩
  have hread : Record.format.read? (Json.obj [("len", .int 18446744073709551615), ("note", .str "len"),
      ("slots", .arr [.obj [("Memory", .int (-9223372036854775808))], .obj [("Integer", .int 0)]]),
      ("opcode", .obj [("Mov", .null)])]) = some record := by decide +kernel
  obtain ⟨hresave, -, hcanonical⟩ := hrecord.resaves _ record ((hrecord.reads _ _).1 hread)
  exact ⟨_, rfl, _, hresave, rfl, hcanonical⟩

end StackMachine
