import Mathlib.Data.List.Forall2
import Mathlib.Data.List.Infix
import StackMachine.Proofs.Splits

/-!
# Which words are keywords

A word is a keyword if its upper case is a mnemonic (`Names`).  The upper case is that of Unicode, so this
is a statement about all characters: some that are no ASCII letters have one as their upper case, and some
become several letters, which might fill several places of a mnemonic.

`Opcode.Spells` says letter by letter which words there are for an opcode, and does not mention upper case.
The result is that these are all keywords (`opcode?_eq_some_iff_spells`).  Two facts about the tables carry
it.  Beyond ASCII only the long s and the dotless i have one ASCII letter as their upper case
(`upperCase_eq_singleton_iff`).  And what a character with a longer upper case becomes is found in no
mnemonic (`exists_upperCase_eq_singleton`): an expansion within ASCII has `SS`, `FF`, `FI`, `FL` or `ST` in
it, and no mnemonic has.
-/

namespace StackMachine

namespace Text

/-! ### Characters for a letter -/

/-- The character is written for an upper-case letter: it is that letter or its ASCII lower case, or it is
the long s for an `S` or the dotless i for an `I`. -/
def StandsFor (c letter : Char) : Prop :=
  c = letter ∨ c = letter.toLower ∨ (c = '\u017F' ∧ letter = 'S') ∨ (c = '\u0131' ∧ letter = 'I')

instance (c letter : Char) : Decidable (StandsFor c letter) :=
  inferInstanceAs (Decidable (_ ∨ _ ∨ _ ∨ _))

lemma val_between_iff {low c high : Char} :
    low.val ≤ c.val ∧ c.val ≤ high.val ↔ low.toNat ≤ c.toNat ∧ c.toNat ≤ high.toNat := by
  rw [UInt32.le_iff_toNat_le, UInt32.le_iff_toNat_le, Char.toNat_val, Char.toNat_val, Char.toNat_val]

lemma isUpper_iff_toNat {c : Char} : c.isUpper = true ↔ 65 ≤ c.toNat ∧ c.toNat ≤ 90 :=
  decide_eq_true_iff.trans val_between_iff

lemma toNat_toUpper (c : Char) :
    c.toUpper.toNat = if 97 ≤ c.toNat ∧ c.toNat ≤ 122 then c.toNat - 32 else c.toNat := by
  have hlower : 'a'.val ≤ c.val ∧ c.val ≤ 'z'.val ↔ 97 ≤ c.toNat ∧ c.toNat ≤ 122 := val_between_iff
  unfold Char.toUpper
  split
  · next h =>
    have hrange := hlower.1 h
    -- the distance of the two alphabets, as an unsigned word
    have hshift : ('A'.val - 'a'.val).toNat = 2 ^ 32 - 32 := by decide
    rw [if_pos hrange, Char.toNat_mk, UInt32.toNat_add, Char.toNat_val, hshift]
    omega
  · next h => rw [if_neg (mt hlower.2 h)]

lemma toNat_toLower (c : Char) :
    c.toLower.toNat = if 65 ≤ c.toNat ∧ c.toNat ≤ 90 then c.toNat + 32 else c.toNat := by
  have hupper : 'A'.val ≤ c.val ∧ c.val ≤ 'Z'.val ↔ 65 ≤ c.toNat ∧ c.toNat ≤ 90 := val_between_iff
  unfold Char.toLower
  split
  · next h =>
    have hrange := hupper.1 h
    have hshift : ('a'.val - 'A'.val).toNat = 32 := by decide
    rw [if_pos hrange, Char.toNat_mk, UInt32.toNat_add, Char.toNat_val, hshift]
    omega
  · next h => rw [if_neg (mt hupper.2 h)]

/-- Within ASCII an upper-case letter is the upper case of itself and of its lower case. -/
lemma toUpper_eq_iff {c letter : Char} (hletter : letter.isUpper = true) :
    c.toUpper = letter ↔ c = letter ∨ c = letter.toLower := by
  have hcode := isUpper_iff_toNat.1 hletter
  rw [← Char.toNat_inj, ← Char.toNat_inj, ← Char.toNat_inj, toNat_toUpper, toNat_toLower, if_pos hcode]
  split <;> omega

/-- A character with a code point other than 0 is given by this code point only. -/
lemma eq_toNat_of_ofNat_eq {n : Nat} {c : Char} (h : Char.ofNat n = c) (hc : 0 < c.toNat) :
    n = c.toNat := by
  by_cases hvalid : n.isValidChar
  · rw [← h, Char.ofNat, dif_pos hvalid]
    rfl
  · have hnull : c.toNat = 0 := by
      rw [← h, Char.ofNat, dif_neg hvalid]
      rfl
    omega

/-! ### The tables -/

/-- Of the characters that have one other character as their upper case, two have an ASCII letter. -/
lemma image_of_mem_shifts {r : CaseShift} (hr : r ∈ shifts) {code : Nat} (hcode : r.covers code = true)
    (himage : r.image code < 0x80) :
    (code = 0x17F ∧ r.image code = 0x53) ∨ (code = 0x131 ∧ r.image code = 0x49) := by
  have htable : ∀ r ∈ shifts, 0x80 ≤ (r.first : Int) + r.shift ∨
      r = ⟨0x17F, 0x17F, 1, -300⟩ ∨ r = ⟨0x131, 0x131, 1, -232⟩ := by decide +kernel
  have hrange : r.first ≤ code ∧ code ≤ r.last := by
    simp only [CaseShift.covers, Bool.and_eq_true, decide_eq_true_eq] at hcode
    exact hcode.1
  rcases htable r hr with hhigh | rfl | rfl
  · rw [CaseShift.image] at himage
    omega
  · obtain rfl : code = 0x17F := Nat.le_antisymm hrange.2 hrange.1
    exact .inl ⟨rfl, rfl⟩
  · obtain rfl : code = 0x131 := Nat.le_antisymm hrange.2 hrange.1
    exact .inr ⟨rfl, rfl⟩

/-- A character that expands becomes more than one character, and no mnemonic has these side by side. -/
lemma expansion_of_mem {code : Nat} {codes : List Nat} (h : (code, codes) ∈ expansions) :
    1 < codes.length ∧ ∀ op : Opcode, ¬ codes.map Char.ofNat <:+: op.mnemonic.toList := by
  have htable : ∀ entry ∈ expansions, 1 < entry.2.length ∧
      ∀ op ∈ Opcode.all, ¬ entry.2.map Char.ofNat <:+: op.mnemonic.toList := by decide +kernel
  obtain ⟨hlength, hapart⟩ := htable _ h
  exact ⟨hlength, fun op => hapart op op.mem_all⟩

lemma mem_of_lookup_eq_some {α β : Type} [BEq α] [LawfulBEq α] {l : List (α × β)} {a : α} {b : β}
    (h : l.lookup a = some b) : (a, b) ∈ l := by
  obtain ⟨l₁, l₂, rfl, -⟩ := List.lookup_eq_some_iff.1 h
  simp

/-- How the upper case of a character is found. -/
lemma upperCase_cases (c : Char) :
    (c.toNat < 0x80 ∧ upperCase c = [c.toUpper]) ∨
    (∃ r ∈ shifts, r.covers c.toNat = true ∧ upperCase c = [Char.ofNat (r.image c.toNat)]) ∨
    (∃ codes, (c.toNat, codes) ∈ expansions ∧ upperCase c = codes.map Char.ofNat) ∨
    upperCase c = [c] := by
  unfold upperCase
  split
  · next hlow => exact .inl ⟨hlow, rfl⟩
  · refine .inr ?_
    split
    · next r hr =>
      have hcovers := List.find?_some hr
      exact .inl ⟨r, List.mem_of_find?_eq_some hr, hcovers, rfl⟩
    · refine .inr ?_
      split
      · next codes hcodes => exact .inl ⟨codes, mem_of_lookup_eq_some hcodes, rfl⟩
      · exact .inr rfl

variable {c letter : Char}

lemma upperCase_of_ascii (h : c.toNat < 0x80) : upperCase c = [c.toUpper] := by
  rw [upperCase, if_pos h]

/-- The characters whose upper case is a given ASCII letter. -/
lemma upperCase_eq_singleton_iff (hletter : letter.isUpper = true) :
    upperCase c = [letter] ↔ StandsFor c letter := by
  have hcode := isUpper_iff_toNat.1 hletter
  constructor
  · intro h
    rcases upperCase_cases c with ⟨-, hascii⟩ | ⟨r, hr, hcovers, hshift⟩ | ⟨codes, hcodes, hexpansion⟩ |
      hself
    · rw [hascii, List.singleton_inj, toUpper_eq_iff hletter] at h
      exact h.elim .inl fun hlower => .inr (.inl hlower)
    · rw [hshift, List.singleton_inj] at h
      have himage := eq_toNat_of_ofNat_eq h (by omega)
      refine .inr (.inr ?_)
      rcases image_of_mem_shifts hr hcovers (by omega) with ⟨hc, hS⟩ | ⟨hc, hI⟩
      · exact .inl ⟨Char.toNat_inj.1 hc, Char.toNat_inj.1 (himage.symm.trans hS)⟩
      · exact .inr ⟨Char.toNat_inj.1 hc, Char.toNat_inj.1 (himage.symm.trans hI)⟩
    · have hlength := congrArg List.length (hexpansion.symm.trans h)
      rw [List.length_map, List.length_singleton] at hlength
      have hlong := (expansion_of_mem hcodes).1
      omega
    · rw [hself, List.singleton_inj] at h
      exact .inl h
  · have hascii : c.toNat < 0x80 → (c = letter ∨ c = letter.toLower) → upperCase c = [letter] := by
      intro hlow hc
      rw [upperCase_of_ascii hlow, (toUpper_eq_iff hletter).2 hc]
    rintro (rfl | rfl | ⟨rfl, rfl⟩ | ⟨rfl, rfl⟩)
    · exact hascii (by omega) (.inl rfl)
    · refine hascii ?_ (.inr rfl)
      rw [toNat_toLower, if_pos hcode]
      omega
    · decide +kernel
    · decide +kernel

/-- A character whose upper case is part of a mnemonic does not expand. -/
lemma exists_upperCase_eq_singleton {op : Opcode} (h : upperCase c <:+: op.mnemonic.toList) :
    ∃ letter, upperCase c = [letter] := by
  rcases upperCase_cases c with ⟨-, hascii⟩ | ⟨_, -, -, hshift⟩ | ⟨codes, hcodes, hexpansion⟩ | hself
  · exact ⟨_, hascii⟩
  · exact ⟨_, hshift⟩
  · rw [hexpansion] at h
    exact absurd h ((expansion_of_mem hcodes).2 op)
  · exact ⟨_, hself⟩

end Text

open Text

namespace Opcode

/-- The words for an opcode: they have a character for each letter of the mnemonic, in the same order, and
each of them stands for its letter. -/
def Spells (word : List Char) (op : Opcode) : Prop :=
  List.Forall₂ StandsFor word op.mnemonic.toList

/-- A mnemonic consists of upper-case letters. -/
lemma isUpper_of_mem_mnemonic {op : Opcode} {letter : Char} (h : letter ∈ op.mnemonic.toList) :
    letter.isUpper = true := by
  have hall : op.mnemonic.toList.all Char.isUpper = true := by cases op <;> decide
  exact List.all_eq_true.1 hall letter h

end Opcode

namespace Statement

variable {word letters : List Char} {op : Opcode}

/-- If no character of a word expands, its upper case is found letter by letter. -/
lemma forall₂_of_toUpperCase_eq (hsingle : ∀ c ∈ word, ∃ letter, upperCase c = [letter])
    (hupper : ∀ letter ∈ letters, letter.isUpper = true) (h : toUpperCase word = letters) :
    List.Forall₂ StandsFor word letters := by
  induction word generalizing letters with
  | nil =>
    obtain rfl : [] = letters := h
    exact .nil
  | cons c word ih =>
    obtain ⟨⟨letter, hc⟩, hword⟩ := List.forall_mem_cons.1 hsingle
    have hcons : toUpperCase (c :: word) = letter :: toUpperCase word := by
      rw [toUpperCase, List.flatMap_cons, hc]
      rfl
    obtain rfl : letter :: toUpperCase word = letters := hcons.symm.trans h
    obtain ⟨hletter, hrest⟩ := List.forall_mem_cons.1 hupper
    exact .cons ((upperCase_eq_singleton_iff hletter).1 hc) (ih hword hrest rfl)

lemma toUpperCase_of_forall₂ (hupper : ∀ letter ∈ letters, letter.isUpper = true)
    (h : List.Forall₂ StandsFor word letters) : toUpperCase word = letters := by
  induction h with
  | nil => rfl
  | @cons c letter word letters hc _ ih =>
    obtain ⟨hletter, hrest⟩ := List.forall_mem_cons.1 hupper
    rw [toUpperCase, List.flatMap_cons, (upperCase_eq_singleton_iff hletter).2 hc, ← toUpperCase, ih hrest]
    rfl

/-- What a character of a keyword becomes is part of the mnemonic. -/
lemma Names.infix_mnemonic (h : Names word op) {c : Char} (hc : c ∈ word) :
    upperCase c <:+: op.mnemonic.toList := by
  rw [← h]
  exact List.infix_flatMap_of_mem hc upperCase

lemma names_iff_spells : Names word op ↔ op.Spells word := by
  have hupper : ∀ letter ∈ op.mnemonic.toList, letter.isUpper = true :=
    fun letter hmem => Opcode.isUpper_of_mem_mnemonic hmem
  refine ⟨fun h => ?_, toUpperCase_of_forall₂ hupper⟩
  have hsingle : ∀ c ∈ word, ∃ letter, upperCase c = [letter] :=
    fun c hc => exists_upperCase_eq_singleton (h.infix_mnemonic hc)
  exact forall₂_of_toUpperCase_eq hsingle hupper h

/-- The keywords are the words that are spelled letter by letter for a mnemonic.

A character takes part in a keyword only if its upper case is a single letter of the mnemonic and it is
that letter, its ASCII lower case, or the long s or the dotless i in the place of an `S` or an `I`.  No word
is spelled for two opcodes. -/
theorem opcode?_eq_some_iff_spells :
    (∀ (word : List Char) (op : Opcode), opcode? word = some op ↔ op.Spells word) ∧
    (∀ (word : List Char) (op : Opcode), opcode? word = some op → ∀ c ∈ word,
      ∃ letter ∈ op.mnemonic.toList, upperCase c = [letter] ∧ StandsFor c letter) ∧
    (∀ (word : List Char) (op op' : Opcode), op.Spells word → op'.Spells word → op = op') := by
  have hspells : ∀ (word : List Char) (op : Opcode), opcode? word = some op ↔ op.Spells word :=
    fun word op => opcode?_eq_some_iff.trans names_iff_spells
  refine ⟨hspells, fun word op h c hc => ?_, fun word op op' h h' => ?_⟩
  · have hinfix := (opcode?_eq_some_iff.1 h).infix_mnemonic hc
    obtain ⟨letter, hletter⟩ := exists_upperCase_eq_singleton hinfix
    have hmem : letter ∈ op.mnemonic.toList := hinfix.subset (by simp [hletter])
    have hupper := Opcode.isUpper_of_mem_mnemonic hmem
    exact ⟨letter, hmem, hletter, (upperCase_eq_singleton_iff hupper).1 hletter⟩
  · have hop := (hspells word op).2 h
    rw [(hspells word op').2 h'] at hop
    exact (Option.some.inj hop).symm

/-- Keywords with a long s and a dotless i, and a word with a character that becomes two letters. -/
theorem opcode?_eq_some_iff_spells_examples :
    opcode? "Pu\u017Fh".toList = some .push ∧ opcode? "ex\u0131T".toList = some .exit ∧
    (∃ letter ∈ Opcode.push.mnemonic.toList, upperCase '\u017F' = [letter] ∧ StandsFor '\u017F' letter) ∧
    (∀ op, Opcode.Spells "ex\u0131T".toList op → op = .exit) ∧
    toUpperCase "jpo\u00DF".toList = "JPOSS".toList ∧ ∀ op, opcode? "jpo\u00DF".toList ≠ some op := by
  have hpush : opcode? "Pu\u017Fh".toList = some .push := by decide +kernel
  have hexit : opcode? "ex\u0131T".toList = some .exit := by decide +kernel
  obtain ⟨hspells, hletters, hunique⟩ := opcode?_eq_some_iff_spells
  refine ⟨hpush, hexit, hletters _ _ hpush _ (by decide), fun op hop => ?_, by decide +kernel, ?_⟩
  · exact hunique _ _ _ hop ((hspells _ _).1 hexit)
  · intro op hop
    obtain ⟨letter, -, hletter, -⟩ := hletters _ _ hop '\u00DF' (by decide)
    have htwo : (upperCase '\u00DF').length = 2 := by decide +kernel
    rw [hletter] at htwo
    cases htwo

end Statement

end StackMachine
