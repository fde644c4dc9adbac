import Mathlib.Tactic.Common
import StackMachine.Text.Lines

/-!
# Lines of longer texts and of encoded texts

A text that ends in a line feed can be cut off from what follows it: the lines of the whole are its lines
and then those of the rest (`lines_append`).  A carriage return at the end of the first text would be lost
if a line feed came next, so the condition cannot be dropped.

`lines_flatMap` is about texts whose characters are encoded one by one, by an encoding that keeps line
ends apart (`KeepsLineEnds`).  UTF-8 is one: the bytes of a line feed and of a carriage return occur in no
other character.  So a text that is encoded has the lines of the text, each of them encoded
(`byteLines_toUTF8`).
-/

namespace StackMachine.Text

variable {α β : Type} [DecidableEq α] {lf cr : α} {lf' cr' : β}

/-! ### One line more -/

/-- A character that does not belong to a line end goes to the front of the first line. -/
lemma lines_cons {a : α} {rest : List α} (hlf : a ≠ lf) (hcr : ¬ (a = cr ∧ rest.head? = some lf)) :
    lines lf cr (a :: rest) = (a :: (lines lf cr rest).headD []) :: (lines lf cr rest).tail := by
  rw [lines, if_neg hlf, if_neg hcr]
  rcases lines lf cr rest with _ | ⟨line, more⟩
  · rfl
  · rfl

/-- A carriage return before a line feed belongs to the line end. -/
lemma lines_cr_cons {rest : List α} (hne : cr ≠ lf) (hrest : rest.head? = some lf) :
    lines lf cr (cr :: rest) = lines lf cr rest := by
  rw [lines, if_neg hne, if_pos ⟨rfl, hrest⟩]

/-- So do several characters of which none belongs to a line end. -/
lemma lines_append_of_plain {piece rest : List α} (hne : piece ≠ [])
    (hplain : ∀ a ∈ piece, a ≠ lf ∧ a ≠ cr) :
    lines lf cr (piece ++ rest) =
      (piece ++ (lines lf cr rest).headD []) :: (lines lf cr rest).tail := by
  induction piece with
  | nil => exact absurd rfl hne
  | cons a piece ih =>
    obtain ⟨hlf, hcr⟩ := hplain a List.mem_cons_self
    have hnot : ¬ (a = cr ∧ (piece ++ rest).head? = some lf) := fun h => hcr h.1
    rw [List.cons_append, lines_cons hlf hnot]
    rcases eq_or_ne piece [] with rfl | hpiece
    · rfl
    · rw [ih hpiece fun b hb => hplain b (List.mem_cons_of_mem a hb)]
      rfl

/-! ### Texts one after the other -/

/-- The text is empty or ends in a line feed. -/
def Complete (lf : α) (text : List α) : Prop :=
  text = [] ∨ text.getLast? = some lf

instance (lf : α) (text : List α) : Decidable (Complete lf text) :=
  inferInstanceAs (Decidable (text = [] ∨ text.getLast? = some lf))

/-- The lines of a complete text come before those of what follows it. -/
theorem lines_append {text : List α} (h : Complete lf text) (rest : List α) :
    lines lf cr (text ++ rest) = lines lf cr text ++ lines lf cr rest := by
  rcases h with rfl | hlast
  · rw [lines_nil, List.nil_append, List.nil_append]
  obtain ⟨start, rfl⟩ := List.getLast?_eq_some_iff.1 hlast
  clear hlast
  induction start with
  | nil =>
    rw [List.nil_append, List.singleton_append, lines_lf_cons, lines_lf_cons, lines_nil]
    rfl
  | cons a start ih =>
    have hne : lines lf cr (start ++ [lf]) ≠ [] := by simp [lines_eq_nil_iff]
    have hhead : (start ++ [lf] ++ rest).head? = (start ++ [lf]).head? := by
      rw [List.head?_append, Option.or_of_isSome (by simp)]
    simp only [List.cons_append]
    by_cases hlf : a = lf
    · subst hlf
      rw [lines_lf_cons, lines_lf_cons, ih, List.cons_append]
    by_cases hcr : a = cr ∧ (start ++ [lf]).head? = some lf
    · obtain ⟨rfl, hstart⟩ := hcr
      rw [lines_cr_cons hlf (hhead.trans hstart), lines_cr_cons hlf hstart, ih]
    · rw [lines_cons hlf (by rwa [hhead]), lines_cons hlf hcr, ih]
      obtain ⟨line, more, hlines⟩ := List.exists_cons_of_ne_nil hne
      rw [hlines]
      rfl

/-! ### Encoded texts -/

/-- An encoding of characters keeps line ends apart: line feed and carriage return have codes of their
own, which do not occur in the code of any other character. -/
structure KeepsLineEnds (encode : α → List β) (lf cr : α) (lf' cr' : β) : Prop where
  lf_eq : encode lf = [lf']
  cr_eq : encode cr = [cr']
  plain {a : α} (hlf : a ≠ lf) (hcr : a ≠ cr) :
    encode a ≠ [] ∧ ∀ b ∈ encode a, b ≠ lf' ∧ b ≠ cr'

variable {encode : α → List β}

/-- An encoded text begins with a line feed if the text does. -/
lemma KeepsLineEnds.head?_flatMap_eq_iff (h : KeepsLineEnds encode lf cr lf' cr') (hne : cr' ≠ lf')
    (text : List α) : (text.flatMap encode).head? = some lf' ↔ text.head? = some lf := by
  rcases text with _ | ⟨a, text⟩
  · simp
  · rw [List.flatMap_cons, List.head?_cons, Option.some.injEq]
    by_cases hlf : a = lf
    · simp [hlf, h.lf_eq]
    by_cases hcr : a = cr
    · subst hcr
      simp [h.cr_eq, hne, hlf]
    · obtain ⟨hcode, hplain⟩ := h.plain hlf hcr
      obtain ⟨b, code, hencode⟩ := List.exists_cons_of_ne_nil hcode
      have hb : b ≠ lf' := (hplain b (by simp [hencode])).1
      simp [hencode, hb, hlf]

/-- An encoded text has the lines of the text, each of them encoded. -/
theorem lines_flatMap [DecidableEq β] (h : KeepsLineEnds encode lf cr lf' cr') (hne : cr ≠ lf)
    (hne' : cr' ≠ lf') (text : List α) :
    lines lf' cr' (text.flatMap encode) = (lines lf cr text).map (·.flatMap encode) := by
  have hfirst : ∀ all : List (List α), (all.map (·.flatMap encode)).headD [] =
      (all.headD []).flatMap encode := by
    rintro (_ | ⟨line, more⟩) <;> rfl
  induction text with
  | nil => rfl
  | cons a text ih =>
    have hhead := h.head?_flatMap_eq_iff hne' text
    rw [List.flatMap_cons]
    by_cases hlf : a = lf
    · subst hlf
      rw [h.lf_eq, List.singleton_append, lines_lf_cons, lines_lf_cons, ih]
      rfl
    by_cases hcr : a = cr
    · subst hcr
      rw [h.cr_eq, List.singleton_append]
      by_cases hend : text.head? = some lf
      · rw [lines_cr_cons hne' (hhead.2 hend), lines_cr_cons hne hend, ih]
      · rw [lines_cons hne' (fun hc => hend (hhead.1 hc.2)), lines_cons hne (fun hc => hend hc.2), ih,
          hfirst, List.map_cons, List.flatMap_cons, h.cr_eq, List.map_tail]
        rfl
    · obtain ⟨hcode, hplain⟩ := h.plain hlf hcr
      rw [lines_append_of_plain hcode hplain, lines_cons hlf (fun hc => hcr hc.1), ih, hfirst,
        List.map_cons, List.flatMap_cons, List.map_tail]

/-! ### Bytes -/

/-- A byte of a character is its code point, or else it is no ASCII character. -/
lemma toNat_of_mem_utf8EncodeChar {c : Char} {b : UInt8} (h : b ∈ String.utf8EncodeChar c) :
    b.toNat = c.toNat ∨ 128 ≤ b.toNat := by
  have hbyte : ∀ n : Nat, n < 256 → (UInt8.ofNat n).toNat = n := by
    intro n hn
    rw [UInt8.toNat_ofNat', Nat.mod_eq_of_lt hn]
  simp only [String.utf8EncodeChar] at h
  split at h
  · next hascii =>
    left
    rw [List.mem_singleton.1 h]
    exact hbyte _ (by omega)
  · -- a code of two, three or four bytes
    right
    split at h
    · simp only [List.mem_cons, List.not_mem_nil, or_false] at h
      rcases h with rfl | rfl <;> rw [hbyte _ (by omega)] <;> omega
    split at h
    · simp only [List.mem_cons, List.not_mem_nil, or_false] at h
      rcases h with rfl | rfl | rfl <;> rw [hbyte _ (by omega)] <;> omega
    · simp only [List.mem_cons, List.not_mem_nil, or_false] at h
      rcases h with rfl | rfl | rfl | rfl <;> rw [hbyte _ (by omega)] <;> omega

/-- UTF-8 keeps line ends apart. -/
lemma keepsLineEnds_utf8 : KeepsLineEnds String.utf8EncodeChar '\n' '\r' 10 13 where
  lf_eq := by decide
  cr_eq := by decide
  plain {c} hlf hcr := by
    refine ⟨String.utf8EncodeChar_ne_nil, ?_⟩
    intro b hb
    have hlf' : c.toNat ≠ 10 := fun h => hlf (Char.toNat_inj.1 h)
    have hcr' : c.toNat ≠ 13 := fun h => hcr (Char.toNat_inj.1 h)
    have hbyte := toNat_of_mem_utf8EncodeChar hb
    constructor
    · rintro rfl
      have h10 : (10 : UInt8).toNat = 10 := rfl
      omega
    · rintro rfl
      have h13 : (13 : UInt8).toNat = 13 := rfl
      omega

/-- A text that is encoded has the lines of the text, each of them encoded. -/
theorem byteLines_toUTF8 (text : String) :
    byteLines text.toUTF8 = (charLines text).map String.toUTF8 := by
  have hbytes : text.toUTF8.data.toList = text.toList.flatMap String.utf8EncodeChar := by
    rw [String.toUTF8_eq_toByteArray, ← String.utf8Encode_toList, List.utf8Encode,
      List.data_toByteArray]
  have hencode : ∀ line : List Char, (String.ofList line).toUTF8 =
      (line.flatMap String.utf8EncodeChar).toByteArray := by
    intro line
    rw [String.toUTF8_eq_toByteArray, String.toByteArray_ofList, List.utf8Encode]
  rw [byteLines, hbytes, lines_flatMap keepsLineEnds_utf8 (by decide) (by decide), charLines,
    List.map_map, List.map_map]
  apply List.map_congr_left
  intro line _
  exact (hencode line).symm

/-- The bytes are empty or end in a line feed. -/
def CompleteBytes (bytes : ByteArray) : Prop :=
  Complete 10 bytes.data.toList

instance (bytes : ByteArray) : Decidable (CompleteBytes bytes) :=
  inferInstanceAs (Decidable (Complete 10 bytes.data.toList))

/-- The lines of complete bytes come before those of what follows them. -/
theorem byteLines_append {bytes : ByteArray} (h : CompleteBytes bytes) (rest : ByteArray) :
    byteLines (bytes ++ rest) = byteLines bytes ++ byteLines rest := by
  simp only [byteLines]
  rw [ByteArray.data_append, Array.toList_append, lines_append h, List.map_append]

/-- The encoding of a text is valid, and the text is read back from it. -/
lemma fromUTF8?_toUTF8 (text : String) : String.fromUTF8? text.toUTF8 = some text := by
  rw [String.fromUTF8?, String.toUTF8_eq_toByteArray, dif_pos text.isValidUTF8]
  rfl

end StackMachine.Text
