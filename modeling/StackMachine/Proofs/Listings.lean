import Mathlib.Tactic.Common
import StackMachine.CommandLine
import StackMachine.Proofs.Texts

/-!
# What a listing holds

A listing has an entry for each line that holds a statement, under the position of the line.  So to look
up a position in the listing is to read the line at it (`entryAt?_listing`), and a listing without
failures belongs to a program that can be read throughout (`failures_listing_eq_nil_iff`).

The last part is about the texts of a listing: places that differ are shown by texts that differ
(`renderLanding_injective`).
-/

namespace StackMachine

/-! ### Entries -/

namespace Entry

variable {position : Nat} {text : String}

lemma ofLine?_eq_instruction_iff {i : Instruction} :
    ofLine? position text = some (.instruction i) ↔ Statement.parse text = .ok (some i) := by
  unfold ofLine?
  split <;> simp_all

/-- A failure names the line that it comes from. -/
lemma ofLine?_eq_failure_iff {f : LineFailure} :
    ofLine? position text = some (.failure f) ↔
      ∃ fault, Statement.parse text = .error fault ∧ f = ⟨position + 1, text, fault⟩ := by
  unfold ofLine?
  constructor
  · intro h
    split at h
    · next fault hparse =>
      have heq := Entry.failure.inj (Option.some.inj h)
      exact ⟨fault, hparse, heq.symm⟩
    · cases h
    · cases h
  · rintro ⟨fault, hparse, rfl⟩
    rw [hparse]

end Entry

namespace Listing

/-- What the listing has under a position. -/
def entryAt? (listing : Listing) (position : Nat) : Option Entry :=
  listing.entries.lookup position

/-- The values that belong to the elements of a list are found under the places of the elements. -/
lemma lookup_filterMap_zipIdx {α β : Type} (f : Nat → α → Option β) (l : List α)
    (start position : Nat) :
    ((l.zipIdx start).filterMap fun (a, n) => (f n a).map (n, ·)).lookup position =
      if start ≤ position then l[position - start]?.bind (f position) else none := by
  induction l generalizing start with
  | nil => simp
  | cons a l ih =>
    rw [List.zipIdx_cons, List.filterMap_cons]
    rcases Nat.lt_trichotomy position start with hlt | rfl | hgt
    · have hne : (position == start) = false := by simpa using Nat.ne_of_lt hlt
      rw [if_neg (by omega), ← (ih (start + 1)).trans (if_neg (by omega))]
      cases hf : f start a <;> simp [hf, List.lookup_cons, hne]
    · have hrest := (ih (position + 1)).trans (if_neg (by omega))
      rw [if_pos (Nat.le_refl position), Nat.sub_self, List.getElem?_cons_zero, Option.bind_some]
      cases hf : f position a with
      | none => simpa [hf] using hrest
      | some b => simp [hf]
    · obtain ⟨k, rfl⟩ : ∃ k, position = start + 1 + k := ⟨position - (start + 1), by omega⟩
      have hne : (start + 1 + k == start) = false := by simpa using Nat.ne_of_gt hgt
      have hk : start + 1 + k - start = k + 1 := by omega
      have hrest := ih (start + 1)
      rw [if_pos (by omega), Nat.add_sub_cancel_left] at hrest
      rw [if_pos (by omega), hk, List.getElem?_cons_succ, ← hrest]
      cases hf : f start a <;> simp [hf, List.lookup_cons, hne]

end Listing

namespace Program

variable {program : Program} {position : Nat}

/-- To look up a position in the listing is to read the line at it. -/
theorem entryAt?_listing (program : Program) (position : Nat) :
    program.listing.entryAt? position =
      program.lines[position]?.bind (Entry.ofLine? position) := by
  have hlookup := Listing.lookup_filterMap_zipIdx Entry.ofLine? program.lines.toList 0 position
  rw [if_pos (Nat.zero_le position), Nat.sub_zero, Array.getElem?_toList] at hlookup
  exact hlookup

/-- The entries of a listing come from the lines at their positions. -/
lemma mem_entries_listing_iff {entry : Entry} :
    (position, entry) ∈ program.listing.entries ↔
      ∃ text, program.lines[position]? = some text ∧ Entry.ofLine? position text = some entry := by
  simp only [listing, List.mem_filterMap, Prod.exists, List.mem_zipIdx_iff_getElem?,
    Array.getElem?_toList, Option.map_eq_some_iff, Prod.mk.injEq]
  constructor
  · rintro ⟨text, n, hline, e, hentry, rfl, rfl⟩
    exact ⟨text, hline, hentry⟩
  · rintro ⟨text, hline, hentry⟩
    exact ⟨text, position, hline, entry, hentry, rfl, rfl⟩

/-- An instruction in a listing is what its line holds. -/
lemma mem_entries_listing_instruction_iff {i : Instruction} :
    (position, .instruction i) ∈ program.listing.entries ↔
      ∃ text, program.lines[position]? = some text ∧ Statement.parse text = .ok (some i) := by
  rw [mem_entries_listing_iff]
  simp only [Entry.ofLine?_eq_instruction_iff]

/-- A listing has no failures if and only if every line of the program can be read. -/
theorem failures_listing_eq_nil_iff :
    program.listing.failures = [] ↔
      ∀ (position : Nat) (text : String), program.lines[position]? = some text →
        ∃ s, Statement.parse text = .ok s := by
  simp only [Listing.failures, List.filterMap_eq_nil_iff, Prod.forall]
  constructor
  · intro h position text hline
    cases hparse : Statement.parse text with
    | ok s => exact ⟨s, rfl⟩
    | error fault =>
      have hentry : Entry.ofLine? position text = some (.failure ⟨position + 1, text, fault⟩) :=
        Entry.ofLine?_eq_failure_iff.2 ⟨fault, hparse, rfl⟩
      have hnone := h position _ (mem_entries_listing_iff.2 ⟨text, hline, hentry⟩)
      cases hnone
  · intro h position entry hmem
    obtain ⟨text, hline, hentry⟩ := mem_entries_listing_iff.1 hmem
    cases entry with
    | instruction i => rfl
    | failure f =>
      obtain ⟨fault, hfault, -⟩ := Entry.ofLine?_eq_failure_iff.1 hentry
      obtain ⟨s, hs⟩ := h position text hline
      rw [hfault] at hs
      cases hs

end Program

/-- A listing is good, as far as its exit code goes, if and only if it has no failures. -/
lemma Listing.exitCode_outcome_eq_zero_iff (listing : Listing) :
    listing.outcome.exitCode = 0 ↔ listing.failures = [] := by
  rw [outcome, Outcome.ofText, ← List.isEmpty_iff]
  cases listing.failures.isEmpty <;> simp

/-! ### Texts -/

namespace Listing

open Text (Decimal.ofNat)

lemma toList_renderNumber (position : Nat) :
    (renderNumber position).toList =
      List.replicate (4 - (Decimal.ofNat (position + 1)).length) '0' ++
        Decimal.ofNat (position + 1) := by
  rw [renderNumber, String.toList_ofList, List.leftpad]

/-- A line number consists of digits. -/
lemma isDigit_of_mem_renderNumber {position : Nat} {c : Char}
    (h : c ∈ (renderNumber position).toList) : c.isDigit = true := by
  rw [toList_renderNumber] at h
  rcases List.mem_append.1 h with hzero | hdigit
  · rw [List.eq_of_mem_replicate hzero]
    rfl
  · exact Text.Decimal.isDigit_of_mem_ofNat hdigit

/-- The zeros in front of a line number do not change its value. -/
lemma ofDigitChars_renderNumber (position : Nat) :
    Nat.ofDigitChars 10 (renderNumber position).toList 0 = position + 1 := by
  rw [toList_renderNumber, Nat.ofDigitChars_append, Nat.ofDigitChars_replicate_zero, Nat.mul_zero]
  exact Nat.ofDigitChars_ten_toDigits

lemma renderNumber_injective : Function.Injective renderNumber := by
  intro m n h
  have hvalue : m + 1 = n + 1 := by
    rw [← ofDigitChars_renderNumber m, h, ofDigitChars_renderNumber n]
  exact Nat.succ.inj hvalue

/-- A text with a letter is no line number. -/
lemma renderNumber_ne {position : Nat} {text : String} (c : Char) (hmem : c ∈ text.toList)
    (hdigit : c.isDigit = false) : renderNumber position ≠ text := by
  rintro rfl
  rw [isDigit_of_mem_renderNumber hmem] at hdigit
  cases hdigit

/-- Places that differ are shown by texts that differ. -/
theorem renderLanding_injective : Function.Injective renderLanding := by
  have hend : ∀ n, renderNumber n ≠ "end" := fun n => renderNumber_ne 'e' (by decide) (by decide)
  have hstart : ∀ n, renderNumber n ≠ "before start" := fun n =>
    renderNumber_ne 'b' (by decide) (by decide)
  have hwords : "before start" ≠ "end" := by decide
  intro a b h
  match a, b with
  | .beforeStart, .beforeStart => rfl
  | .beforeStart, .line n => exact absurd h.symm (hstart n)
  | .beforeStart, .afterEnd => exact absurd h hwords
  | .line m, .beforeStart => exact absurd h (hstart m)
  | .line m, .line n => exact congrArg Landing.line (renderNumber_injective h)
  | .line m, .afterEnd => exact absurd h (hend m)
  | .afterEnd, .beforeStart => exact absurd h.symm hwords
  | .afterEnd, .line n => exact absurd h.symm (hend n)
  | .afterEnd, .afterEnd => rfl

end Listing

end StackMachine
