import Mathlib.Data.List.Chain
import Mathlib.Data.List.Forall2
import StackMachine.Proofs.Calls
import StackMachine.Proofs.Canonical
import StackMachine.Proofs.Grammar
import StackMachine.Proofs.Transfers

/-!
# Reading a listing

Whoever has only the text of a listing can tell the instructions of the program from it.  The text is cut
into lines at its line feeds, a line begins with the digits of its number, three characters follow which are
a mark or blank, and the rest is its content: two exclamation marks and a source line that cannot be read,
or a statement, perhaps with an arrow behind it.

None of this is safe by itself, for a listing quotes lines that cannot be read as they are, and nearly every
character can name a cell.  But a canonical statement has no line feed, no two blanks side by side and none
at its end (`Tidy`), so an arrow cannot begin in it.  And what is said about a line that cannot be read ends
with a parenthesis, which no place does to which an arrow leads.
-/

namespace StackMachine

open Text Statement

/-! ### The pieces of a line -/

namespace ListedLine

/-- The digits at the start of a line. -/
def numeral (line : List Char) : List Char :=
  line.takeWhile Char.isDigit

/-- The three characters behind them. -/
def mark (line : List Char) : List Char :=
  (line.dropWhile Char.isDigit).take 3

/-- The rest of the line. -/
def content (line : List Char) : List Char :=
  (line.dropWhile Char.isDigit).drop 3

/-- Jumps lead to the line. -/
def CarriesMark (line : List Char) : Prop :=
  mark line = [' ', '►', ' ']

/-- The content is about a source line that cannot be read. -/
def IsFailure (content : List Char) : Prop :=
  ['!', '!'] <+: content

instance : DecidablePred IsFailure := fun content =>
  inferInstanceAs (Decidable (['!', '!'] <+: content))

/-- What stands between a statement and a place. -/
def arrow : List Char :=
  [' ', ' ', '-', '>', ' ']

/-- The names of places: two phrases, and the numerals. -/
inductive IsPlace : List Char → Prop
  | beforeStart : IsPlace "before start".toList
  | afterEnd : IsPlace "end".toList
  | numeral {digits : List Char} (hne : digits ≠ []) (hdigits : ∀ c ∈ digits, c.isDigit = true) :
      IsPlace digits

/-- The content ends with an arrow and a place. -/
def CarriesArrow (content : List Char) : Prop :=
  ∃ text place, IsPlace place ∧ content = text ++ (arrow ++ place)

/-- The content up to its first arrow. -/
def beforeArrow : List Char → List Char
  | [] => []
  | c :: text => if arrow <+: c :: text then [] else c :: beforeArrow text

/-- The number of a line and the instruction on it, if there is one. -/
def readLine (line : List Char) : Nat × Option Instruction :=
  (Nat.ofDigitChars 10 (numeral line) 0,
    if IsFailure (content line) then none else instruction? (String.ofList (beforeArrow (content line))))

variable {text place rest : List Char}

lemma IsPlace.ne_nil (h : IsPlace place) : place ≠ [] := by
  cases h with
  | beforeStart => decide
  | afterEnd => decide
  | numeral hne _ => exact hne

/-- No place ends with a parenthesis. -/
lemma IsPlace.getLast?_ne (h : IsPlace place) : place.getLast? ≠ some ')' := by
  cases h with
  | beforeStart => decide
  | afterEnd => decide
  | numeral _ hdigits =>
    intro hlast
    have hdigit := hdigits ')' (List.mem_of_getLast? hlast)
    exact absurd hdigit (by decide)

lemma IsPlace.lf (h : IsPlace place) : '\n' ∉ place := by
  cases h with
  | beforeStart => decide
  | afterEnd => decide
  | numeral _ hdigits => exact fun hlf => absurd (hdigits _ hlf) (by decide)

/-- The places that a listing shows. -/
lemma isPlace_renderLanding (landing : Landing) : IsPlace (Listing.renderLanding landing).toList := by
  cases landing with
  | beforeStart => exact .beforeStart
  | line position =>
    refine .numeral ?_ fun c hc => Listing.isDigit_of_mem_renderNumber hc
    rw [Listing.renderLanding, Listing.toList_renderNumber]
    exact List.append_ne_nil_of_right_ne_nil _ Nat.toDigits_ne_nil
  | afterEnd => exact .afterEnd

end ListedLine

open ListedLine

/-! ### Tidy texts -/

/-- A text without line feeds, in which no blank stands before another one or at the end. -/
structure Tidy (text : List Char) : Prop where
  lf : '\n' ∉ text
  blanks : (text ++ [' ']).IsChain fun a b => a = ' ' → b ≠ ' '

namespace Tidy

variable {text word place rest : List Char} {c : Char}

lemma nil : Tidy [] :=
  ⟨List.not_mem_nil, List.isChain_singleton _⟩

lemma cons (hc : isBlank c = false) (h : Tidy text) : Tidy (c :: text) := by
  have hblank : ∀ b : Char, isBlank b = true → c ≠ b := by
    rintro b hb rfl
    rw [hb] at hc
    cases hc
  refine ⟨?_, List.isChain_cons.2 ⟨fun b _ hspace => absurd hspace (hblank ' ' (by decide)), h.blanks⟩⟩
  exact List.not_mem_cons_of_ne_of_not_mem (hblank '\n' (by decide)).symm h.lf

/-- A word may stand before a tidy text. -/
lemma append (hword : ∀ c ∈ word, isBlank c = false) (h : Tidy text) : Tidy (word ++ text) := by
  induction word with
  | nil => exact h
  | cons c word ih =>
    obtain ⟨hc, hword⟩ := List.forall_mem_cons.1 hword
    exact (ih hword).cons hc

/-- A blank may stand before a tidy text that does not begin with one. -/
lemma space_cons (hc : c ≠ ' ') (h : Tidy (c :: text)) : Tidy (' ' :: c :: text) := by
  refine ⟨List.not_mem_cons_of_ne_of_not_mem (by decide) h.lf, List.isChain_cons.2 ⟨?_, h.blanks⟩⟩
  intro b hb _
  obtain rfl : c = b := Option.some.inj hb
  exact hc

/-- There is no arrow in a tidy text. -/
lemma ne_append_arrow (h : Tidy text) (before after : List Char) : text ≠ before ++ (arrow ++ after) := by
  rintro rfl
  have hchain := h.blanks
  rw [List.append_assoc] at hchain
  have harrow := (List.isChain_append.1 hchain).2.1
  exact (List.isChain_cons_cons.1 harrow).1 rfl rfl

/-- What stands before the first arrow is a tidy text, if that is followed by an arrow or by nothing. -/
lemma beforeArrow_append (h : Tidy text) (hrest : rest = [] ∨ arrow <+: rest) :
    beforeArrow (text ++ rest) = text := by
  induction text with
  | nil =>
    rcases hrest with rfl | hrest
    · rfl
    · obtain ⟨after, rfl⟩ := hrest
      rfl
  | cons c text ih =>
    have hchain := h.blanks
    rw [List.cons_append, List.isChain_cons] at hchain
    have htext : Tidy text := ⟨fun hlf => h.lf (List.mem_cons_of_mem c hlf), hchain.2⟩
    have harrow : ¬ arrow <+: c :: (text ++ rest) := by
      rintro ⟨after, hafter⟩
      obtain ⟨hc, htail⟩ := List.cons.inj hafter
      -- the second blank of the arrow is the first character of the text, or the one behind it
      refine hchain.1 ' ' ?_ hc.symm rfl
      cases text with
      | nil => rfl
      | cons d text => exact congrArg some (List.cons.inj htail).1.symm
    rw [List.cons_append, beforeArrow, if_neg harrow, ih htext]

end Tidy

/-- A readable operand is a word. -/
lemma Operand.Readable.tidy_append {operand : Operand} (h : operand.Readable) {rest : List Char}
    (hrest : Tidy rest) : Tidy (' ' :: operand.render.toList ++ rest) := by
  have hplain : ∀ c ∈ operand.render.toList, isBlank c = false := fun c hc => (h.plainChar hc).1
  have htidy := hrest.append hplain
  obtain ⟨c, word, hcons, hc⟩ := operand.exists_toList_render_eq_cons
  rw [hcons] at htidy ⊢
  refine htidy.space_cons ?_
  rintro rfl
  exact absurd hc (by decide)

/-- The text of readable operands is tidy. -/
lemma tidy_operandText {operands : List Operand} (h : ∀ operand ∈ operands, operand.Readable) :
    Tidy (operandText operands) := by
  induction operands with
  | nil => exact .nil
  | cons a rest ih =>
    obtain ⟨ha, hrest⟩ := List.forall_mem_cons.1 h
    cases rest with
    | nil =>
      have htidy := ha.tidy_append .nil
      rwa [List.append_nil, ← operandText_singleton] at htidy
    | cons b rest =>
      rw [operandText_cons_cons]
      exact ha.tidy_append ((ih hrest).cons (by decide))

/-- The canonical statement for a readable instruction is tidy. -/
lemma Instruction.Readable.tidy {i : Instruction} (h : i.Readable) : Tidy i.render.toList := by
  rw [i.toList_render]
  exact (tidy_operandText h).append fun c hc => (unbroken_mnemonic i.opcode c hc).1

/-! ### What stands behind the mark -/

variable {program : Program} {listing : Listing} {position : Nat} {i : Instruction} {text : String}
  {fault : Fault} {entry : Entry} {distance : Int64}

namespace Statement

/-- The text is a jump, and its last operand is the literal. -/
def JumpsBy (text : String) (distance : Int64) : Prop :=
  ∃ i, parse text = .ok (some i) ∧ i.opcode.isJump = true ∧
    i.operands.getLast? = some (.integer distance)

lemma jumpsBy_iff : JumpsBy text distance ↔
    ∃ i, parse text = .ok (some i) ∧ i.jumpDistance? = some distance := by
  simp only [JumpsBy, Instruction.jumpDistance?_eq_some_iff]

/-- Nothing is read from the blank lines and the comments, and from no others. -/
lemma parse_eq_ok_none_iff : parse text = .ok none ↔ Blanks (code text.toList) := by
  rw [← all_isBlank_iff]
  simp only [parse]
  split
  · next hblank => simp [hblank]
  · next hblank =>
    simp only [hblank]
    split
    · simp
    · split <;> simp

/-- A numeral that cannot be read consists of characters of the token. -/
lemma mem_of_misspelling_eq {token : String} {piece : List Char} {c : Char}
    (h : Operand.misspelling (trim piece) = .badInteger token) (hc : c ∈ token.toList) : c ∈ piece := by
  unfold Operand.misspelling at h
  split at h
  · cases h
  · cases h
  · rw [← Fault.badInteger.inj h, String.toList_ofList] at hc
    exact mem_of_mem_trim hc

/-- The token is part of the text behind the keyword. -/
lemma Arguments.Rejects.mem_of_badInteger {token : String} {arguments : List Char} {c : Char}
    (h : Arguments.Rejects arguments (.badInteger token)) (hc : c ∈ token.toList) : c ∈ arguments := by
  generalize hfault : Fault.badInteger token = fault at h
  cases h with
  | count _ => cases hfault
  | only _ _ _ => exact mem_of_misspelling_eq hfault.symm hc
  | first _ _ _ => exact List.mem_append_left _ (mem_of_misspelling_eq hfault.symm hc)
  | second _ _ _ _ =>
    exact List.mem_append_right _ (List.mem_cons_of_mem _ (mem_of_misspelling_eq hfault.symm hc))

/-- And that text is part of the line. -/
lemma mem_of_parse_eq_badInteger {token : String} {c : Char} (h : parse text = .error (.badInteger token))
    (hc : c ∈ token.toList) : c ∈ text.toList := by
  have hstands := parse_eq_iff_stands.1 h
  generalize hreading : Except.error (Fault.badInteger token) = reading at hstands
  cases hstands with
  | fault hrejects =>
    rw [← Except.error.inj hreading] at hrejects
    cases hrejects with
    | arguments hsplits _ hfault =>
      rw [hsplits.line_eq]
      simp [hfault.mem_of_badInteger hc]
  | _ => cases hreading

/-- The reason why a line cannot be read has no line feed, if the line has none. -/
lemma lf_notMem_message (hplain : '\n' ∉ text.toList) (h : parse text = .error fault) :
    '\n' ∉ fault.message.toList := by
  cases fault with
  | badInteger token =>
    have htoken : '\n' ∉ token.toList := fun hlf => hplain (mem_of_parse_eq_badInteger h hlf)
    have hquotes : '\n' ∉ "Invalid integer literal '".toList ∧ '\n' ∉ "'".toList := by decide +kernel
    have hmessage : (Fault.badInteger token).message = "Invalid integer literal '" ++ token ++ "'" := rfl
    rw [hmessage, String.toList_append, String.toList_append]
    simp only [List.mem_append, not_or]
    exact ⟨⟨hquotes.1, htoken⟩, hquotes.2⟩
  | _ => decide +kernel

end Statement

namespace Listing

/-- The text for an instruction is its canonical statement, with an arrow behind it if it is a jump with a
literal distance. -/
lemma toList_renderEntry_instruction (listing : Listing) (position : Nat) (i : Instruction) :
    ∃ rest, (listing.renderEntry position (.instruction i)).toList = i.render.toList ++ rest ∧
      ((rest = [] ∧ i.jumpDistance? = none) ∨
        ∃ distance place, i.jumpDistance? = some distance ∧ IsPlace place ∧ rest = arrow ++ place) := by
  cases hdistance : i.jumpDistance? with
  | none => exact ⟨[], by simp [renderEntry, hdistance], .inl ⟨rfl, rfl⟩⟩
  | some distance =>
    refine ⟨_, ?_, .inr ⟨distance, _, rfl, isPlace_renderLanding
      (landing listing.lineCount position distance), rfl⟩⟩
    simp [renderEntry, hdistance, arrow]

/-- The text for a line that cannot be read. -/
lemma toList_renderEntry_failure (listing : Listing) (position : Nat) (f : LineFailure) :
    (listing.renderEntry position (.failure f)).toList =
      ['!', '!', ' '] ++ trim f.text.toList ++ [' ', '('] ++ f.fault.message.toList ++ [')'] := by
  simp [renderEntry]

end Listing

namespace ListedLine

/-- A content says of a line of a program what can be read from that line. -/
structure Conveys (text : String) (content : List Char) : Prop where
  /-- It does not go beyond its own line. -/
  lf : '\n' ∉ content
  /-- It ends with an arrow if the line is a jump, and its last operand is a literal. -/
  carriesArrow_iff : CarriesArrow content ↔ ∃ distance, JumpsBy text distance
  /-- It begins with exclamation marks if the line cannot be read. -/
  isFailure_iff : IsFailure content ↔ ∃ fault, parse text = .error fault
  /-- An instruction on the line is also read from what stands before the arrow. -/
  parse_beforeArrow (i : Instruction) (hparse : parse text = .ok (some i)) :
    parse (String.ofList (beforeArrow content)) = .ok (some i)

/-- The failure of a line is no instruction, with an arrow or without. -/
lemma conveys_failure (hplain : '\n' ∉ text.toList) (hparse : parse text = .error fault) :
    Conveys text (listing.renderEntry position (.failure ⟨position + 1, text, fault⟩)).toList := by
  have hne : ∀ i, parse text ≠ .ok (some i) := by
    intro i hi
    rw [hparse] at hi
    cases hi
  have htrim : '\n' ∉ trim text.toList := fun hlf => hplain (mem_of_mem_trim hlf)
  rw [Listing.toList_renderEntry_failure]
  refine ⟨?_, ⟨?_, ?_⟩, ⟨fun _ => ⟨fault, hparse⟩, fun _ => ⟨_, rfl⟩⟩, fun i hi => absurd hi (hne i)⟩
  · simp [htrim, lf_notMem_message hplain hparse]
  · -- the parenthesis at the end belongs to no place
    rintro ⟨before, place, hplace, hcontent⟩
    have hlast := congrArg List.getLast? hcontent
    rw [List.getLast?_concat, ← List.append_assoc, List.getLast?_append_of_ne_nil _ hplace.ne_nil] at hlast
    exact absurd hlast.symm hplace.getLast?_ne
  · rintro ⟨distance, i, hi, -⟩
    exact absurd hi (hne i)

/-- No mnemonic begins with an exclamation mark. -/
lemma not_isFailure_render_append (i : Instruction) (rest : List Char) :
    ¬ IsFailure (i.render.toList ++ rest) := by
  have hmnemonic : ∀ (op : Opcode) (rest : List Char), ¬ IsFailure (op.mnemonic.toList ++ rest) := by
    intro op rest hfailure
    cases op <;> simp [IsFailure, Opcode.mnemonic] at hfailure
  rw [i.toList_render, List.append_assoc]
  exact hmnemonic _ _

/-- The text for an instruction is no failure, and it has an arrow only if one has been added to it. -/
lemma conveys_instruction (hparse : parse text = .ok (some i)) :
    Conveys text (listing.renderEntry position (.instruction i)).toList := by
  have htidy := (readable_of_parse_eq_ok hparse).tidy
  have hjumps : ∀ distance, JumpsBy text distance ↔ i.jumpDistance? = some distance := by
    intro distance
    simp [jumpsBy_iff, hparse]
  obtain ⟨rest, hcontent, hrest⟩ := listing.toList_renderEntry_instruction position i
  rw [hcontent]
  refine ⟨?_, ?_, iff_of_false (not_isFailure_render_append i rest) (by simp [hparse]), fun j hj => ?_⟩
  · rcases hrest with ⟨rfl, -⟩ | ⟨_, place, -, hplace, rfl⟩
    · simpa using htidy.lf
    · simp [htidy.lf, hplace.lf, arrow]
  · simp only [hjumps]
    rcases hrest with ⟨rfl, hdistance⟩ | ⟨distance, place, hdistance, hplace, rfl⟩
    · refine iff_of_false ?_ (by simp [hdistance])
      rintro ⟨before, place, -, heq⟩
      rw [List.append_nil] at heq
      exact htidy.ne_append_arrow before place heq
    · exact iff_of_true ⟨_, place, hplace, rfl⟩ ⟨distance, hdistance⟩
  · obtain rfl : i = j := Option.some.inj (Except.ok.inj (hparse.symm.trans hj))
    have hbefore : rest = [] ∨ arrow <+: rest := by
      rcases hrest with ⟨hnil, -⟩ | ⟨_, _, -, -, hplace⟩
      · exact .inl hnil
      · exact .inr ⟨_, hplace.symm⟩
    rw [htidy.beforeArrow_append hbefore, String.ofList_toList]
    exact parse_render_of_parse_eq_ok hparse

end ListedLine

/-! ### The lines of a listing -/

namespace Listing

/-- The characters between the number of a line and its content. -/
def markText (marked : Bool) : List Char :=
  if marked then [' ', '►', ' '] else [' ', ' ', ' ']

/-- The line for an entry, without its line feed. -/
def lineText (listing : Listing) (position : Nat) (entry : Entry) : List Char :=
  (renderNumber position).toList ++
    (markText (position ∈ listing.targets) ++ (listing.renderEntry position entry).toList)

lemma toList_renderLine (listing : Listing) (position : Nat) (entry : Entry) :
    (listing.renderLine (position, entry)).toList = listing.lineText position entry ++ ['\n'] := by
  unfold renderLine lineText markText
  by_cases hmarked : position ∈ listing.targets <;> simp [hmarked]

/-- The text of a listing consists of these lines, with a line feed behind each of them. -/
lemma toList_render (listing : Listing) :
    listing.render.toList =
      (listing.entries.map fun entry => listing.lineText entry.1 entry.2).flatMap (· ++ ['\n']) := by
  rw [render_eq_renderLines, renderLines, String.toList_join, List.flatMap_map, List.flatMap_map]
  exact List.flatMap_congr fun entry _ => listing.toList_renderLine entry.1 entry.2

/-- The pieces of a line are found in it. -/
lemma pieces_lineText (listing : Listing) (position : Nat) (entry : Entry) :
    numeral (listing.lineText position entry) = (renderNumber position).toList ∧
    mark (listing.lineText position entry) = markText (position ∈ listing.targets) ∧
    content (listing.lineText position entry) = (listing.renderEntry position entry).toList := by
  have hdigits : ∀ c ∈ (renderNumber position).toList, c.isDigit = true :=
    fun c hc => isDigit_of_mem_renderNumber hc
  have hlength : ∀ marked, (markText marked).length = 3 := by decide
  have hhead : ∀ marked rest, ∀ c ∈ (markText marked ++ rest).head?, c.isDigit = false := by
    intro marked rest c hc
    obtain rfl : ' ' = c := by cases marked <;> exact Option.some.inj hc
    decide
  obtain ⟨htake, hdrop⟩ := takeWhile_append_of_head hdigits
    (hhead (position ∈ listing.targets) (listing.renderEntry position entry).toList)
  refine ⟨htake, ?_, ?_⟩
  · rw [mark, lineText, hdrop, List.take_left' (hlength _)]
  · rw [content, lineText, hdrop, List.drop_left' (hlength _)]

end Listing

namespace Program

/-- The positions at which the jumps with a literal distance other than 0 lead. -/
lemma mem_targets_iff (hlength : program.length ≤ 2 ^ 63) (hposition : position < program.length) :
    position ∈ program.listing.targets ↔ ∃ (source : Nat) (text : String) (distance : Int64),
      program.lines[source]? = some text ∧ JumpsBy text distance ∧ distance ≠ 0 ∧
        (source : Int) + distance.toInt = position := by
  constructor
  · intro hmem
    obtain ⟨⟨source, entry⟩, hentry, htarget⟩ := List.mem_filterMap.1 hmem
    cases entry with
    | failure f => cases htarget
    | instruction i =>
      obtain ⟨distance, hdistance, hzero, hlanding⟩ := Listing.target?_instruction_eq_some_iff.1 htarget
      obtain ⟨text, hline, hparse⟩ := mem_entries_listing_instruction_iff.1 hentry
      have hsum := (landing_eq_line_iff_add hlength ((lt_length_of_mem_entries hentry).trans_le hlength)).1 hlanding
      exact ⟨source, text, distance, hline, jumpsBy_iff.2 ⟨i, hparse, hdistance⟩, hzero, hsum.2⟩
  · rintro ⟨source, text, distance, hline, hjumps, hzero, hsum⟩
    obtain ⟨i, hparse, hdistance⟩ := jumpsBy_iff.1 hjumps
    have hentry := mem_entries_listing_instruction_iff.2 ⟨text, hline, hparse⟩
    exact Listing.mem_targets hentry hdistance hzero
      ((landing_eq_line_iff_add hlength ((lt_length_of_mem_entries hentry).trans_le hlength)).2 ⟨hposition, hsum⟩)

/-- The lines with more than blanks before their comments, and their positions. -/
def statementLines (program : Program) : List (String × Nat) :=
  program.lines.toList.zipIdx.filter fun (text, _) => ¬ Blanks (code text.toList)

/-- The numbers of these lines and the instructions on them. -/
def statements (program : Program) : List (Nat × Option Instruction) :=
  program.statementLines.map fun (text, position) => (position + 1, instruction? text)

/-- What a line of a listing says about the line of the program that it stands for. -/
structure Lists (program : Program) (text : String) (position : Nat) (line : List Char) : Prop extends
    Conveys text (content line) where
  /-- It begins with the number of that line, in four digits at least. -/
  numeral_eq : numeral line = (Decimal.ofNat (position + 1)).leftpad 4 '0'
  /-- Behind the number there is a mark or nothing. -/
  mark_eq : CarriesMark line ∨ mark line = [' ', ' ', ' ']
  /-- There is a mark if a jump with a literal distance other than 0 leads to that line.  Sums of positions
  are sums of words, so this is about programs whose positions are words. -/
  carriesMark_iff : program.length ≤ 2 ^ 63 → (CarriesMark line ↔
    ∃ (source : Nat) (text' : String) (distance : Int64), program.lines[source]? = some text' ∧
      JumpsBy text' distance ∧ distance ≠ 0 ∧ (source : Int) + distance.toInt = position)

/-- The line for an entry. -/
lemma lists_lineText (hplain : '\n' ∉ text.toList) (hline : program.lines[position]? = some text)
    (hentry : Entry.ofLine? position text = some entry) :
    program.Lists text position (program.listing.lineText position entry) := by
  have hconveys : Conveys text (program.listing.renderEntry position entry).toList := by
    cases entry with
    | instruction i => exact conveys_instruction (Entry.ofLine?_eq_instruction_iff.1 hentry)
    | failure f =>
      obtain ⟨fault, hparse, rfl⟩ := Entry.ofLine?_eq_failure_iff.1 hentry
      exact conveys_failure hplain hparse
  have hposition : position < program.length := (Array.getElem?_eq_some_iff.1 hline).1
  have hmark : ∀ marked : Bool, Listing.markText marked = [' ', '►', ' '] ↔ marked = true := by decide
  obtain ⟨hnumeral, hmarkText, hcontent⟩ := program.listing.pieces_lineText position entry
  refine { toConveys := hcontent.symm ▸ hconveys, numeral_eq := ?_, mark_eq := ?_, carriesMark_iff := ?_ }
  · rw [hnumeral, Listing.renderNumber, String.toList_ofList]
  · rw [CarriesMark, hmarkText]
    unfold Listing.markText
    split
    · exact .inl rfl
    · exact .inr rfl
  · intro hlength
    rw [CarriesMark, hmarkText, hmark, decide_eq_true_iff, mem_targets_iff hlength hposition]

/-- It is one line. -/
lemma Lists.lf_notMem {line : List Char} (h : program.Lists text position line) : '\n' ∉ line := by
  have hline : line = numeral line ++ (mark line ++ content line) := by
    rw [numeral, mark, content, List.take_append_drop, List.takeWhile_append_dropWhile]
  have hnumeral : '\n' ∉ numeral line := fun hlf => absurd (List.mem_takeWhile_imp hlf) (by decide)
  have hmark : '\n' ∉ mark line := by
    rcases h.mark_eq with hmark | hmark <;> rw [hmark] <;> decide
  rw [hline]
  simp [hnumeral, hmark, h.lf]

/-- A line of a listing is read as the number and the instruction of the line that it stands for. -/
lemma Lists.readLine_eq {line : List Char} (h : program.Lists text position line)
    (hstatement : ¬ Blanks (code text.toList)) : readLine line = (position + 1, instruction? text) := by
  have hnumber := Listing.ofDigitChars_renderNumber position
  rw [Listing.renderNumber, String.toList_ofList, ← h.numeral_eq] at hnumber
  rw [readLine, hnumber]
  cases hparse : parse text with
  | error fault => rw [if_pos (h.isFailure_iff.2 ⟨fault, hparse⟩), instruction?, hparse]
  | ok i? =>
    cases i? with
    | none => exact absurd (parse_eq_ok_none_iff.1 hparse) hstatement
    | some i =>
      have hfailure : ¬ IsFailure (content line) := by simp [h.isFailure_iff, hparse]
      rw [if_neg hfailure, instruction?, h.parse_beforeArrow i hparse, instruction?, hparse]

end Program

/-! ### The text of a listing -/

/-- The numbers and the instructions on the lines of a text. -/
def Listing.readText (text : String) : List (Nat × Option Instruction) :=
  ((text.toList.splitOn '\n').dropLast).map readLine

/-- Lines with a line feed behind each of them are found again between the line feeds. -/
lemma splitOn_flatMap_lf {lines : List (List Char)} (h : ∀ line ∈ lines, '\n' ∉ line) :
    (lines.flatMap (· ++ ['\n'])).splitOn '\n' = lines ++ [[]] := by
  induction lines with
  | nil => rfl
  | cons line lines ih =>
    obtain ⟨hline, hlines⟩ := List.forall_mem_cons.1 h
    rw [List.flatMap_cons, List.append_assoc, List.singleton_append,
      List.splitOn_append_cons_self_of_not_mem hline, ih hlines, List.cons_append]

/-- What is kept of a list belongs, piece by piece, to what is made of it. -/
lemma forall₂_filter_filterMap {α β : Type} {p : α → Bool} {f : α → Option β}
    (h : ∀ a, (f a).isSome = p a) (l : List α) :
    List.Forall₂ (fun a b => f a = some b) (l.filter p) (l.filterMap f) := by
  induction l with
  | nil => exact .nil
  | cons a l ih =>
    have ha := h a
    cases hf : f a with
    | none =>
      rw [hf, Option.isSome_none] at ha
      rwa [List.filterMap_cons_none hf, List.filter_cons_of_neg (by simp [← ha])]
    | some b =>
      rw [hf, Option.isSome_some] at ha
      rw [List.filterMap_cons_some hf, List.filter_cons_of_pos ha.symm]
      exact .cons hf ih

namespace Program

lemma mem_statementLines_iff : (text, position) ∈ program.statementLines ↔
    program.lines[position]? = some text ∧ ¬ Blanks (code text.toList) := by
  simp [statementLines, List.mem_zipIdx_iff_getElem?]

/-- A listing has an entry for each line with a statement, in the same order. -/
lemma forall₂_statementLines (program : Program) :
    List.Forall₂ (fun source entry => source ∈ program.statementLines ∧
        Entry.ofLine? source.2 source.1 = some entry.2 ∧ source.2 = entry.1)
      program.statementLines program.listing.entries := by
  have hsome : ∀ source : String × Nat,
      ((Entry.ofLine? source.2 source.1).map (source.2, ·)).isSome =
        decide (¬ Blanks (code source.1.toList)) := by
    intro source
    rw [Option.isSome_map, Entry.ofLine?, Bool.eq_iff_iff, decide_eq_true_iff, ← parse_eq_ok_none_iff]
    rcases parse source.1 with fault | _ | i <;> simp
  refine (List.forall₂_and_left _ _).2 ⟨fun _ hmem => hmem, ?_⟩
  refine (forall₂_filter_filterMap hsome program.lines.toList.zipIdx).imp ?_
  rintro source entry hentry
  obtain ⟨e, he, rfl⟩ := Option.map_eq_some_iff.1 hentry
  exact ⟨he, rfl⟩

/-- A listing has a line for each line with a statement, in the same order. -/
lemma exists_lists (hplain : ∀ text ∈ program.lines, '\n' ∉ text.toList) :
    ∃ lines : List (List Char), program.listing.render.toList = lines.flatMap (· ++ ['\n']) ∧
      List.Forall₂ (fun source line => source ∈ program.statementLines ∧
        program.Lists source.1 source.2 line) program.statementLines lines := by
  refine ⟨_, program.listing.toList_render, ?_⟩
  rw [List.forall₂_map_right_iff]
  refine program.forall₂_statementLines.imp ?_
  rintro ⟨text, position⟩ ⟨_, entry⟩ ⟨hmem, hentry, rfl⟩
  have hline := (mem_statementLines_iff.1 hmem).1
  exact ⟨hmem, lists_lineText (hplain text (Array.mem_of_getElem? hline)) hline hentry⟩

/-- Each of these lines is one line. -/
lemma lf_notMem_of_lists {sources : List (String × Nat)} {lines : List (List Char)}
    (h : List.Forall₂ (fun source line => program.Lists source.1 source.2 line) sources lines) :
    ∀ line ∈ lines, '\n' ∉ line := by
  have hflip : List.Forall₂ (fun line (_ : String × Nat) => '\n' ∉ line ∧ True) lines sources :=
    List.Forall₂.flip (h.imp fun _ _ hlists => ⟨hlists.lf_notMem, trivial⟩)
  exact ((List.forall₂_and_left _ _).1 hflip).1

/-- The text of a listing is read as the statements of the program. -/
lemma readText_render_listing (hplain : ∀ text ∈ program.lines, '\n' ∉ text.toList) :
    Listing.readText program.listing.render = program.statements := by
  obtain ⟨lines, hrender, hlists⟩ := exists_lists hplain
  have hlf := lf_notMem_of_lists (hlists.imp fun _ _ h => h.2)
  have hread : List.Forall₂ (· = ·) (lines.map readLine) program.statements := by
    rw [statements, List.forall₂_map_left_iff, List.forall₂_map_right_iff]
    refine List.Forall₂.flip (hlists.imp ?_)
    rintro ⟨text, position⟩ line ⟨hmem, h⟩
    exact h.readLine_eq (mem_statementLines_iff.1 hmem).2
  rw [List.forall₂_eq_eq_eq] at hread
  rw [Listing.readText, hrender, splitOn_flatMap_lf hlf, List.dropLast_concat, hread]

/-- The text of a listing is faithful, and it can be read back.

In a program whose lines have no line feed, the listing has one line for each line of the program that has
more than blanks before its comment, in the same order, and a line feed behind each of them.  Each line says
what `Lists` asks for.  So the numbers and the instructions of these lines can be read from the text alone,
and two such programs whose listings have the same text agree in all of them. -/
theorem listing_reads_back (program : Program) (hplain : ∀ text ∈ program.lines, '\n' ∉ text.toList) :
    (∃ lines : List (List Char), program.listing.render.toList = lines.flatMap (· ++ ['\n']) ∧
      (∀ line ∈ lines, '\n' ∉ line) ∧
      List.Forall₂ (fun source line => program.Lists source.1 source.2 line)
        program.statementLines lines) ∧
    Listing.readText program.listing.render = program.statements ∧
    ∀ program' : Program, (∀ text ∈ program'.lines, '\n' ∉ text.toList) →
      program'.listing.render = program.listing.render → program'.statements = program.statements := by
  refine ⟨?_, readText_render_listing hplain, fun program' hplain' hrender => ?_⟩
  · obtain ⟨lines, hrender, hlines⟩ := exists_lists hplain
    have hlists := hlines.imp fun _ _ h => h.2
    exact ⟨lines, hrender, lf_notMem_of_lists hlists, hlists⟩
  · rw [← readText_render_listing hplain', hrender, readText_render_listing hplain]

/-- A jump with an arrow, a line that cannot be read and would end with an arrow, and a cell whose name is
the mark. -/
theorem listing_reads_back_past_false_arrow : ∃ program : Program,
    program.lines = #["JNZ 1, 2", " ; -> 0004", "GOTO  -> 0004", "push m►"] ∧
    program.listing.render = "0001   JNZ 1, 2  -> 0003\n0003 ► !! GOTO  -> 0004 (Invalid command)\n" ++
      "0004   PUSH M►\n" ∧
    Listing.readText program.listing.render =
      [(1, some (.ofOperands .jnz [.integer 1, .integer 2])), (3, none),
        (4, some (.ofOperands .push [.memory 9610]))] := by
  let program : Program := ⟨#["JNZ 1, 2", " ; -> 0004", "GOTO  -> 0004", "push m►"]⟩
  have hplain : ∀ text ∈ program.lines, '\n' ∉ text.toList := by decide +kernel
  refine ⟨program, rfl, by decide +kernel, ?_⟩
  rw [(program.listing_reads_back hplain).2.1]
  decide +kernel

end Program

end StackMachine
