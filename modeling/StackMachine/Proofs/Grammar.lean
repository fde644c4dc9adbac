import StackMachine.Proofs.Spellings
import StackMachine.Proofs.Splits

/-!
# The grammar of a line

A line is laid out as

    [indent keyword [gap operand [blanks "," blanks operand]]] blanks [";" comment]

`Layout` holds the pieces of such a line, `Layout.text` puts them together, and `Layout.Spells` says
that they spell an opcode with its operands.  Nothing in these definitions trims or cuts a text.

A line with a statement that has no layout is rejected.  `Rejects` says for which fault: an unknown
keyword counts first, then a second comma, then the first operand that is misspelt.

Both sides meet in `Splits`, the one way to cut a line at its keyword and its comment.  The main result
is `parse_eq_iff_layout`.
-/

namespace StackMachine.Statement

open Text

/-- Blanks are not part of an operand. -/
lemma Blanks.head {text : List Char} (h : Blanks text) : ∀ c ∈ text.head?, ¬ PlainChar c :=
  fun _ hc hplain => not_blanks_of_mem (List.mem_of_mem_head? hc) hplain.1 h

/-- Neither are blanks before a comma, nor the comma. -/
lemma Blanks.head_append_comma {text rest : List Char} (h : Blanks text) :
    ∀ c ∈ (text ++ ',' :: rest).head?, ¬ PlainChar c := by
  cases text with
  | nil =>
    intro c hc
    obtain rfl : ',' = c := Option.some.inj hc
    decide
  | cons d text => exact h.head

/-- The blanks at the start of a text are determined. -/
lemma Blanks.append_inj {gap gap' rest rest' : List Char} (h : Blanks gap) (h' : Blanks gap')
    (hrest : ∀ c ∈ rest.head?, isBlank c = false) (hrest' : ∀ c ∈ rest'.head?, isBlank c = false)
    (htext : gap ++ rest = gap' ++ rest') : gap = gap' ∧ rest = rest' :=
  append_inj_of_head h hrest h' hrest' htext

section Spellings

variable {spelling spelling' rest rest' : List Char} {a a' : Operand}

/-- A spelling does not begin with a blank. -/
lemma head_append (h : a.Spells spelling) : ∀ c ∈ (spelling ++ rest).head?, isBlank c = false := by
  obtain ⟨d, spelling, rfl⟩ := List.exists_cons_of_ne_nil h.plain.1
  intro c hc
  obtain rfl : d = c := Option.some.inj hc
  exact (h.plain.2 d List.mem_cons_self).1

/-- The spelling at the start of a text is determined. -/
lemma spelling_append_inj (h : a.Spells spelling) (h' : a'.Spells spelling')
    (hrest : ∀ c ∈ rest.head?, ¬ PlainChar c) (hrest' : ∀ c ∈ rest'.head?, ¬ PlainChar c)
    (htext : spelling ++ rest = spelling' ++ rest') : spelling = spelling' ∧ rest = rest' := by
  have hplain : ∀ {text : List Char}, (∀ c ∈ text, PlainChar c) →
      ∀ c ∈ text, decide (PlainChar c) = true := fun h c hc => decide_eq_true (h c hc)
  exact append_inj_of_head (hplain h.plain.2) (fun c hc => decide_eq_false (hrest c hc))
    (hplain h'.plain.2) (fun c hc => decide_eq_false (hrest' c hc)) htext

/-- If a text begins with a blank, there is a gap before the spelling in it. -/
lemma ne_nil_of_head {gap : List Char} (h : a.Spells spelling)
    (hhead : ∀ c ∈ (gap ++ (spelling ++ rest)).head?, isBlank c = true) : gap ≠ [] := by
  rintro rfl
  obtain ⟨c, hc⟩ : ∃ c, c ∈ (spelling ++ rest).head? := by
    obtain ⟨c, spelling, rfl⟩ := List.exists_cons_of_ne_nil h.plain.1
    exact ⟨c, rfl⟩
  have hblank := hhead c hc
  rw [head_append h c hc] at hblank
  cases hblank

end Spellings

/-! ### The operands of a statement -/

/-- What follows a keyword, up to the last operand. -/
inductive Arguments where
  /-- No operand. -/
  | none
  /-- One operand behind a gap. -/
  | one (gap first : List Char)
  /-- Two operands behind a gap, and the blanks before and after the comma. -/
  | two (gap first before after second : List Char)
deriving DecidableEq

namespace Arguments

/-- The pieces put together. -/
def text : Arguments → List Char
  | none => []
  | one gap first => gap ++ first
  | two gap first before after second => gap ++ first ++ before ++ ',' :: (after ++ second)

/-- The pieces spell the given operands, in this order. -/
inductive Spells : Arguments → List Operand → Prop
  /-- There is no operand. -/
  | none : Spells .none []
  /-- A gap sets off the operand. -/
  | one {gap first : List Char} {a : Operand} (hne : gap ≠ []) (hgap : Blanks gap)
      (hfirst : a.Spells first) : Spells (.one gap first) [a]
  /-- A gap sets off the operands, and a comma between them, which may stand between blanks. -/
  | two {gap first before after second : List Char} {a b : Operand} (hne : gap ≠ [])
      (hgap : Blanks gap) (hfirst : a.Spells first) (hbefore : Blanks before) (hafter : Blanks after)
      (hsecond : b.Spells second) : Spells (.two gap first before after second) [a, b]

/-- There are at most two operands. -/
lemma Spells.length_le {arguments : Arguments} {operands : List Operand}
    (h : arguments.Spells operands) : operands.length ≤ maxOperands := by
  cases h with
  | none => exact Nat.zero_le _
  | one => exact Nat.le_succ 1
  | two => exact Nat.le_refl 2

/-- What follows a keyword begins with a blank and holds no semicolon. -/
lemma Spells.plain {arguments : Arguments} {operands : List Operand} (h : arguments.Spells operands)
    {trailing : List Char} (htrailing : Blanks trailing) :
    (∀ c ∈ (arguments.text ++ trailing).head?, isBlank c = true) ∧ ';' ∉ arguments.text ++ trailing := by
  have hgap : ∀ {gap : List Char}, gap ≠ [] → Blanks gap → ∀ (rest : List Char),
      ∀ c ∈ (gap ++ rest).head?, isBlank c = true := by
    intro gap hne hblanks rest c hc
    obtain ⟨d, gap, rfl⟩ := List.exists_cons_of_ne_nil hne
    obtain rfl : d = c := Option.some.inj hc
    exact hblanks d List.mem_cons_self
  have hspelling : ∀ {text : List Char} {a : Operand}, a.Spells text → ';' ∉ text :=
    fun hspells hmem => (hspells.plain.2 _ hmem).2.2 rfl
  cases h with
  | none => exact ⟨fun c hc => htrailing c (List.mem_of_mem_head? hc), htrailing.semicolon⟩
  | one hne hblanks hfirst =>
    refine ⟨?_, ?_⟩
    · rw [text, List.append_assoc]
      exact hgap hne hblanks _
    · simp [text, hblanks.semicolon, hspelling hfirst, htrailing.semicolon]
  | two hne hblanks hfirst hbefore hafter hsecond =>
    refine ⟨?_, ?_⟩
    · rw [text, List.append_assoc, List.append_assoc, List.append_assoc]
      exact hgap hne hblanks _
    · simp [text, hblanks.semicolon, hspelling hfirst, hbefore.semicolon, hafter.semicolon,
        hspelling hsecond, htrailing.semicolon]

/-- The text after a keyword has one layout for given operands. -/
lemma Spells.unique {arguments arguments' : Arguments} {operands : List Operand}
    {trailing trailing' : List Char} (h : arguments.Spells operands) (h' : arguments'.Spells operands)
    (htrailing : Blanks trailing) (htrailing' : Blanks trailing')
    (htext : arguments.text ++ trailing = arguments'.text ++ trailing') :
    arguments = arguments' ∧ trailing = trailing' := by
  cases h with
  | none =>
    cases h' with
    | none => exact ⟨rfl, htext⟩
  | one _ hgap hfirst =>
    cases h' with
    | one _ hgap' hfirst' =>
      simp only [text, List.append_assoc] at htext
      obtain ⟨rfl, hfrom⟩ := hgap.append_inj hgap' (head_append hfirst) (head_append hfirst') htext
      obtain ⟨rfl, rfl⟩ := spelling_append_inj hfirst hfirst' htrailing.head htrailing'.head hfrom
      exact ⟨rfl, rfl⟩
  | two _ hgap hfirst hbefore hafter hsecond =>
    cases h' with
    | two _ hgap' hfirst' hbefore' hafter' hsecond' =>
      simp only [text, List.append_assoc, List.cons_append] at htext
      have hcomma : ∀ (rest : List Char), ∀ c ∈ (',' :: rest).head?, isBlank c = false := by
        intro rest c hc
        obtain rfl : ',' = c := Option.some.inj hc
        decide
      obtain ⟨rfl, hfrom⟩ := hgap.append_inj hgap' (head_append hfirst) (head_append hfirst') htext
      obtain ⟨rfl, hfrom'⟩ :=
        spelling_append_inj hfirst hfirst' hbefore.head_append_comma hbefore'.head_append_comma hfrom
      obtain ⟨rfl, hcons⟩ := hbefore.append_inj hbefore' (hcomma _) (hcomma _) hfrom'
      obtain ⟨rfl, hlast⟩ := hafter.append_inj hafter' (head_append hsecond) (head_append hsecond')
        (List.cons.inj hcons).2
      obtain ⟨rfl, rfl⟩ := spelling_append_inj hsecond hsecond' htrailing.head htrailing'.head hlast
      exact ⟨rfl, rfl⟩

/-- The fault of the text after a keyword.  More than one comma counts before any operand is looked at,
and the first operand before the second. -/
inductive Rejects : List Char → Fault → Prop
  /-- There is more than one comma, whatever the text is otherwise. -/
  | count {text : List Char} (hcommas : 2 ≤ text.count ',') : Rejects text .operandCount
  /-- The only operand is misspelt. -/
  | only {text : List Char} (hcomma : ',' ∉ text) (hvisible : ¬ Blanks text)
      (hbad : ∀ a : Operand, ¬ a.Spells (trim text)) :
      Rejects text (Operand.misspelling (trim text))
  /-- The first of two operands is misspelt, whatever the second is. -/
  | first {first second : List Char} (hfirst : ',' ∉ first) (hsecond : ',' ∉ second)
      (hbad : ∀ a : Operand, ¬ a.Spells (trim first)) :
      Rejects (first ++ ',' :: second) (Operand.misspelling (trim first))
  /-- The second of two operands is misspelt, and the first is not. -/
  | second {first second : List Char} {a : Operand} (hfirst : ',' ∉ first) (hsecond : ',' ∉ second)
      (hgood : a.Spells (trim first)) (hbad : ∀ b : Operand, ¬ b.Spells (trim second)) :
      Rejects (first ++ ',' :: second) (Operand.misspelling (trim second))

end Arguments

/-! ### Reading the operands -/

section Reading

variable {text first second : List Char}

lemma parseOperands_of_blanks (h : Blanks text) : parseOperands text = .ok [] := by
  rw [parseOperands, if_pos (all_isBlank_iff.2 h)]

/-- Without a comma there is one operand to read. -/
lemma parseOperands_of_no_comma (hcomma : ',' ∉ text) (hvisible : ¬ Blanks text) :
    parseOperands text = (Operand.parse text).map fun a => [a] := by
  rw [parseOperands, if_neg (mt all_isBlank_iff.1 hvisible), List.splitOn_eq_singleton hcomma]
  simp only [List.length_singleton]
  rw [if_neg (by decide), List.mapM_cons]
  cases Operand.parse text <;> rfl

/-- With one comma there are two operands to read, the first one first. -/
lemma parseOperands_of_comma (hfirst : ',' ∉ first) (hsecond : ',' ∉ second) :
    parseOperands (first ++ ',' :: second) =
      (Operand.parse first).bind fun a => (Operand.parse second).map fun b => [a, b] := by
  have hvisible : ¬ Blanks (first ++ ',' :: second) := fun h => h.comma (by simp)
  rw [parseOperands, if_neg (mt all_isBlank_iff.1 hvisible),
    List.splitOn_append_cons_self_of_not_mem hfirst, List.splitOn_eq_singleton hsecond]
  simp only [List.length_cons, List.length_nil]
  rw [if_neg (by decide), List.mapM_cons, List.mapM_cons]
  cases Operand.parse first <;> cases Operand.parse second <;> rfl

/-- A text has no comma, or one, or more. -/
lemma comma_cases (text : List Char) :
    ',' ∉ text ∨ (∃ first second, text = first ++ ',' :: second ∧ ',' ∉ first ∧ ',' ∉ second) ∨
      ∃ first second rest, text = first ++ ',' :: (second ++ ',' :: rest) ∧
        ',' ∉ first ∧ ',' ∉ second := by
  by_cases hcomma : ',' ∈ text
  · obtain ⟨first, rest, rfl, hfirst⟩ := List.eq_append_cons_of_mem hcomma
    by_cases hcomma' : ',' ∈ rest
    · obtain ⟨second, rest, rfl, hsecond⟩ := List.eq_append_cons_of_mem hcomma'
      exact .inr (.inr ⟨first, second, rest, rfl, hfirst, hsecond⟩)
    · exact .inr (.inl ⟨first, rest, rfl, hfirst, hcomma'⟩)
  · exact .inl hcomma

/-- With more than one comma nothing is read. -/
lemma parseOperands_of_commas (h : 2 ≤ text.count ',') : parseOperands text = .error .operandCount := by
  rcases comma_cases text with hcomma | ⟨first, second, rfl, hfirst, hsecond⟩ |
    ⟨first, second, rest, rfl, hfirst, hsecond⟩
  · rw [List.count_eq_zero.2 hcomma] at h
    omega
  · rw [List.count_append, List.count_cons_self, List.count_eq_zero.2 hfirst,
      List.count_eq_zero.2 hsecond] at h
    omega
  · have hvisible : ¬ Blanks (first ++ ',' :: (second ++ ',' :: rest)) := fun h => h.comma (by simp)
    have hlength : 0 < (rest.splitOn ',').length := List.length_pos_iff.2 (List.splitOn_ne_nil _ _)
    rw [parseOperands, if_neg (mt all_isBlank_iff.1 hvisible),
      List.splitOn_append_cons_self_of_not_mem hfirst, List.splitOn_append_cons_self_of_not_mem hsecond]
    refine if_pos ?_
    simp only [maxOperands, List.length_cons]
    omega

/-- A spelling is read with the blanks around it. -/
lemma parse_between {before spelling after : List Char} {a : Operand} (hbefore : Blanks before)
    (h : a.Spells spelling) (hafter : Blanks after) :
    ',' ∉ before ++ spelling ++ after ∧ Operand.parse (before ++ spelling ++ after) = .ok a := by
  have hplain := h.plain.2
  refine ⟨?_, Operand.Spells.parse_eq ?_⟩
  · have hcomma : ',' ∉ spelling := fun hmem => (hplain _ hmem).2.1 rfl
    simp [hbefore.comma, hcomma, hafter.comma]
  · rwa [trim_between hbefore (fun c hc => (hplain c hc).1) hafter]

/-- The operands of a layout are read from its text. -/
lemma Arguments.Spells.parseOperands_eq {arguments : Arguments} {operands : List Operand}
    (h : arguments.Spells operands) {trailing : List Char} (htrailing : Blanks trailing) :
    parseOperands (arguments.text ++ trailing) = .ok operands := by
  cases h with
  | none => exact parseOperands_of_blanks htrailing
  | @one gap first a hne hgap hfirst =>
    obtain ⟨hcomma, hread⟩ := parse_between hgap hfirst htrailing
    have hvisible : ¬ Blanks (gap ++ first ++ trailing) := by
      obtain ⟨c, hc⟩ := List.exists_mem_of_ne_nil first hfirst.plain.1
      exact not_blanks_of_mem (by simp [hc]) (hfirst.plain.2 c hc).1
    rw [Arguments.text, parseOperands_of_no_comma hcomma hvisible, hread]
    rfl
  | @two gap first before after second a b hne hgap hfirst hbefore hafter hsecond =>
    obtain ⟨hcomma, hread⟩ := parse_between hgap hfirst hbefore
    obtain ⟨hcomma', hread'⟩ := parse_between hafter hsecond htrailing
    have htext : (Arguments.two gap first before after second).text ++ trailing =
        (gap ++ first ++ before) ++ ',' :: (after ++ second ++ trailing) := by
      simp [Arguments.text]
    rw [htext, parseOperands_of_comma hcomma hcomma', hread, hread']
    rfl

/-- The fault of a text is found in it. -/
lemma Arguments.Rejects.parseOperands_eq {fault : Fault} (h : Arguments.Rejects text fault)
    (hsemicolon : ';' ∉ text) : parseOperands text = .error fault := by
  cases h with
  | count hcommas => exact parseOperands_of_commas hcommas
  | only hcomma hvisible hbad =>
    rw [parseOperands_of_no_comma hcomma hvisible,
      (Operand.parse_eq_error_iff hcomma hsemicolon).2 ⟨hbad, rfl⟩]
    rfl
  | @first first second hfirst hsecond hbad =>
    have hsemicolon' : ';' ∉ first ∧ ';' ∉ second := by simpa using hsemicolon
    rw [parseOperands_of_comma hfirst hsecond,
      (Operand.parse_eq_error_iff hfirst hsemicolon'.1).2 ⟨hbad, rfl⟩]
    rfl
  | @second first second a hfirst hsecond hgood hbad =>
    have hsemicolon' : ';' ∉ first ∧ ';' ∉ second := by simpa using hsemicolon
    rw [parseOperands_of_comma hfirst hsecond, hgood.parse_eq,
      (Operand.parse_eq_error_iff hsecond hsemicolon'.2).2 ⟨hbad, rfl⟩]
    rfl

/-- A text that begins with a blank has a layout, or it has a fault. -/
lemma exists_spells_or_rejects (hhead : ∀ c ∈ text.head?, isBlank c = true) :
    (∃ (arguments : Arguments) (trailing : List Char) (operands : List Operand),
      text = arguments.text ++ trailing ∧ Blanks trailing ∧ arguments.Spells operands) ∨
    ∃ fault, Arguments.Rejects text fault := by
  rcases comma_cases text with hcomma | ⟨first, second, rfl, hfirst, hsecond⟩ |
    ⟨first, second, rest, rfl, -, -⟩
  · by_cases hvisible : Blanks text
    · exact .inl ⟨.none, text, [], rfl, hvisible, .none⟩
    · by_cases hgood : ∃ a : Operand, a.Spells (trim text)
      · obtain ⟨a, hspells⟩ := hgood
        obtain ⟨gap, trailing, hgap, htrailing, htext⟩ := exists_eq_append_trim text
        have hne : gap ≠ [] := ne_nil_of_head hspells (by rwa [← List.append_assoc, ← htext])
        exact .inl ⟨.one gap (trim text), trailing, [a], htext, htrailing, .one hne hgap hspells⟩
      · exact .inr ⟨_, .only hcomma hvisible (not_exists.1 hgood)⟩
  · by_cases hgood : ∃ a : Operand, a.Spells (trim first)
    · obtain ⟨a, hspells⟩ := hgood
      by_cases hgood' : ∃ b : Operand, b.Spells (trim second)
      · obtain ⟨b, hspells'⟩ := hgood'
        obtain ⟨gap, before, hgap, hbefore, htext⟩ := exists_eq_append_trim first
        obtain ⟨after, trailing, hafter, htrailing, htext'⟩ := exists_eq_append_trim second
        have hne : gap ≠ [] := by
          rw [htext, List.append_assoc, List.append_assoc] at hhead
          exact ne_nil_of_head hspells hhead
        refine .inl ⟨.two gap (trim first) before after (trim second), trailing, [a, b], ?_, htrailing,
          .two hne hgap hspells hbefore hafter hspells'⟩
        rw [Arguments.text, List.append_assoc, List.cons_append, ← htext, ← htext']
      · exact .inr ⟨_, .second hfirst hsecond hspells (not_exists.1 hgood')⟩
    · exact .inr ⟨_, .first hfirst hsecond (not_exists.1 hgood)⟩
  · refine .inr ⟨_, .count ?_⟩
    simp only [List.count_append, List.count_cons_self]
    omega

end Reading

/-! ### Layouts -/

/-- The pieces of a line with a statement, in their order. -/
@[ext]
structure Layout where
  /-- The blanks before the keyword. -/
  indent : List Char
  /-- The keyword. -/
  keyword : List Char
  /-- The operands, with the blanks before each. -/
  arguments : Arguments
  /-- The blanks behind the last operand, or behind the keyword if there is none. -/
  trailing : List Char
  /-- The comment with its semicolon, or nothing. -/
  comment : List Char
deriving DecidableEq

namespace Layout

/-- The line that has the layout. -/
def text (layout : Layout) : List Char :=
  layout.indent ++ (layout.keyword ++ (layout.arguments.text ++ layout.trailing)) ++ layout.comment

/-- The pieces spell an opcode with its operands. -/
structure Spells (layout : Layout) (op : Opcode) (operands : List Operand) : Prop where
  /-- The line is indented with blanks. -/
  indent : Blanks layout.indent
  /-- The keyword has no blank and no semicolon. -/
  keyword : Unbroken layout.keyword
  /-- The keyword names the opcode. -/
  names : Names layout.keyword op
  /-- The operands are spelled behind it. -/
  arguments : layout.arguments.Spells operands
  /-- Only blanks follow the operands. -/
  trailing : Blanks layout.trailing
  /-- A comment ends the line, or nothing. -/
  comment : IsComment layout.comment

variable {layout layout' : Layout} {op op' : Opcode} {operands operands' : List Operand}

/-- A layout splits its line. -/
lemma Spells.splits (h : layout.Spells op operands) :
    Splits layout.text layout.indent layout.keyword (layout.arguments.text ++ layout.trailing)
      layout.comment where
  line_eq := rfl
  lead_blanks := h.indent
  word_ne_nil := by
    intro hnil
    have hnames := h.names
    rw [Names, hnil] at hnames
    cases op <;> cases hnames
  word_unbroken := h.keyword
  arguments_head := (h.arguments.plain h.trailing).1
  arguments_plain := (h.arguments.plain h.trailing).2
  comment := h.comment

/-- A line is read as what its layout spells. -/
lemma Spells.parse_eq {line : String} (h : layout.Spells op operands) (htext : layout.text = line.toList) :
    parse line = .ok (some ⟨op, operands, h.arguments.length_le⟩) := by
  have hsplits := h.splits
  rw [htext] at hsplits
  rw [hsplits.parse_eq, opcode?_eq_some_iff.2 h.names, h.arguments.parseOperands_eq h.trailing]
  exact congrArg (fun i => Except.ok (some i)) (Instruction.ofOperands_operands ⟨op, operands, _⟩)

/-- A line has one layout, and spells one opcode with its operands. -/
lemma Spells.unique (h : layout.Spells op operands) (h' : layout'.Spells op' operands')
    (htext : layout.text = layout'.text) : layout = layout' ∧ op = op' ∧ operands = operands' := by
  -- both readings are what is read from the line, so they agree, and then the pieces do
  have hread := h.parse_eq (String.toList_ofList (l := layout.text)).symm
  have hread' := h'.parse_eq (htext.symm.trans (String.toList_ofList (l := layout.text)).symm)
  rw [hread] at hread'
  obtain ⟨rfl, rfl⟩ := Instruction.mk.inj (Option.some.inj (Except.ok.inj hread'))
  have hsplits := h'.splits
  rw [← htext] at hsplits
  obtain ⟨hindent, hkeyword, harguments, hcomment⟩ := h.splits.unique hsplits
  obtain ⟨harguments, htrailing⟩ := h.arguments.unique h'.arguments h.trailing h'.trailing harguments
  exact ⟨Layout.ext hindent hkeyword harguments htrailing hcomment, rfl, rfl⟩

end Layout

/-! ### Rejected lines -/

/-- The fault of a line.  A word that is no keyword counts before everything that follows it. -/
inductive Rejects (line : List Char) : Fault → Prop
  /-- The word names no opcode, whatever follows it. -/
  | keyword {lead word arguments comment : List Char} (h : Splits line lead word arguments comment)
      (hword : ∀ op, ¬ Names word op) : Rejects line .unknownKeyword
  /-- The word names an opcode, and there is a fault in the text behind it. -/
  | arguments {lead word arguments comment : List Char} {op : Opcode} {fault : Fault}
      (h : Splits line lead word arguments comment) (hword : Names word op)
      (hfault : Arguments.Rejects arguments fault) : Rejects line fault

lemma Rejects.parse_eq {line : String} {fault : Fault} (h : Rejects line.toList fault) :
    parse line = .error fault := by
  cases h with
  | @keyword _ word _ _ h hword =>
    have hnone : opcode? word = none :=
      Option.eq_none_iff_forall_ne_some.2 fun op hop => hword op (opcode?_eq_some_iff.1 hop)
    rw [h.parse_eq, hnone]
  | arguments h hword hfault =>
    rw [h.parse_eq, opcode?_eq_some_iff.2 hword, hfault.parseOperands_eq h.arguments_plain]
    rfl

/-! ### How a line is read -/

/-- What a line stands for: nothing, an instruction, or a fault. -/
inductive Stands (line : List Char) : Except Fault (Option Instruction) → Prop
  /-- There are only blanks, and a comment perhaps. -/
  | nothing {before comment : List Char} (hline : line = before ++ comment) (hbefore : Blanks before)
      (hcomment : IsComment comment) : Stands line (.ok none)
  /-- The line has a layout. -/
  | statement {layout : Layout} {op : Opcode} {operands : List Operand} (htext : layout.text = line)
      (h : layout.Spells op operands) : Stands line (.ok (some ⟨op, operands, h.arguments.length_le⟩))
  /-- The line is rejected. -/
  | fault {fault : Fault} (h : Rejects line fault) : Stands line (.error fault)

/-- Every line stands for something. -/
lemma exists_stands (line : List Char) : ∃ reading, Stands line reading := by
  by_cases hblank : Blanks (code line)
  · exact ⟨_, .nothing List.takeWhile_append_dropWhile.symm hblank (isComment_dropWhile line)⟩
  · obtain ⟨lead, word, arguments, comment, h⟩ := exists_splits hblank
    by_cases hword : ∃ op, Names word op
    · obtain ⟨op, hop⟩ := hword
      rcases exists_spells_or_rejects h.arguments_head with
        ⟨arguments, trailing, operands, rfl, htrailing, hspells⟩ | ⟨fault, hfault⟩
      · have hlayout : (Layout.mk lead word arguments trailing comment).Spells op operands :=
          ⟨h.lead_blanks, h.word_unbroken, hop, hspells, htrailing, h.comment⟩
        have htext : (Layout.mk lead word arguments trailing comment).text = line := h.line_eq.symm
        exact ⟨_, .statement htext hlayout⟩
      · exact ⟨_, .fault (.arguments h hop hfault)⟩
    · exact ⟨_, .fault (.keyword h (not_exists.1 hword))⟩

/-- A line is read as what it stands for. -/
lemma parse_eq_iff_stands {line : String} {reading : Except Fault (Option Instruction)} :
    parse line = reading ↔ Stands line.toList reading := by
  have hread : ∀ {reading}, Stands line.toList reading → parse line = reading := by
    rintro _ (⟨hline, hbefore, hcomment⟩ | ⟨htext, h⟩ | h)
    · simp only [parse, hline]
      rw [(code_append hbefore.semicolon hcomment).1, if_pos (all_isBlank_iff.2 hbefore)]
    · exact h.parse_eq htext
    · exact h.parse_eq
  refine ⟨?_, hread⟩
  rintro rfl
  obtain ⟨reading, h⟩ := exists_stands line.toList
  rwa [hread h]

/-- The reader accepts its grammar and nothing else.  A line is read as an instruction exactly if it has
a layout that spells the instruction; it has only one such layout, and spells only one opcode with its
operands.  It is read as no statement exactly if there are only blanks before its comment.  On every
other line the fault is reported that `Rejects` gives to it. -/
theorem parse_eq_iff_layout (line : String) :
    (∀ i : Instruction, parse line = .ok (some i) ↔
      ∃ layout : Layout, layout.text = line.toList ∧ layout.Spells i.opcode i.operands) ∧
    (∀ (layout layout' : Layout) (op op' : Opcode) (operands operands' : List Operand),
      layout.text = line.toList → layout.Spells op operands →
      layout'.text = line.toList → layout'.Spells op' operands' →
      layout = layout' ∧ op = op' ∧ operands = operands') ∧
    (parse line = .ok none ↔
      ∃ before comment, line.toList = before ++ comment ∧ Blanks before ∧ IsComment comment) ∧
    ∀ fault, parse line = .error fault ↔ Rejects line.toList fault := by
  refine ⟨fun i => ?_, ?_, ?_, fun fault => ?_⟩
  · rw [parse_eq_iff_stands]
    constructor
    · rintro ⟨⟩
      next htext h => exact ⟨_, htext, h⟩
    · rintro ⟨layout, htext, h⟩
      exact .statement htext h
  · intro layout layout' op op' operands operands' htext h htext' h'
    exact h.unique h' (htext.trans htext'.symm)
  · rw [parse_eq_iff_stands]
    constructor
    · rintro ⟨hline, hbefore, hcomment⟩
      exact ⟨_, _, hline, hbefore, hcomment⟩
    · rintro ⟨before, comment, hline, hbefore, hcomment⟩
      exact .nothing hline hbefore hcomment
  · rw [parse_eq_iff_stands]
    constructor
    · rintro ⟨⟩
      next h => exact h
    · exact .fault

/-- A line with its layout, and another cut of the same line, which is no layout; a line whose third
operand hides its first; and a word that hides both. -/
theorem parse_eq_iff_layout_examples :
    parse " mov m1 ,+07;x" = .ok (some (.ofOperands .mov [.memory 1, .integer 7])) ∧
    ¬ (Layout.mk [] [' ', 'm', 'o', 'v'] (.two [' '] ['m', '1'] [' '] [] ['+', '0', '7']) []
      [';', 'x']).Spells .mov [.memory 1, .integer 7] ∧
    parse " ;x" = .ok none ∧
    parse "mov x,y,z" = .error .operandCount ∧
    parse "move x,y,z" = .error .unknownKeyword := by
  have hseven : Decimal.Numeral ['+', '0', '7'] (7 : Int64).toInt :=
    @Decimal.Numeral.plus ['0', '7'] (by decide) (List.all_eq_true.1 (by decide))
  have hlayout : (Layout.mk [' '] ['m', 'o', 'v'] (.two [' '] ['m', '1'] [' '] [] ['+', '0', '7']) []
      [';', 'x']).Spells .mov [.memory 1, .integer 7] :=
    ⟨by decide, by decide, by decide,
      .two (by decide) (by decide) (.cell (.inr rfl) (by decide) (by decide)) (by decide) (by decide)
        (.literal hseven), by decide, .inr ⟨_, rfl⟩⟩
  have hhead : ∀ c ∈ [' ', 'x', ',', 'y', ',', 'z'].head?, isBlank c = true := by
    rintro c ⟨⟩
    decide
  refine ⟨?_, fun hcut => ?_, ?_, ?_, ?_⟩
  · exact ((parse_eq_iff_layout _).1 _).2 ⟨_, rfl, hlayout⟩
  · have hsame := (parse_eq_iff_layout " mov m1 ,+07;x").2.1 _ _ _ _ _ _ rfl hlayout rfl hcut
    exact absurd hsame.1 (by decide)
  · exact (parse_eq_iff_layout _).2.2.1.2 ⟨[' '], [';', 'x'], rfl, by decide, .inr ⟨_, rfl⟩⟩
  · have hsplits : Splits "mov x,y,z".toList [] ['m', 'o', 'v'] [' ', 'x', ',', 'y', ',', 'z'] [] :=
      ⟨rfl, by decide, by decide, by decide, hhead, by decide, .inl rfl⟩
    have hnames : Names ['m', 'o', 'v'] .mov := by decide
    exact ((parse_eq_iff_layout _).2.2.2 _).2 (.arguments hsplits hnames (.count (by decide)))
  · have hsplits : Splits "move x,y,z".toList [] ['m', 'o', 'v', 'e'] [' ', 'x', ',', 'y', ',', 'z'] [] :=
      ⟨rfl, by decide, by decide, by decide, hhead, by decide, .inl rfl⟩
    have hword : ∀ op, ¬ Names ['m', 'o', 'v', 'e'] op := by
      intro op
      cases op <;> decide
    exact ((parse_eq_iff_layout _).2.2.2 _).2 (.keyword hsplits hword)

end StackMachine.Statement
