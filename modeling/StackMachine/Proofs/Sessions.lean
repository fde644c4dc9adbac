import StackMachine.Proofs.LineEnds
import StackMachine.Proofs.Splits
import StackMachine.Proofs.Writers
import StackMachine.Session

/-!
# Sessions line by line

A session answers its lines one after the other, and what it writes for a line depends on that line and on
the state of the machine only.  So a session on some lines and then others is a session on the first of
them and, unless it has ended there, one on the others from the state that it has come to
(`Session.resume_append`).  For the input this means that what comes later never changes what has been
written before (`Session.run_append`).

A session ends at a line that asks for it, at an `EXIT` and at a line that is not valid UTF-8
(`Session.IsLast`), and at no other line.
-/

namespace StackMachine

/-! ### Words that are no keywords -/

/-- A line with nothing but a word that is no keyword cannot be read. -/
lemma Statement.parse_of_trim_eq_word {line : String} {word : List Char}
    (htrim : Text.trim line.toList = word) (hne : word ≠ [])
    (hall : word.all (fun c => ! Text.isBlank c && c != ';')) (hword : opcode? word = none) :
    parse line = .error .unknownKeyword := by
  obtain ⟨before, after, hbefore, hafter, hline⟩ := Text.exists_eq_append_trim line.toList
  have hsplits : Splits line.toList before word after [] := {
    line_eq := by rw [List.append_nil, ← List.append_assoc, ← htrim, ← hline]
    lead_blanks := hbefore
    word_ne_nil := hne
    word_unbroken := fun c hc => by simpa using List.all_eq_true.1 hall c hc
    arguments_head := fun c hc => hafter c (List.mem_of_mem_head? hc)
    arguments_plain := Blanks.semicolon hafter
    comment := .inl rfl }
  rw [hsplits.parse_eq, hword]

/-! ### The line that ends a session -/

namespace Session

/-- The command that a line is, blanks around it apart. -/
def command (line : String) : String :=
  String.ofList (Text.trim line.toList)

/-- The line is a command of the session, and no statement. -/
def IsCommand (line : String) : Prop :=
  (command line = ":quit" ∨ command line = ":q") ∨ command line = ":state"

instance (line : String) : Decidable (IsCommand line) :=
  inferInstanceAs (Decidable ((command line = ":quit" ∨ command line = ":q") ∨ command line = ":state"))

/-- The line asks for the end of the session, or holds an `EXIT` with whatever operands. -/
inductive Dismisses (line : String) : Prop where
  | quit (hcommand : command line = ":quit" ∨ command line = ":q")
  | exit {i : Instruction} (hparse : Statement.parse line = .ok (some i)) (hexit : i.opcode = .exit)

/-- The line ends the session: it asks for it, or it is not valid UTF-8. -/
def IsLast (bytes : ByteArray) : Prop :=
  ∀ line, String.fromUTF8? bytes = some line → Dismisses line

/-- The commands of a session are no instructions. -/
lemma IsCommand.parse_eq {line : String} (h : IsCommand line) :
    Statement.parse line = .error .unknownKeyword := by
  have htrim : ∀ word : String, command line = word → Text.trim line.toList = word.toList := by
    rintro word rfl
    rw [command, String.toList_ofList]
  rcases h with (hline | hline) | hline
  · apply Statement.parse_of_trim_eq_word (htrim _ hline) <;> decide +kernel
  · apply Statement.parse_of_trim_eq_word (htrim _ hline) <;> decide +kernel
  · apply Statement.parse_of_trim_eq_word (htrim _ hline) <;> decide +kernel

end Session

namespace State

variable {s : State} {line : String}

/-- To a line that asks for the end there is nothing to write. -/
lemma answer_of_quit (h : Session.command line = ":quit" ∨ Session.command line = ":q") :
    s.answer line = ⟨[], true, s⟩ := by
  simp only [Session.command] at h
  simp only [answer]
  rw [if_pos h]

/-- The state is written when it is asked for. -/
lemma answer_of_state (h : Session.command line = ":state") : s.answer line = ⟨[s.dump], false, s⟩ := by
  have hquit : ¬ (Session.command line = ":quit" ∨ Session.command line = ":q") := by
    rw [h]
    decide
  simp only [Session.command] at h hquit
  simp only [answer]
  rw [if_neg hquit, if_pos h]

/-- Every other line is answered with the effect of its statement. -/
lemma answer_of_not_isCommand (h : ¬ Session.IsCommand line) :
    s.answer line =
      ⟨((s.runLine line).emitted.toList.map fun value => (Event.output value).report ++ "\n") ++
        (s.runLine line).note line,
        (s.runLine line).state.lastCategory == .exit, (s.runLine line).state⟩ := by
  obtain ⟨hquit, hstate⟩ := not_or.1 h
  simp only [Session.command] at hquit hstate
  simp only [answer]
  rw [if_neg hquit, if_neg hstate]

/-- A line leaves the machine after an `EXIT` if it holds one. -/
lemma lastCategory_runLine_eq_exit_iff (hs : s.lastCategory ≠ .exit) :
    (s.runLine line).state.lastCategory = .exit ↔
      ∃ i, Statement.parse line = .ok (some i) ∧ i.opcode = .exit := by
  unfold runLine
  rcases hparse : Statement.parse line with fault | _ | i
  · simpa [Effect.fail] using hs
  · simpa [Effect.next, Effect.jump] using hs
  · simp [Opcode.category_eq_exit_iff]

/-- The answer to a line is the last one if the line asks for it. -/
lemma answer_isLast_iff (hs : s.lastCategory ≠ .exit) :
    (s.answer line).isLast = true ↔ Session.Dismisses line := by
  by_cases hcommand : Session.IsCommand line
  · have hparse := hcommand.parse_eq
    rcases hcommand with hquit | hstate
    · rw [answer_of_quit hquit]
      exact ⟨fun _ => .quit hquit, fun _ => rfl⟩
    · rw [answer_of_state hstate]
      refine ⟨fun h => absurd h Bool.false_ne_true, ?_⟩
      rintro (hquit | ⟨hsome, -⟩)
      · rw [hstate] at hquit
        exact absurd hquit (by decide)
      · rw [hparse] at hsome
        cases hsome
  · rw [answer_of_not_isCommand hcommand, beq_iff_eq, lastCategory_runLine_eq_exit_iff hs]
    constructor
    · rintro ⟨i, hparse, hexit⟩
      exact .exit hparse hexit
    · rintro (hquit | ⟨hparse, hexit⟩)
      · exact absurd (.inl hquit) hcommand
      · exact ⟨_, hparse, hexit⟩

/-- After an answer that is not the last one the machine stands after no `EXIT`. -/
lemma lastCategory_answer_ne_exit (hs : s.lastCategory ≠ .exit) (hlast : (s.answer line).isLast = false) :
    (s.answer line).state.lastCategory ≠ .exit := by
  by_cases hcommand : Session.IsCommand line
  · rcases hcommand with hquit | hstate
    · rw [answer_of_quit hquit] at hlast
      cases hlast
    · rw [answer_of_state hstate]
      exact hs
  · rw [answer_of_not_isCommand hcommand] at hlast ⊢
    simpa using hlast

end State

/-! ### Lines one after the other -/

namespace Answer

/-- The pieces that are written for a line, with the prompt for the next one. -/
def pieces (answer : Answer) : List String :=
  answer.texts ++ if answer.isLast then [] else [Session.prompt]

/-- Everything that is written for a line. -/
def output (answer : Answer) : String :=
  String.join answer.pieces

end Answer

namespace Session

variable {s : State} {w w' : Writer} {written : ByteArray} {bytes : ByteArray} {line : String}
  {rest : List ByteArray}

section Cons

variable (hline : String.fromUTF8? bytes = some line)
include hline

/-- A write that fails breaks the session off. -/
lemma resume_cons_of_error (hwrite : w.writeAll (s.answer line).pieces = .error w') :
    resume s w (bytes :: rest) = ⟨w'.written, .writeFailed, (s.answer line).state⟩ := by
  simp only [Answer.pieces] at hwrite
  simp only [resume, hline, hwrite]

/-- The last answer ends the session. -/
lemma resume_cons_of_last (hwrite : w.writeAll (s.answer line).pieces = .ok w')
    (hlast : (s.answer line).isLast = true) :
    resume s w (bytes :: rest) = ⟨w'.written, .dismissed, (s.answer line).state⟩ := by
  simp only [Answer.pieces] at hwrite
  simp only [resume, hline, hwrite]
  rw [if_pos hlast]

/-- After any other answer the session goes on. -/
lemma resume_cons_of_not_last (hwrite : w.writeAll (s.answer line).pieces = .ok w')
    (hlast : ¬ (s.answer line).isLast = true) :
    resume s w (bytes :: rest) = resume (s.answer line).state w' rest := by
  simp only [Answer.pieces] at hwrite
  simp only [resume, hline, hwrite]
  rw [if_neg hlast]

/-- A line is answered in full if the writer has no capacity. -/
lemma resume_none_cons :
    resume s ⟨none, written⟩ (bytes :: rest) =
      if (s.answer line).isLast then
        ⟨written ++ (s.answer line).output.toUTF8, .dismissed, (s.answer line).state⟩
      else
        resume (s.answer line).state ⟨none, written ++ (s.answer line).output.toUTF8⟩ rest := by
  have hwrite := Writer.writeAll_none written (s.answer line).pieces
  split
  · next hlast => exact resume_cons_of_last hline hwrite hlast
  · next hlast => exact resume_cons_of_not_last hline hwrite hlast

end Cons

/-- A session on some lines and then others goes on with the others from where the first have led, unless
it has ended by then.  This holds for every writer. -/
theorem resume_append (s : State) (w : Writer) (first rest : List ByteArray) :
    resume s w (first ++ rest) =
      if (resume s w first).ending = .inputUsedUp then
        resume (resume s w first).state ⟨w.capacity, (resume s w first).written⟩ rest
      else resume s w first := by
  induction first generalizing s w with
  | nil => rfl
  | cons bytes first ih =>
    rw [List.cons_append]
    rcases hline : String.fromUTF8? bytes with _ | line
    · rw [resume_of_fromUTF8?_eq_none hline, resume_of_fromUTF8?_eq_none hline]
      rfl
    rcases hwrite : w.writeAll (s.answer line).pieces with w' | w'
    · rw [resume_cons_of_error hline hwrite, resume_cons_of_error hline hwrite]
      rfl
    by_cases hlast : (s.answer line).isLast = true
    · rw [resume_cons_of_last hline hwrite hlast, resume_cons_of_last hline hwrite hlast]
      rfl
    · rw [resume_cons_of_not_last hline hwrite hlast, resume_cons_of_not_last hline hwrite hlast, ih,
        Writer.capacity_of_writeAll_eq_ok hwrite]

/-- What a writer without a capacity has taken before does not matter. -/
lemma resume_none_eq (s : State) (written : ByteArray) (lines : List ByteArray) :
    resume s ⟨none, written⟩ lines =
      ⟨written ++ (resume s (.new none) lines).written, (resume s (.new none) lines).ending,
        (resume s (.new none) lines).state⟩ := by
  induction lines generalizing s written with
  | nil => simp [resume, Writer.new]
  | cons bytes rest ih =>
    rw [Writer.new]
    rcases hline : String.fromUTF8? bytes with _ | line
    · simp [resume, hline]
    · rw [resume_none_cons hline, resume_none_cons hline, ByteArray.empty_append]
      generalize s.answer line = answer
      by_cases hlast : answer.isLast = true
      · rw [if_pos hlast, if_pos hlast]
      · rw [if_neg hlast, if_neg hlast, ih _ (written ++ _), ih _ answer.output.toUTF8,
          ByteArray.append_assoc]

/-- A session whose writer has no capacity uses up its lines if none of them ends it. -/
lemma ending_resume_none (hs : s.lastCategory ≠ .exit) (written : ByteArray) (lines : List ByteArray) :
    (resume s ⟨none, written⟩ lines).ending = .inputUsedUp ↔ ∀ bytes ∈ lines, ¬ IsLast bytes := by
  induction lines generalizing s written with
  | nil => simp [resume]
  | cons bytes rest ih =>
    rw [List.forall_mem_cons]
    rcases hline : String.fromUTF8? bytes with _ | line
    · have hlast : IsLast bytes := by
        intro line hsome
        rw [hline] at hsome
        cases hsome
      simp [resume, hline, hlast]
    · have hlast : IsLast bytes ↔ (s.answer line).isLast = true := by
        rw [State.answer_isLast_iff hs, IsLast, hline]
        simp
      rw [resume_none_cons hline, hlast]
      by_cases hanswer : (s.answer line).isLast = true
      · simp [hanswer]
      · rw [if_neg hanswer, ih (State.lastCategory_answer_ne_exit hs (by simpa using hanswer))]
        simp [hanswer]

/-! ### Input in two parts -/

/-- A session begins with the prompt for the first line. -/
lemma run_none (s : State) (input : ByteArray) :
    run s (.new none) input =
      resume s ⟨none, prompt.toUTF8⟩ (Text.byteLines input) := by
  rw [run, Writer.write_of_capacity_eq_none rfl, Writer.new, ByteArray.empty_append]

/-- Later input never changes what a session has written before.

The input is cut after the end of a line.  A session ends on the first part if and only if some line of it
ends a session; then the rest of the input has no influence at all, whatever bytes it holds.  Otherwise
the session goes on as a session on the rest, from the state to which the first part has led; only the
first prompt of that session is not written a second time. -/
theorem run_append {s : State} (hs : s.lastCategory ≠ .exit) {first : ByteArray}
    (hfirst : Text.CompleteBytes first) (rest : ByteArray) :
    ((run s (.new none) first).ending ≠ .inputUsedUp ↔
      ∃ bytes ∈ Text.byteLines first, IsLast bytes) ∧
    ((∃ bytes ∈ Text.byteLines first, IsLast bytes) →
      run s (.new none) (first ++ rest) = run s (.new none) first) ∧
    ((∀ bytes ∈ Text.byteLines first, ¬ IsLast bytes) →
      ∃ answers,
        (run (run s (.new none) first).state (.new none) rest).written =
          prompt.toUTF8 ++ answers ∧
        run s (.new none) (first ++ rest) =
          ⟨(run s (.new none) first).written ++ answers,
            (run (run s (.new none) first).state (.new none) rest).ending,
            (run (run s (.new none) first).state (.new none) rest).state⟩) := by
  have hending : (run s (.new none) first).ending = .inputUsedUp ↔
      ∀ bytes ∈ Text.byteLines first, ¬ IsLast bytes := by
    rw [run_none]
    exact ending_resume_none hs _ _
  have happend : run s (.new none) (first ++ rest) =
      if (run s (.new none) first).ending = .inputUsedUp then
        resume (run s (.new none) first).state ⟨none, (run s (.new none) first).written⟩
          (Text.byteLines rest)
      else run s (.new none) first := by
    rw [run_none, run_none, Text.byteLines_append hfirst, resume_append]
  refine ⟨?_, ?_, ?_⟩
  · rw [ne_eq, hending]
    push Not
    rfl
  · rintro ⟨bytes, hmem, hlast⟩
    have hended : ¬ (run s (.new none) first).ending = .inputUsedUp := by
      rw [hending]
      intro hnone
      exact hnone bytes hmem hlast
    rw [happend, if_neg hended]
  · intro hnone
    have hrest := run_none (run s (.new none) first).state rest
    rw [resume_none_eq] at hrest
    rw [happend, if_pos (hending.2 hnone), resume_none_eq, hrest]
    exact ⟨_, rfl, rfl⟩

/-- After an `EXIT`, which may have operands, nothing is read any more.  Before bytes that are no text a
session has written the same as without them. -/
theorem run_append_before_invalid_text :
    State.initial.lastCategory ≠ .exit ∧
    Text.CompleteBytes "PUSH 4\r\n exit 5, M9 ; bye\n".toUTF8 ∧
    (∃ bytes ∈ Text.byteLines "PUSH 4\r\n exit 5, M9 ; bye\n".toUTF8, IsLast bytes) ∧
    (∀ rest, run .initial (.new none) ("PUSH 4\r\n exit 5, M9 ; bye\n".toUTF8 ++ rest) =
      run .initial (.new none) "PUSH 4\r\n exit 5, M9 ; bye\n".toUTF8) ∧
    Text.CompleteBytes "PUSH 4\r\nPOP M9\n".toUTF8 ∧
    (∀ bytes ∈ Text.byteLines "PUSH 4\r\nPOP M9\n".toUTF8, ¬ IsLast bytes) ∧
    ∃ answers,
      (run (run .initial (.new none) "PUSH 4\r\nPOP M9\n".toUTF8).state (.new none)
        ⟨#[0xff, 10]⟩).written = prompt.toUTF8 ++ answers ∧
      (run .initial (.new none) ("PUSH 4\r\nPOP M9\n".toUTF8 ++ ⟨#[0xff, 10]⟩)).written =
        (run .initial (.new none) "PUSH 4\r\nPOP M9\n".toUTF8).written ++ answers := by
  have hstart : State.initial.lastCategory ≠ .exit := by decide
  have hended : Text.CompleteBytes "PUSH 4\r\n exit 5, M9 ; bye\n".toUTF8 := by decide +kernel
  have hdismissed : (run .initial (.new none) "PUSH 4\r\n exit 5, M9 ; bye\n".toUTF8).ending ≠
      .inputUsedUp := by decide +kernel
  have hlast := (run_append hstart hended .empty).1.1 hdismissed
  have hopen : Text.CompleteBytes "PUSH 4\r\nPOP M9\n".toUTF8 := by decide +kernel
  have husedUp : (run .initial (.new none) "PUSH 4\r\nPOP M9\n".toUTF8).ending = .inputUsedUp := by
    decide +kernel
  have hnone : ∀ bytes ∈ Text.byteLines "PUSH 4\r\nPOP M9\n".toUTF8, ¬ IsLast bytes := by
    intro bytes hmem hbytes
    exact (run_append hstart hopen .empty).1.2 ⟨bytes, hmem, hbytes⟩ husedUp
  obtain ⟨answers, hanswers, hwhole⟩ := (run_append hstart hopen ⟨#[0xff, 10]⟩).2.2 hnone
  exact ⟨hstart, hended, hlast, fun rest => (run_append hstart hended rest).2.1 hlast, hopen, hnone,
    answers, hanswers, congrArg Session.written hwhole⟩

end Session

end StackMachine
