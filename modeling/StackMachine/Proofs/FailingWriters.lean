import StackMachine.Proofs.Sessions

/-!
# Sessions whose writer fails

A writer with a capacity takes so many bytes and fails at the next one.  A session that writes to it is the
session with a writer that takes everything, cut off at this byte (`Session.CutOff`): it has written as much
of the same output as fits, and it is broken off by its writer if and only if there is more.

`Session.run_of_capacity` says so, and also that a session that is broken off looks at nothing that comes
after the line at which this has happened.
-/

namespace StackMachine.Session

variable {s : State} {capacity : Nat} {written bytes : ByteArray} {line : String}
  {rest : List ByteArray}

/-- A session is another one cut off at the given number of bytes.  It is the same one if that wrote no more
than this, and else it is broken off by its writer. -/
structure CutOff (capacity : Nat) (whole cut : Session) : Prop where
  written : cut.written = whole.written.extract 0 capacity
  eq_of_le : whole.written.size ≤ capacity → cut = whole
  ending_of_lt : capacity < whole.written.size → cut.ending = .writeFailed

/-- Nothing is cut off a session that wrote no more. -/
lemma CutOff.refl {session : Session} (h : session.written.size ≤ capacity) :
    CutOff capacity session session :=
  ⟨(extract_eq_self_of_le h).symm, fun _ => rfl, fun hlt => absurd h (Nat.not_le.2 hlt)⟩

/-- A session whose output begins with more than fits is broken off with as much of that as does. -/
lemma CutOff.of_append {whole : Session} {first more : ByteArray} (h : whole.written = first ++ more)
    (hlt : capacity < first.size) (state : State) :
    CutOff capacity whole ⟨first.extract 0 capacity, .writeFailed, state⟩ := by
  have hsize : capacity < whole.written.size := by
    rw [h, ByteArray.size_append]
    omega
  refine ⟨?_, fun hle => absurd hle (Nat.not_le.2 hsize), fun _ => rfl⟩
  rw [h, extract_append_of_le (Nat.le_of_lt hlt)]

/-- A session goes on after what it has written. -/
lemma exists_written_resume_none (s : State) (written : ByteArray) (lines : List ByteArray) :
    ∃ more, (resume s ⟨none, written⟩ lines).written = written ++ more := by
  rw [resume_none_eq]
  exact ⟨_, rfl⟩

/-- The output on a line and what follows it begins with the answer to the line. -/
lemma exists_written_resume_none_cons (hline : String.fromUTF8? bytes = some line) (s : State)
    (written : ByteArray) (rest : List ByteArray) :
    ∃ more, (resume s ⟨none, written⟩ (bytes :: rest)).written =
      written ++ (s.answer line).output.toUTF8 ++ more := by
  rw [resume_none_cons hline]
  split
  · exact ⟨.empty, ByteArray.append_empty.symm⟩
  · exact exists_written_resume_none _ _ _

/-- A writer without a capacity never breaks a session off. -/
lemma ending_resume_none_ne_writeFailed (s : State) (written : ByteArray) (lines : List ByteArray) :
    (resume s ⟨none, written⟩ lines).ending ≠ .writeFailed := by
  induction lines generalizing s written with
  | nil => simp [resume]
  | cons bytes rest ih =>
    rcases hline : String.fromUTF8? bytes with _ | line
    · simp [resume_of_fromUTF8?_eq_none hline]
    · rw [resume_none_cons hline]
      split
      · simp
      · exact ih _ _

/-- From where both have written the same, a session with a capacity is the other one cut off. -/
lemma resume_cutOff (h : written.size ≤ capacity) (lines : List ByteArray) :
    CutOff capacity (resume s ⟨none, written⟩ lines) (resume s ⟨some capacity, written⟩ lines) := by
  induction lines generalizing s written with
  | nil => exact .refl h
  | cons bytes rest ih =>
    rcases hline : String.fromUTF8? bytes with _ | line
    · rw [resume_of_fromUTF8?_eq_none hline, resume_of_fromUTF8?_eq_none hline]
      exact .refl h
    have hwrite := Writer.writeAll_some h (s.answer line).pieces
    rcases Nat.lt_or_ge capacity (written ++ (s.answer line).output.toUTF8).size with hlt | hle
    · -- the answer does not fit, and the other session has written at least the answer
      obtain ⟨more, hmore⟩ := exists_written_resume_none_cons hline s written rest
      rw [resume_cons_of_error hline (hwrite.trans (Writer.write_of_lt hlt))]
      exact .of_append hmore hlt _
    · have hok := hwrite.trans (Writer.write_of_le hle)
      rw [resume_none_cons hline]
      by_cases hlast : (s.answer line).isLast = true
      · rw [if_pos hlast, resume_cons_of_last hline hok hlast]
        exact .refl hle
      · rw [if_neg hlast, resume_cons_of_not_last hline hok hlast]
        exact ih hle

/-- The first prompt is written if it fits. -/
lemma run_some_of_le (h : prompt.toUTF8.size ≤ capacity) (s : State) (input : ByteArray) :
    run s (.new (some capacity)) input =
      resume s ⟨some capacity, prompt.toUTF8⟩ (Text.byteLines input) := by
  have hle : (ByteArray.empty ++ prompt.toUTF8).size ≤ capacity := by
    rwa [ByteArray.empty_append]
  rw [run, Writer.new, Writer.write_of_le hle, ByteArray.empty_append]

/-- If it does not, no line is read. -/
lemma run_some_of_lt (h : capacity < prompt.toUTF8.size) (s : State) (input : ByteArray) :
    run s (.new (some capacity)) input = ⟨prompt.toUTF8.extract 0 capacity, .writeFailed, s⟩ := by
  have hlt : capacity < (ByteArray.empty ++ prompt.toUTF8).size := by
    rwa [ByteArray.empty_append]
  rw [run, Writer.new, Writer.write_of_lt hlt, ByteArray.empty_append]

/-- A session with a capacity is the session without one, cut off. -/
lemma run_cutOff (s : State) (capacity : Nat) (input : ByteArray) :
    CutOff capacity (run s (.new none) input) (run s (.new (some capacity)) input) := by
  rw [run_none]
  rcases Nat.lt_or_ge capacity prompt.toUTF8.size with hlt | hle
  · obtain ⟨more, hmore⟩ := exists_written_resume_none s prompt.toUTF8 (Text.byteLines input)
    rw [run_some_of_lt hlt]
    exact .of_append hmore hlt s
  · rw [run_some_of_le hle]
    exact resume_cutOff hle _

/-- A session that its writer has broken off on the first part of the input never looks at the rest. -/
lemma run_append_of_writeFailed {first : ByteArray} (hfirst : Text.CompleteBytes first)
    (h : (run s (.new (some capacity)) first).ending = .writeFailed) (rest : ByteArray) :
    run s (.new (some capacity)) (first ++ rest) = run s (.new (some capacity)) first := by
  rcases Nat.lt_or_ge capacity prompt.toUTF8.size with hlt | hle
  · rw [run_some_of_lt hlt, run_some_of_lt hlt]
  · rw [run_some_of_le hle] at h
    rw [run_some_of_le hle, run_some_of_le hle, Text.byteLines_append hfirst, resume_append, h,
      if_neg (by decide)]

/-- An emitted value is written before anything else; if it does not fit, this is the end. -/
lemma resume_of_emitted {value : Int64} (hemitted : (s.runLine line).emitted = some value)
    (hlt : capacity < (written ++ ((Event.output value).report ++ "\n").toUTF8).size) :
    resume s ⟨some capacity, written⟩ (line.toUTF8 :: rest) =
      ⟨(written ++ ((Event.output value).report ++ "\n").toUTF8).extract 0 capacity, .writeFailed,
        (s.runLine line).state⟩ := by
  have hcommand : ¬ IsCommand line := by
    intro h
    simp [State.runLine, h.parse_eq, Effect.fail] at hemitted
  have hwrite : Writer.writeAll ⟨some capacity, written⟩ (s.answer line).pieces =
      .error ⟨some capacity, (written ++ ((Event.output value).report ++ "\n").toUTF8).extract 0
        capacity⟩ := by
    rw [Answer.pieces, State.answer_of_not_isCommand hcommand, hemitted]
    simp only [Option.toList_some, List.map_cons, List.map_nil, List.cons_append, List.nil_append,
      Writer.writeAll, Writer.write_of_lt hlt]
  rw [resume_cons_of_error (Text.fromUTF8?_toUTF8 line) hwrite, State.answer_of_not_isCommand hcommand]

/-- A writer that fails cuts a session off and does nothing else.

Whatever the input and the capacity, the session writes the first bytes of what it would write without a
capacity, as many as fit.  It is broken off by its writer if and only if there are more bytes, and
otherwise it is the same session.  A write that fails comes before everything that the session would have
met later: if the output on the first part of the input does not fit, then the rest of it has no influence,
be it text or not.  A value whose own text does not fit is the last thing written of that line and of the
session. -/
theorem run_of_capacity (s : State) (input : ByteArray) (capacity : Nat) :
    (run s (.new none) input).ending ≠ .writeFailed ∧
    (run s (.new (some capacity)) input).written =
      (run s (.new none) input).written.extract 0
        (min capacity (run s (.new none) input).written.size) ∧
    ((run s (.new (some capacity)) input).ending = .writeFailed ↔
      capacity < (run s (.new none) input).written.size) ∧
    ((run s (.new none) input).written.size ≤ capacity →
      run s (.new (some capacity)) input = run s (.new none) input) ∧
    (∀ first rest, input = first ++ rest → Text.CompleteBytes first →
      capacity < (run s (.new none) first).written.size →
      run s (.new (some capacity)) input = run s (.new (some capacity)) first) ∧
    (∀ (s : State) (written : ByteArray) (line : String) (value : Int64) (rest : List ByteArray),
      (s.runLine line).emitted = some value →
      capacity < (written ++ ((Event.output value).report ++ "\n").toUTF8).size →
      resume s ⟨some capacity, written⟩ (line.toUTF8 :: rest) =
        ⟨(written ++ ((Event.output value).report ++ "\n").toUTF8).extract 0 capacity, .writeFailed,
          (s.runLine line).state⟩) := by
  have hregular : (run s (.new none) input).ending ≠ .writeFailed := by
    rw [run_none]
    exact ending_resume_none_ne_writeFailed _ _ _
  have hcut := run_cutOff s capacity input
  refine ⟨hregular, ?_, ?_, hcut.eq_of_le, ?_, ?_⟩
  · rw [hcut.written]
    rcases Nat.le_total capacity (run s (.new none) input).written.size with hle | hle
    · rw [Nat.min_eq_left hle]
    · rw [Nat.min_eq_right hle, extract_eq_self_of_le hle, ByteArray.extract_zero_size]
  · constructor
    · intro hfailed
      by_contra hle
      rw [hcut.eq_of_le (Nat.not_lt.1 hle)] at hfailed
      exact hregular hfailed
    · exact hcut.ending_of_lt
  · rintro first rest rfl hfirst hlt
    exact run_append_of_writeFailed hfirst ((run_cutOff s capacity first).ending_of_lt hlt) rest
  · intro s written line value rest hemitted hlt
    exact resume_of_emitted hemitted hlt

/-- This writer fails in the middle of the value of the second line.  The byte after the line is no text,
but it is never read. -/
theorem run_of_capacity_within_output :
    Text.CompleteBytes "PUSH 3\nOUTPUT 12\n".toUTF8 ∧
    9 < (run .initial (.new none) "PUSH 3\nOUTPUT 12\n".toUTF8).written.size ∧
    run .initial (.new (some 9)) ("PUSH 3\nOUTPUT 12\n".toUTF8 ++ ⟨#[0xff]⟩) =
      run .initial (.new (some 9)) "PUSH 3\nOUTPUT 12\n".toUTF8 ∧
    (run .initial (.new (some 9)) "PUSH 3\nOUTPUT 12\n".toUTF8).written = "> > Outpu".toUTF8 ∧
    (State.initial.runLine "OUTPUT 12").emitted = some 12 ∧
    9 < ("> > ".toUTF8 ++ ((Event.output 12).report ++ "\n").toUTF8).size ∧
    ∀ rest, resume .initial ⟨some 9, "> > ".toUTF8⟩ ("OUTPUT 12".toUTF8 :: rest) =
      ⟨("> > ".toUTF8 ++ ((Event.output 12).report ++ "\n").toUTF8).extract 0 9, .writeFailed,
        (State.initial.runLine "OUTPUT 12").state⟩ := by
  have hfirst : Text.CompleteBytes "PUSH 3\nOUTPUT 12\n".toUTF8 := by decide +kernel
  have hsize : 9 < (run .initial (.new none) "PUSH 3\nOUTPUT 12\n".toUTF8).written.size := by
    decide +kernel
  have hwritten : (run .initial (.new (some 9)) "PUSH 3\nOUTPUT 12\n".toUTF8).written =
      "> > Outpu".toUTF8 := by decide +kernel
  have hemitted : (State.initial.runLine "OUTPUT 12").emitted = some 12 := by decide +kernel
  have hvalue : 9 < ("> > ".toUTF8 ++ ((Event.output 12).report ++ "\n").toUTF8).size := by
    decide +kernel
  obtain ⟨-, -, -, -, hrest, houtput⟩ :=
    run_of_capacity .initial ("PUSH 3\nOUTPUT 12\n".toUTF8 ++ ⟨#[0xff]⟩) 9
  exact ⟨hfirst, hsize, hrest _ _ rfl hfirst hsize, hwritten, hemitted, hvalue,
    fun rest => houtput _ _ _ _ rest hemitted hvalue⟩

end StackMachine.Session
