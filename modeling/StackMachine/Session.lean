import StackMachine.Run
import StackMachine.Saved
import StackMachine.Writer

/-!
# Sessions

A session reads lines and carries out the statement of each on one machine. It writes a prompt before
each line, the emitted value, the report of a failure, and a note for a jump, which is not taken. The line
`:state` shows the state; `:quit`, `:q` or an `EXIT` ends the session.

The input is a sequence of bytes. Each line has to be valid UTF-8, but only when its turn comes; a line
that is not breaks the session off. So does a write that fails.

`State.answer` answers one line, `Session.resume` goes on with the lines that are left, and `Session.run`
is a whole session.
-/

namespace StackMachine

/-- The answer to one line of a session. -/
structure Answer where
  /-- What is written, piece by piece. -/
  texts : List String
  /-- Whether the session is over. -/
  isLast : Bool
  /-- The state afterwards. -/
  state : State

/-- The text that answers a line with the given text and effect, after the value that it emits. -/
def Effect.note (effect : Effect) (text : String) : List String :=
  match effect.outcome with
  | .error fault => [failureReport text fault ++ "\n"]
  | .ok distance =>
    if distance = 0 then []
    else ["(jump " ++ String.ofList (Text.Decimal.ofInt distance.toInt) ++ " ignored)\n"]

/-- Answers one line of a session. -/
def State.answer (s : State) (line : String) : Answer :=
  let command := String.ofList (Text.trim line.toList)
  if command = ":quit" ∨ command = ":q" then ⟨[], true, s⟩
  else if command = ":state" then ⟨[s.dump], false, s⟩
  else
    let effect := s.runLine line
    let emitted := effect.emitted.toList.map fun value => (Event.output value).report ++ "\n"
    ⟨emitted ++ effect.note line, effect.state.lastCategory == .exit, effect.state⟩

/-- Why a session has ended. -/
inductive Ending where
  /-- There is no line left. -/
  | inputUsedUp
  /-- A line has ended the session. -/
  | dismissed
  /-- A line is not valid UTF-8. -/
  | invalidText
  /-- A write has failed. -/
  | writeFailed
deriving DecidableEq, Repr

/-- Whether the session came to an end of its own, and was not broken off. -/
def Ending.isRegular : Ending → Bool
  | .inputUsedUp | .dismissed => true
  | .invalidText | .writeFailed => false

/-- A finished session. -/
structure Session where
  /-- Everything that has been written. -/
  written : ByteArray
  /-- Why the session has ended. -/
  ending : Ending
  /-- The state of the machine after the last line that was carried out. -/
  state : State

namespace Session

/-- What is written when a line may be entered. -/
def prompt : String := "> "

/-- Goes on with the given lines, after the prompt for the first of them. -/
def resume (s : State) (w : Writer) : List ByteArray → Session
  | [] => ⟨w.written, .inputUsedUp, s⟩
  | bytes :: rest =>
    match String.fromUTF8? bytes with
    | none => ⟨w.written, .invalidText, s⟩
    | some line =>
      let answer := s.answer line
      let closing := if answer.isLast then [] else [prompt]
      match w.writeAll (answer.texts ++ closing) with
      | .error w' => ⟨w'.written, .writeFailed, answer.state⟩
      | .ok w' =>
        if answer.isLast then ⟨w'.written, .dismissed, answer.state⟩ else resume answer.state w' rest

/-- A session of a machine in the given state on the given input. -/
def run (s : State) (w : Writer) (input : ByteArray) : Session :=
  match w.write prompt with
  | .error w' => ⟨w'.written, .writeFailed, s⟩
  | .ok w' => resume s w' (Text.byteLines input)

/-- A line that is not valid UTF-8 breaks the session off, and nothing is written for it. -/
theorem resume_of_fromUTF8?_eq_none {bytes : ByteArray} (h : String.fromUTF8? bytes = none) (s : State)
    (w : Writer) (rest : List ByteArray) :
    resume s w (bytes :: rest) = ⟨w.written, .invalidText, s⟩ := by
  simp [resume, h]

end Session

end StackMachine
