import StackMachine.Effect
import StackMachine.Jump
import StackMachine.Loop
import StackMachine.Program
import StackMachine.Statement

/-!
# Runs

A run goes through a program from its first line until the position leaves the program or an `EXIT` has
been executed. In each round the line at the position is read afresh. A line without a statement is
skipped. A line that cannot be read, or whose instruction fails, is reported and skipped. An instruction
that succeeds moves the position by its distance, or to the next line if the distance is 0.

Only instructions count as steps, failed ones included. A run with a step limit is broken off when an
instruction comes up after the limit is used up.

The run is a `Loop`, so it can be followed for any number of rounds. `Program.run` allows as many as
suffice for every run with as many steps as the step limit, or else a 64-bit step counter, has room for.
-/

namespace StackMachine

/-- What a run lets the outside know while it goes on. -/
inductive Event where
  /-- An instruction has emitted a value. -/
  | output (value : Int64)
  /-- A line has failed. -/
  | failure (failure : LineFailure)
deriving DecidableEq, Repr

/-- The emitted value, if the event is one. -/
def Event.output? : Event → Option Int64
  | .output value => some value
  | .failure _ => none

/-- The failure, if the event is one. -/
def Event.failure? : Event → Option LineFailure
  | .output _ => none
  | .failure f => some f

/-- The text that a user sees of the event. -/
def Event.report : Event → String
  | .output value => "Output " ++ String.ofList (Text.Decimal.ofInt value.toInt)
  | .failure f => f.report

/-- The account of a run that came to an end of its own. -/
structure Summary where
  /-- The number of instructions dispatched. -/
  steps : Nat
  /-- Whether the run ended on an `EXIT`, and not by leaving the program. -/
  halted : Bool
  /-- The lines that failed, in the order of their failures. -/
  failures : Array LineFailure
deriving DecidableEq, Repr

/-- A finished run. -/
structure Run where
  /-- The account of the run, or what broke it off. -/
  result : Except RunError Summary
  /-- All events, those from before the run first. -/
  events : Array Event
  /-- The state in which the run left the machine. -/
  state : State

/-- A run under way. -/
structure Progress where
  /-- The position of the line that comes next. -/
  position : Nat
  /-- The number of instructions dispatched so far. -/
  steps : Nat
  /-- The lines that have failed so far. -/
  failures : Array LineFailure
  /-- All events so far. -/
  events : Array Event
  /-- The state of the machine. -/
  state : State

namespace Progress

/-- The start of a run, after the given events. -/
def start (state : State) (events : Array Event) : Progress :=
  ⟨0, 0, #[], events, state⟩

/-- On to the next line. -/
def advance (p : Progress) : Progress :=
  { p with position := p.position + 1 }

/-- Reports the line at the position, with the given text, and goes on to the next line. -/
def report (p : Progress) (text : String) (fault : Fault) : Progress :=
  let failure : LineFailure := ⟨p.position + 1, text, fault⟩
  { p with failures := p.failures.push failure, events := p.events.push (.failure failure) }.advance

/-- Counts an instruction and takes over its effect. -/
def record (p : Progress) (effect : Effect) : Progress :=
  { p with
    steps := p.steps + 1
    events := p.events ++ (effect.emitted.map Event.output).toArray
    state := effect.state }

/-- The run breaks off with an error. -/
def abort (p : Progress) (error : RunError) : Run :=
  ⟨.error error, p.events, p.state⟩

/-- The run comes to an end of its own. -/
def finish (p : Progress) : Run :=
  ⟨.ok ⟨p.steps, p.state.lastCategory == .exit, p.failures⟩, p.events, p.state⟩

/-- Dispatches the instruction that the line at the position, with the given text, holds. -/
def dispatch (p : Progress) (length : Nat) (text : String) (i : Instruction) : Round Progress Run :=
  let effect := i.effect p.state
  let p := p.record effect
  match effect.outcome with
  | .error fault => .next (p.report text fault)
  | .ok distance =>
    if distance = 0 then .next p.advance
    else
      match jumpTarget length p.position distance with
      | .error error => .stop (p.abort error)
      | .ok target => .next { p with position := target }

/-- Carries out the line at the position, which has the given text. A blank line is skipped unread. -/
def round (p : Progress) (limit : Option Nat) (length : Nat) (text : String) : Round Progress Run :=
  if text.toList.all Text.isBlank then .next p.advance
  else
    match Statement.parse text with
    | .error fault => .next (p.report text fault)
    | .ok none => .next p.advance
    | .ok (some i) =>
      match limit with
      | none => p.dispatch length text i
      | some limit =>
        if limit ≤ p.steps then .stop (p.abort (.stepLimit limit)) else p.dispatch length text i

end Progress

namespace Program

/-- The loop of a run of the program, with a step limit or without. -/
def loop (program : Program) (limit : Option Nat) : Loop Progress Run where
  finished? p :=
    if p.state.lastCategory = .exit then some p.finish
    else
      match program.lines[p.position]? with
      | some _ => none
      | none => some p.finish
  round p :=
    match program.lines[p.position]? with
    | some text => p.round limit program.length text
    | none => .stop p.finish

/-- The greatest number of steps that can be counted. -/
def stepCapacity : Nat := UInt64.size - 1

/-- A number of rounds that suffices for every run with at most the given number of steps. Between two
steps a run meets each line without a statement at most once. -/
def roundBound (program : Program) (steps : Nat) : Nat :=
  steps + (steps + 1) * program.length

/-- Runs the program on a state, after the given events. With a step limit there is always a result, and
without one there is a result if the run ends within the steps that can be counted. It is the rounds that
are bounded, so a longer run has a result too if it meets so few lines without a statement that its rounds
suffice. The steps of such a run are counted all the same, since they are a natural number. -/
def run (program : Program) (limit : Option Nat) (state : State) (events : Array Event) : Option Run :=
  (program.loop limit).runFor (program.roundBound (limit.getD stepCapacity)) (.start state events)

end Program

/-- Reads one line and carries out its instruction outside any program. The distance of a jump is
answered and not applied. -/
def State.runLine (s : State) (text : String) : Effect :=
  match Statement.parse text with
  | .error fault => .fail s fault
  | .ok none => .next s
  | .ok (some i) => i.effect s

end StackMachine
