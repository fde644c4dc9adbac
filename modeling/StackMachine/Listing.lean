import StackMachine.Jump
import StackMachine.Program
import StackMachine.Statement

/-!
# Listings

A listing shows a program without running it: one entry for each line that holds a statement, with the
instruction in its canonical form or with the reason why it cannot be read. A jump whose distance is a
literal is shown with the line to which it leads, and a line to which such a jump leads is marked.

    0001   CMP M1, 0
    0002   JZ 2  -> 0004
    0003   OUTPUT M1
    0004 ► EXIT
-/

namespace StackMachine

/-- What a listing has for one line. -/
inductive Entry where
  /-- The instruction of the line. -/
  | instruction (i : Instruction)
  /-- The reason why the line cannot be read. -/
  | failure (failure : LineFailure)
deriving DecidableEq, Repr

/-- The failure, if the entry is one. -/
def Entry.failure? : Entry → Option LineFailure
  | .instruction _ => none
  | .failure f => some f

/-- The entry for the line at a position, if it holds a statement. -/
def Entry.ofLine? (position : Nat) (text : String) : Option Entry :=
  match Statement.parse text with
  | .error fault => some (.failure ⟨position + 1, text, fault⟩)
  | .ok none => none
  | .ok (some i) => some (.instruction i)

/-- The statements of a program. -/
structure Listing where
  /-- The entries with their positions, in order. -/
  entries : List (Nat × Entry)
  /-- The number of lines of the program. -/
  lineCount : Nat
deriving DecidableEq, Repr

/-- The listing of a program. -/
def Program.listing (program : Program) : Listing where
  entries := program.lines.toList.zipIdx.filterMap fun (text, position) =>
    (Entry.ofLine? position text).map (position, ·)
  lineCount := program.length

/-- The distance of a jump, if its last operand is a literal. -/
def Instruction.jumpDistance? (i : Instruction) : Option Int64 :=
  if i.opcode.isJump then
    match i.operands with
    | [.integer distance] => some distance
    | [_, .integer distance] => some distance
    | _ => none
  else none

namespace Listing

/-- The lines that cannot be read. -/
def failures (listing : Listing) : List LineFailure :=
  listing.entries.filterMap fun (_, entry) => entry.failure?

/-- The position to which an entry's jump leads, if the entry is a jump with a literal distance other
than 0 that stays within the program. -/
def target? (listing : Listing) : Nat × Entry → Option Nat
  | (position, .instruction i) =>
    match i.jumpDistance? with
    | none => none
    | some distance =>
      if distance = 0 then none
      else
        match landing listing.lineCount position distance with
        | .line target => some target
        | _ => none
  | (_, .failure _) => none

/-- The positions to which jumps lead. -/
def targets (listing : Listing) : List Nat :=
  listing.entries.filterMap listing.target?

/-- A line number with at least four digits. -/
def renderNumber (position : Nat) : String :=
  String.ofList ((Text.Decimal.ofNat (position + 1)).leftpad 4 '0')

/-- The text for the place to which a jump leads. -/
def renderLanding : Landing → String
  | .beforeStart => "before start"
  | .line position => renderNumber position
  | .afterEnd => "end"

/-- The text for an entry, behind its number and its mark. -/
def renderEntry (listing : Listing) (position : Nat) : Entry → String
  | .instruction i =>
    match i.jumpDistance? with
    | none => i.render
    | some distance =>
      i.render ++ "  -> " ++ renderLanding (landing listing.lineCount position distance)
  | .failure f =>
    "!! " ++ String.ofList (Text.trim f.text.toList) ++ " (" ++ f.fault.message ++ ")"

/-- The text of a listing, one line for each entry. -/
def render (listing : Listing) : String :=
  let targets := listing.targets
  String.join <| listing.entries.map fun (position, entry) =>
    let mark := if position ∈ targets then "► " else "  "
    renderNumber position ++ " " ++ mark ++ listing.renderEntry position entry ++ "\n"

end Listing

end StackMachine
