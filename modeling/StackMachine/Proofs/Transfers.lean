import StackMachine.Proofs.Dispatches
import StackMachine.Proofs.Distances
import StackMachine.Proofs.Landings

/-!
# A listing knows every transfer of a run

A run leaves the order of the lines only by jumps, and the distance of a jump that is taken is a literal
of its instruction.  So the listing of a program, which is made without running it, knows every transfer
of every run (`Program.listing_foresees`): the jump is listed with its distance, the line to which it
leads is marked, and a jump before the first line is shown as one.

The converse does not hold, of course: a listing also marks the targets of jumps that are never taken.
But it is enough to see from a listing that no run of the program is broken off by a jump.
-/

namespace StackMachine

variable {program : Program} {limit : Option Nat} {p : Progress} {i : Instruction}
  {distance : Int64} {position target : Nat} {entry : Entry} {run : Run} {state : State}
  {events : Array Event} {line : Nat}

namespace Listing

/-! ### Marks -/

/-- The line that a listing has for an entry. -/
def renderLine (listing : Listing) : Nat × Entry → String
  | (position, entry) =>
    renderNumber position ++ " " ++ (if position ∈ listing.targets then "► " else "  ") ++
      listing.renderEntry position entry ++ "\n"

/-- The lines that a listing has for some of its entries. -/
def renderLines (listing : Listing) (entries : List (Nat × Entry)) : String :=
  String.join (entries.map listing.renderLine)

/-- The text of a listing consists of the lines for its entries. -/
lemma render_eq_renderLines (listing : Listing) :
    listing.render = listing.renderLines listing.entries := rfl

lemma renderLines_append_cons (listing : Listing) (before after : List (Nat × Entry))
    (entry : Nat × Entry) :
    listing.renderLines (before ++ entry :: after) =
      listing.renderLines before ++ listing.renderLine entry ++ listing.renderLines after := by
  simp only [renderLines, List.map_append, List.map_cons, String.join_append, String.join_cons,
    String.append_assoc]

/-- In the text of a listing the line for an entry bears the mark of a line to which a jump leads. -/
def Marks (listing : Listing) (position : Nat) (entry : Entry) : Prop :=
  ∃ before after, listing.entries = before ++ (position, entry) :: after ∧
    listing.render = listing.renderLines before ++
      (renderNumber position ++ " " ++ "► " ++ listing.renderEntry position entry ++ "\n") ++
      listing.renderLines after

/-- The marked entries are those at the targets of jumps. -/
lemma marks_iff {listing : Listing} :
    listing.Marks position entry ↔
      (position, entry) ∈ listing.entries ∧ position ∈ listing.targets := by
  constructor
  · rintro ⟨before, after, hentries, hrender⟩
    refine ⟨by rw [hentries]; exact List.mem_append_cons_self, ?_⟩
    rw [render_eq_renderLines, hentries, renderLines_append_cons, String.append_left_inj,
      String.append_right_inj] at hrender
    by_contra hnone
    simp only [renderLine, if_neg hnone, String.append_left_inj, String.append_right_inj] at hrender
    exact absurd hrender (by decide)
  · rintro ⟨hmem, htarget⟩
    obtain ⟨before, after, hentries⟩ := List.append_of_mem hmem
    refine ⟨before, after, hentries, ?_⟩
    rw [render_eq_renderLines, hentries, renderLines_append_cons, renderLine, if_pos htarget]

/-- The target of an entry is the line to which its jump leads, unless the distance is 0. -/
lemma target?_instruction_eq_some_iff {listing : Listing} :
    listing.target? (position, .instruction i) = some target ↔
      ∃ distance, i.jumpDistance? = some distance ∧ distance ≠ 0 ∧
        landing listing.lineCount position distance = .line target := by
  unfold target?
  cases hdistance : i.jumpDistance? with
  | none => simp [hdistance]
  | some distance =>
    simp only [hdistance, Option.some.injEq, exists_eq_left']
    by_cases hzero : distance = 0
    · simp [hzero]
    · rw [if_neg hzero]
      cases landing listing.lineCount position distance <;> simp [hzero]

/-- A line is a target if a listed jump with a literal distance other than 0 leads to it. -/
lemma mem_targets {listing : Listing} (hentry : (position, .instruction i) ∈ listing.entries)
    (hdistance : i.jumpDistance? = some distance) (hzero : distance ≠ 0)
    (hlanding : landing listing.lineCount position distance = .line target) :
    target ∈ listing.targets :=
  List.mem_filterMap.2
    ⟨_, hentry, target?_instruction_eq_some_iff.2 ⟨distance, hdistance, hzero, hlanding⟩⟩

/-! ### Transfers -/

/-- What a listing tells in advance about a transfer: by which instruction, from which position and by
which distance it is made, and where it leads. -/
structure Foresees (listing : Listing) (position : Nat) (i : Instruction) (distance : Int64) :
    Prop where
  /-- The instruction is listed under the position. -/
  mem_entries : (position, .instruction i) ∈ listing.entries
  /-- It is a jump. -/
  isJump : i.opcode.isJump = true
  /-- The distance is its literal one. -/
  jumpDistance?_eq : i.jumpDistance? = some distance
  /-- If there is an entry at the exact sum of position and distance, it is marked.  Sums of positions are
  sums of words, so this is about programs whose positions are words. -/
  marks : listing.lineCount ≤ 2 ^ 63 → ∀ (target : Nat) (entry : Entry),
    (target : Int) = position + distance.toInt → (target, entry) ∈ listing.entries →
    listing.Marks target entry
  /-- If that sum is below zero, the entry of the jump shows it. -/
  shows : (position : Int) + distance.toInt < 0 → listing.Shows position i "before start"

end Listing

/-- An instruction with a literal distance is a jump. -/
lemma Instruction.isJump_of_jumpDistance? (h : i.jumpDistance? = some distance) :
    i.opcode.isJump = true :=
  (jumpDistance?_eq_some_iff.1 h).1

namespace Program

/-- An entry belongs to a line of the program. -/
lemma lt_length_of_mem_entries (h : (position, entry) ∈ program.listing.entries) :
    position < program.length := by
  obtain ⟨text, hline, -⟩ := mem_entries_listing_iff.1 h
  exact (Array.getElem?_eq_some_iff.1 hline).1

/-- A listed jump that leads before the first line is shown as one, and no other is. -/
lemma shows_beforeStart_iff (hdistance : i.jumpDistance? = some distance) :
    program.listing.Shows position i "before start" ↔
      jumpTarget program.length position distance =
        .error (.jumpBeforeStart (position + 1) distance) := by
  have hshows : program.listing.Shows position i (Listing.renderLanding .beforeStart) ↔
      landing program.length position distance = .beforeStart :=
    Listing.shows_renderLanding_iff hdistance
  exact hshows.trans landing_eq_beforeStart_iff

/-- The entry to which a listed jump leads is marked. -/
lemma marks_of_jumpTarget (hjump : (position, .instruction i) ∈ program.listing.entries)
    (hdistance : i.jumpDistance? = some distance) (hzero : distance ≠ 0)
    (htarget : jumpTarget program.length position distance = .ok target)
    (hentry : (target, entry) ∈ program.listing.entries) :
    program.listing.Marks target entry := by
  refine Listing.marks_iff.2 ⟨hentry, Listing.mem_targets hjump hdistance hzero ?_⟩
  exact landing_eq_line_iff.2 ⟨lt_length_of_mem_entries hentry, htarget⟩

/-- A transfer that a run makes is foreseen by the listing. -/
lemma Dispatches.foresees (h : program.Dispatches limit p i)
    (heffect : (i.effect p.state).outcome = .ok distance) (hzero : distance ≠ 0) :
    program.listing.Foresees p.position i distance := by
  have hentry := h.mem_entries
  have hdistance := Instruction.jumpDistance?_eq_some_of_outcome heffect hzero
  refine ⟨hentry, Instruction.isJump_of_jumpDistance? hdistance, hdistance, ?_, ?_⟩
  · intro hwords target entry hsum htarget
    have hlanding : landing program.listing.lineCount p.position distance = .line target :=
      (landing_eq_line_iff_add hwords ((lt_length_of_mem_entries hentry).trans_le hwords)).2
        ⟨lt_length_of_mem_entries htarget, hsum.symm⟩
    exact Listing.marks_iff.2 ⟨htarget, Listing.mem_targets hentry hdistance hzero hlanding⟩
  · intro hsum
    rw [shows_beforeStart_iff hdistance, jumpTarget_of_lt, if_pos hsum]
    have hlo := distance.le_toInt
    omega

/-- Where a run goes on after a transfer, the listing has a mark. -/
lemma Dispatches.marks_of_round (h : program.Dispatches limit p i)
    (heffect : (i.effect p.state).outcome = .ok distance) (hzero : distance ≠ 0) {p' : Progress}
    (hround : (program.loop limit).round p = .next p')
    (hentry : (p'.position, entry) ∈ program.listing.entries) :
    program.listing.Marks p'.position entry := by
  have hdistance := Instruction.jumpDistance?_eq_some_of_outcome heffect hzero
  obtain ⟨-, text, -, -, hdispatch⟩ := id h
  rw [hround] at hdispatch
  obtain ⟨target, htarget, heq⟩ := (Progress.exists_dispatch_eq_next_iff
    (P := (· = p'.position)) heffect hzero).1 ⟨p', hdispatch.symm, rfl⟩
  exact marks_of_jumpTarget h.mem_entries hdistance hzero (heq ▸ htarget) hentry

/-- A run that is broken off by a jump has dispatched it, and the listing shows where the jump leads. -/
lemma exists_shows_of_jumpBeforeStart (h : (program.loop limit).Ends (.start state events) run)
    (hresult : run.result = .error (.jumpBeforeStart line distance)) :
    ∃ position i, line = position + 1 ∧ (position, .instruction i) ∈ program.listing.entries ∧
      i.jumpDistance? = some distance ∧ program.listing.Shows position i "before start" := by
  obtain ⟨p, -, hleaves⟩ := exists_reaches_leaves h
  cases hleaves with
  | finished _ => cases hresult
  | limited _ _ _ _ _ => cases hresult
  | @strayed i _ hdispatches heffect hzero htarget =>
    cases hresult
    have hdistance := Instruction.jumpDistance?_eq_some_of_outcome heffect hzero
    exact ⟨p.position, i, rfl, hdispatches.mem_entries, hdistance,
      (shows_beforeStart_iff hdistance).2 htarget⟩

/-- The listing of a program knows every transfer of every run.

Wherever a run dispatches an instruction whose outcome is a distance other than 0, the listing has this
instruction as a jump with this literal distance, marks the entry to which it leads, and shows it if it
leads before the first line (`Listing.Foresees`).  Likewise there is a mark on the entry with which the
run goes on.  If a run is broken off by a jump, this is a jump that the listing shows to lead before the
first line; so if the listing shows no such jump, then no run is broken off like this, from whatever
state and with whatever limit.  The results meant are all those in which the run ends, so they include
the answers of `Program.run`. -/
theorem listing_foresees (program : Program) (limit : Option Nat) :
    (∀ p i distance, program.Dispatches limit p i →
      (i.effect p.state).outcome = .ok distance → distance ≠ 0 →
      program.listing.Foresees p.position i distance ∧
      ∀ p' entry, (program.loop limit).round p = .next p' →
        (p'.position, entry) ∈ program.listing.entries →
        program.listing.Marks p'.position entry) ∧
    (∀ state events run, (program.loop limit).Ends (.start state events) run →
      ∀ line distance, run.result = .error (.jumpBeforeStart line distance) →
      ∃ position i, line = position + 1 ∧ (position, .instruction i) ∈ program.listing.entries ∧
        i.jumpDistance? = some distance ∧ program.listing.Shows position i "before start") ∧
    ((∀ position i, (position, .instruction i) ∈ program.listing.entries →
        ¬ program.listing.Shows position i "before start") →
      ∀ state events run, (program.loop limit).Ends (.start state events) run →
        ∀ line distance, run.result ≠ .error (.jumpBeforeStart line distance)) := by
  refine ⟨?_, ?_, ?_⟩
  · intro p i distance hdispatches heffect hzero
    exact ⟨hdispatches.foresees heffect hzero, fun p' entry hround hentry =>
      hdispatches.marks_of_round heffect hzero hround hentry⟩
  · intro state events run hends line distance hresult
    exact exists_shows_of_jumpBeforeStart hends hresult
  · intro hnone state events run hends line distance hresult
    obtain ⟨position, i, -, hentry, -, hshows⟩ := exists_shows_of_jumpBeforeStart hends hresult
    exact hnone position i hentry hshows

/-- In the first program a run is transferred to the last line, which is marked, and as the listing shows
no jump before the first line, no run can be broken off by one.  The second program has such a jump. -/
theorem listing_foresees_forwards_and_back :
    (∃ (program : Program) (p : Progress) (i : Instruction),
      program.lines = #["CMP M1, 0", "JZ 2", "OUTPUT M1", "EXIT"] ∧ program.Dispatches none p i ∧
      (i.effect p.state).outcome = .ok 2 ∧
      program.listing.Marks 3 (.instruction (.ofOperands .exit [])) ∧
      ∀ state events run, (program.loop none).Ends (.start state events) run →
        ∀ line distance, run.result ≠ .error (.jumpBeforeStart line distance)) ∧
    ∃ (program : Program) (run : Run), program.lines = #["OUTPUT 1", "JNZ 1, -9"] ∧
      (program.loop none).Ends (.start .initial #[]) run ∧
      run.result = .error (.jumpBeforeStart 2 (-9)) ∧
      ∃ i, (1, .instruction i) ∈ program.listing.entries ∧ i.jumpDistance? = some (-9) ∧
        program.listing.Shows 1 i "before start" := by
  constructor
  · let program : Program := ⟨#["CMP M1, 0", "JZ 2", "OUTPUT M1", "EXIT"]⟩
    let p : Progress := ⟨1, 1, #[], #[], { State.initial with lastCategory := .comparison }⟩
    let i : Instruction := .ofOperands .jz [.integer 2]
    have hdispatches : program.Dispatches none p i :=
      ⟨by decide, "JZ 2", rfl, by decide +kernel, by decide +kernel⟩
    have heffect : (i.effect p.state).outcome = .ok 2 := by decide +kernel
    have hentries : program.listing.entries =
        [(0, .instruction (.ofOperands .cmp [.memory 1, .integer 0])), (1, .instruction i),
          (2, .instruction (.ofOperands .output [.memory 1])),
          (3, .instruction (.ofOperands .exit []))] := by decide +kernel
    have hmem : (3, .instruction (.ofOperands .exit [])) ∈ program.listing.entries := by
      rw [hentries]
      simp
    have hnone : ∀ position i, (position, .instruction i) ∈ program.listing.entries →
        ¬ program.listing.Shows position i "before start" := by
      intro position j hentry
      simp only [hentries, List.mem_cons, Prod.mk.injEq, Entry.instruction.injEq, List.not_mem_nil,
        or_false] at hentry
      unfold Listing.Shows
      rcases hentry with ⟨rfl, rfl⟩ | ⟨rfl, rfl⟩ | ⟨rfl, rfl⟩ | ⟨rfl, rfl⟩ <;> decide +kernel
    obtain ⟨htransfers, -, hsafe⟩ := listing_foresees program none
    have hforesees := (htransfers p i 2 hdispatches heffect (by decide)).1
    exact ⟨program, p, i, rfl, hdispatches, heffect, hforesees.marks (by decide) 3 _ (by decide) hmem,
      hsafe hnone⟩
  · let program : Program := ⟨#["OUTPUT 1", "JNZ 1, -9"]⟩
    let run : Run := ⟨.error (.jumpBeforeStart 2 (-9)), #[.output 1],
      { State.initial with lastCategory := .jump }⟩
    have hends : (program.loop none).Ends (.start .initial #[]) run := ⟨2, by decide +kernel⟩
    obtain ⟨position, i, hline, hentry, hdistance, hshows⟩ :=
      (listing_foresees program none).2.1 .initial #[] run hends 2 (-9) rfl
    obtain rfl : 1 = position := Nat.succ.inj hline
    exact ⟨program, run, rfl, hends, rfl, i, hentry, hdistance, hshows⟩

end Program

end StackMachine
