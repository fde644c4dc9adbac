import StackMachine.Proofs.Calls
import StackMachine.Proofs.Distances
import StackMachine.Proofs.StepLimits

/-!
# Programs without backward jumps

Whether a program jumps back can be seen from its listing: the distance of a jump that is taken is a
literal of its instruction.  If no listed jump has a negative distance (`Program.NeverJumpsBack`), then
every round of every run leads to a line further down (`Program.NeverJumpsBack.position_lt`).  A distance 0
leads to the next line, and a sum that is no word leads past the end.

So a run comes to each line at most once and is over after as many rounds as there are lines, without any
step limit.  It dispatches some of the listed instructions, in their order
(`Program.NeverJumpsBack.dispatched_sublist`), and its failures come in the order of their lines.  A step
limit that suffices for all listed instructions makes no difference
(`Program.run_of_neverJumpsBack`).
-/

namespace StackMachine

variable {program : Program} {limit : Option Nat} {p q : Progress} {i : Instruction} {text : String}
  {state : State} {events : Array Event} {run : Run} {rounds : Nat}

/-! ### Listed instructions -/

/-- The instruction, if the entry is one. -/
def Entry.instruction? : Entry → Option Instruction
  | .instruction i => some i
  | .failure _ => none

/-- The instructions of a listing, in order. -/
def Listing.instructions (listing : Listing) : List Instruction :=
  listing.entries.filterMap fun (_, entry) => entry.instruction?

namespace Program

/-- The instructions on the lines before a position. -/
def instructionsBefore (program : Program) (position : Nat) : List Instruction :=
  (program.lines.toList.take position).filterMap Statement.instruction?

/-- The listed instructions are those on the lines before the end. -/
lemma instructions_listing (program : Program) :
    program.listing.instructions = program.instructionsBefore program.length := by
  have hline : ∀ line : String × Nat,
      (((Entry.ofLine? line.2 line.1).map fun entry => (line.2, entry)).bind fun entry =>
        entry.2.instruction?) = Statement.instruction? line.1 := by
    intro line
    unfold Entry.ofLine? Statement.instruction?
    rcases Statement.parse line.1 with fault | _ | i <;> rfl
  have hlength : program.length = program.lines.toList.length := rfl
  rw [instructionsBefore, hlength, List.take_length, Listing.instructions, listing,
    List.filterMap_filterMap]
  calc program.lines.toList.zipIdx.filterMap _
      = program.lines.toList.zipIdx.filterMap (Statement.instruction? ∘ Prod.fst) :=
        List.filterMap_congr fun line _ => hline line
    _ = program.lines.toList.filterMap Statement.instruction? := by
        rw [← List.filterMap_map, List.zipIdx_map_fst]

/-- A line adds the instruction that it holds. -/
lemma instructionsBefore_succ {position : Nat} (hline : program.lines[position]? = some text) :
    program.instructionsBefore (position + 1) =
      program.instructionsBefore position ++ (Statement.instruction? text).toList := by
  have hget : program.lines.toList[position]? = some text := by rw [Array.getElem?_toList, hline]
  rw [instructionsBefore, List.take_add_one, hget, List.filterMap_append, Option.toList_some]
  cases hinstruction : Statement.instruction? text <;> simp [instructionsBefore, hinstruction]

/-- Further down there are more lines before. -/
lemma instructionsBefore_sublist {m n : Nat} (h : m ≤ n) :
    (program.instructionsBefore m).Sublist (program.instructionsBefore n) :=
  (List.take_sublist_take_left h).filterMap _

/-- No listed jump has a negative literal as its distance. -/
def NeverJumpsBack (program : Program) : Prop :=
  ∀ i ∈ program.listing.instructions, ∀ distance ∈ i.jumpDistance?, 0 ≤ distance

/-- It is enough to look at the listed distances. -/
instance : DecidablePred NeverJumpsBack := fun program =>
  decidable_of_iff (program.listing.instructions.all fun i => i.jumpDistance?.all (0 ≤ ·)) <| by
    simp [NeverJumpsBack, Option.all_eq_true]

/-- What a line holds is listed. -/
lemma mem_instructions_listing {position : Nat} (hline : program.lines[position]? = some text)
    (hparse : Statement.parse text = .ok (some i)) : i ∈ program.listing.instructions :=
  List.mem_filterMap.2 ⟨(position, .instruction i),
    mem_entries_listing_instruction_iff.2 ⟨text, hline, hparse⟩, rfl⟩

end Program

/-! ### Further down in each round -/

/-- A jump by a positive distance leads further down, or past the end. -/
lemma exists_jumpTarget_of_pos {length position : Nat} {distance : Int64} (hdistance : 0 < distance)
    (hposition : position < length) :
    ∃ target, jumpTarget length position distance = .ok target ∧ position < target := by
  unfold jumpTarget
  cases hsum : (Text.Decimal.word? (position : Int)).bind (checkedSum? · distance) with
  | none => exact ⟨length, if_pos hdistance, hposition⟩
  | some target =>
    have hexact := (checkedSum?_word?_eq_some_iff.1 hsum).2
    rw [Int64.lt_iff_toInt_lt, Int64.toInt_zero] at hdistance
    have hnonneg : ¬ target < 0 := by
      rw [Int64.lt_iff_toInt_lt, Int64.toInt_zero]
      omega
    refine ⟨target.toNatClampNeg, if_neg hnonneg, ?_⟩
    rw [Int64.toNatClampNeg]
    omega

namespace Program.NeverJumpsBack

/-- A jump that is taken leads further down, or past the end. -/
lemma exists_jumpTarget (h : program.NeverJumpsBack) {position : Nat} {distance : Int64} {s : State}
    (hline : program.lines[position]? = some text) (hparse : Statement.parse text = .ok (some i))
    (heffect : (i.effect s).outcome = .ok distance) (hdistance : distance ≠ 0) :
    ∃ target, jumpTarget program.length position distance = .ok target ∧ position < target := by
  have hnonneg : 0 ≤ distance :=
    h i (mem_instructions_listing hline hparse) distance
      (Instruction.jumpDistance?_eq_some_of_outcome heffect hdistance)
  have hpos : 0 < distance := Int64.lt_of_le_of_ne hnonneg hdistance.symm
  exact exists_jumpTarget_of_pos hpos (Array.getElem?_eq_some_iff.1 hline).1

/-- Every round leads further down. -/
lemma position_lt (h : program.NeverJumpsBack) (hsteps : (program.loop limit).Steps p q) :
    p.position < q.position := by
  obtain ⟨-, text, hline, houtcome⟩ := steps_loop_iff.1 hsteps
  cases houtcome with
  | skipped _ => exact Nat.lt_succ_self _
  | unreadable _ => exact Nat.lt_succ_self _
  | failed _ _ _ => exact Nat.lt_succ_self _
  | stepped _ _ _ => exact Nat.lt_succ_self _
  | jumped hparse _ heffect hdistance htarget =>
    obtain ⟨target, hok, hlt⟩ := h.exists_jumpTarget hline hparse heffect hdistance
    obtain rfl := Except.ok.inj (htarget.symm.trans hok)
    exact hlt

/-- So there are no more rounds than lines before the position. -/
lemma rounds_le_position (h : program.NeverJumpsBack)
    (hafter : (program.loop limit).after rounds (.start state events) = .next p) :
    rounds ≤ p.position :=
  Loop.after_counted (P := fun n p => n ≤ p.position) (Nat.zero_le _)
    (fun _ _ _ hn hsteps => Nat.lt_of_le_of_lt hn (h.position_lt hsteps)) hafter

/-- A run is over after as many rounds as there are lines, with a step limit or without. -/
lemma exists_run (h : program.NeverJumpsBack) (limit : Option Nat) (state : State)
    (events : Array Event) : ∃ run, program.run limit state events = some run := by
  obtain ⟨run, hrun⟩ : ∃ run,
      (program.loop limit).runFor program.length (.start state events) = some run := by
    refine Loop.exists_runFor_of_forall_lt fun rounds p hafter => ?_
    have hposition := (finished?_loop_eq_none_iff.1 (Loop.finished?_of_after_eq_next hafter)).2
    exact Nat.lt_of_le_of_lt (h.rounds_le_position hafter) hposition
  have hbound : program.length ≤ program.roundBound (limit.getD stepCapacity) := by
    rw [roundBound, Nat.succ_mul]
    omega
  exact ⟨run, Loop.runFor_mono hbound hrun⟩

end Program.NeverJumpsBack

/-! ### Dispatched instructions -/

namespace Program

/-- A round dispatches what its line holds, or nothing. -/
lemma dispatched_succ_sublist (hafter : (program.loop limit).after rounds (.start state events) = .next p)
    (h : (program.dispatched limit rounds (.start state events)).Sublist
      (program.instructionsBefore p.position)) :
    (program.dispatched limit (rounds + 1) (.start state events)).Sublist
      (program.instructionsBefore (p.position + 1)) := by
  obtain ⟨text, hline, -⟩ := exists_round_loop_eq (Loop.finished?_of_after_eq_next hafter)
  have hround : (program.dispatched? limit p).toList.Sublist (Statement.instruction? text).toList := by
    rw [dispatched?, hline]
    dsimp only
    split
    · exact List.Sublist.refl _
    · exact List.nil_sublist _
  rw [dispatched_succ_of_next hafter, instructionsBefore_succ hline]
  exact h.append hround

namespace NeverJumpsBack

/-- What a run under way has dispatched stands on the lines before its position, in this order. -/
lemma dispatched_sublist_before (h : program.NeverJumpsBack)
    (hafter : (program.loop limit).after rounds (.start state events) = .next p) :
    (program.dispatched limit rounds (.start state events)).Sublist
      (program.instructionsBefore p.position) := by
  induction rounds generalizing p with
  | zero => exact List.nil_sublist _
  | succ rounds ih =>
    obtain ⟨u, hu, hsteps⟩ := Loop.exists_steps_of_after_succ hafter
    exact (dispatched_succ_sublist hu (ih hu)).trans (instructionsBefore_sublist (h.position_lt hsteps))

/-- Whatever a run has dispatched is listed, in this order. -/
theorem dispatched_sublist (h : program.NeverJumpsBack) (limit : Option Nat) (rounds : Nat)
    (state : State) (events : Array Event) :
    (program.dispatched limit rounds (.start state events)).Sublist program.listing.instructions := by
  induction rounds with
  | zero => exact List.nil_sublist _
  | succ rounds ih =>
    cases hafter : (program.loop limit).after rounds (.start state events) with
    | stop run =>
      rw [dispatched_succ_of_stop hafter]
      exact ih
    | next p =>
      have hposition := (finished?_loop_eq_none_iff.1 (Loop.finished?_of_after_eq_next hafter)).2
      rw [instructions_listing]
      exact (dispatched_succ_sublist hafter (h.dispatched_sublist_before hafter)).trans
        (instructionsBefore_sublist hposition)

/-- Before an instruction a run has made fewer steps than there are listed instructions. -/
lemma steps_lt (h : program.NeverJumpsBack)
    (hafter : (program.loop limit).after rounds (.start state events) = .next p)
    (hline : program.lines[p.position]? = some text) (hparse : Statement.parse text = .ok (some i)) :
    p.steps < program.listing.instructions.length := by
  have hinstruction : (Statement.instruction? text).toList = [i] := by
    rw [Statement.instruction?, hparse]
    rfl
  have hposition : p.position < program.length := (Array.getElem?_eq_some_iff.1 hline).1
  calc p.steps = (program.dispatched limit rounds (.start state events)).length := by
        rw [steps_eq_dispatchCount hafter, length_dispatched]
    _ ≤ (program.instructionsBefore p.position).length := (h.dispatched_sublist_before hafter).length_le
    _ < (program.instructionsBefore (p.position + 1)).length := by
        rw [instructionsBefore_succ hline, hinstruction, List.length_append]
        exact Nat.lt_succ_self _
    _ ≤ program.listing.instructions.length := by
        rw [instructions_listing]
        exact (instructionsBefore_sublist hposition).length_le

/-- A run is not broken off, unless its step limit is smaller than the number of listed instructions. -/
lemma exists_result_eq_ok (h : program.NeverJumpsBack)
    (hlimit : ∀ max, limit = some max → program.listing.instructions.length ≤ max)
    (hends : (program.loop limit).Ends (.start state events) run) :
    ∃ summary, run.result = .ok summary := by
  obtain ⟨p, hreaches, hleaves⟩ := exists_reaches_leaves hends
  cases hleaves with
  | finished _ => exact ⟨_, rfl⟩
  | @limited text i max hfinished hline hparse hsome hused =>
    obtain ⟨rounds, hafter⟩ := (Loop.reaches_iff_exists_after hfinished).1 hreaches
    have hsteps := h.steps_lt hafter hline hparse
    have hmax := hlimit max hsome
    omega
  | @strayed i distance hdispatches heffect hdistance htarget =>
    obtain ⟨-, text, hline, hparse, -⟩ := hdispatches
    obtain ⟨target, hok, -⟩ := h.exists_jumpTarget hline hparse heffect hdistance
    rw [hok] at htarget
    cases htarget

end NeverJumpsBack

end Program

/-! ### Failures -/

/-- The failures so far are on lines before the position, in the order of these lines. -/
structure Progress.FailuresInOrder (p : Progress) : Prop where
  pairwise : p.failures.toList.Pairwise (·.line < ·.line)
  line_le : ∀ f ∈ p.failures, f.line ≤ p.position

/-- A round reports at most the line at the position. -/
lemma Progress.Outcome.failures_eq {length : Nat} (h : p.Outcome limit length text (.next q)) :
    q.failures = p.failures ∨ ∃ fault, q.failures = p.failures.push ⟨p.position + 1, text, fault⟩ := by
  cases h with
  | skipped _ => exact .inl rfl
  | unreadable _ => exact .inr ⟨_, rfl⟩
  | failed _ _ _ => exact .inr ⟨_, rfl⟩
  | stepped _ _ _ => exact .inl rfl
  | jumped _ _ _ _ _ => exact .inl rfl

namespace Program.NeverJumpsBack

/-- Every round keeps the failures in order, as it leads further down. -/
lemma failuresInOrder_of_steps (h : program.NeverJumpsBack) (hp : p.FailuresInOrder)
    (hsteps : (program.loop limit).Steps p q) : q.FailuresInOrder := by
  have hposition := h.position_lt hsteps
  obtain ⟨-, text, -, houtcome⟩ := steps_loop_iff.1 hsteps
  obtain hsame | ⟨fault, hpush⟩ := houtcome.failures_eq
  · refine ⟨hsame ▸ hp.pairwise, ?_⟩
    rw [hsame]
    intro f hf
    exact Nat.le_of_lt (Nat.lt_of_le_of_lt (hp.line_le f hf) hposition)
  · constructor
    · rw [hpush, Array.toList_push, List.pairwise_append]
      refine ⟨hp.pairwise, List.pairwise_singleton _ _, ?_⟩
      intro f hf g hg
      obtain rfl := List.mem_singleton.1 hg
      exact Nat.lt_succ_of_le (hp.line_le f (Array.mem_toList_iff.1 hf))
    · rw [hpush]
      intro f hf
      rcases Array.mem_push.1 hf with hold | rfl
      · exact Nat.le_of_lt (Nat.lt_of_le_of_lt (hp.line_le f hold) hposition)
      · exact hposition

/-- The failures of a run that comes to an end of its own are in the order of their lines. -/
lemma pairwise_failures (h : program.NeverJumpsBack) {summary : Summary}
    (hends : (program.loop limit).Ends (.start state events) run) (hok : run.result = .ok summary) :
    summary.failures.toList.Pairwise (·.line < ·.line) := by
  obtain ⟨p, hreaches, -, rfl⟩ := exists_reaches_of_ok hends hok
  have hinOrder : p.FailuresInOrder := by
    clear hok hends
    induction hreaches with
    | refl => exact ⟨List.Pairwise.nil, by simp [Progress.start]⟩
    | tail _ hsteps ih => exact h.failuresInOrder_of_steps ih hsteps
  obtain rfl : _ = summary := Except.ok.inj hok
  exact hinOrder.pairwise

end Program.NeverJumpsBack

namespace Program

/-- A program without backward jumps always ends on its own.

Without a step limit, and from whatever state, a run of it has a summary.  It comes to each line at most
once, each time further down, and what it dispatches are some of the listed instructions, in their order.
So its steps are no more than these, and its failures, which are those that it has reported, have
ever greater line numbers.  With a step limit of at least as many steps as there are listed instructions,
the run is the same in every respect. -/
theorem run_of_neverJumpsBack (program : Program) (h : program.NeverJumpsBack) (state : State)
    (events : Array Event) :
    ∃ run summary, program.run none state events = some run ∧ run.result = .ok summary ∧
      (∀ m n p q, m < n → (program.loop none).after m (.start state events) = .next p →
        (program.loop none).after n (.start state events) = .next q → p.position < q.position) ∧
      (∀ rounds, (program.dispatched none rounds (.start state events)).Sublist
        program.listing.instructions) ∧
      summary.steps ≤ program.listing.instructions.length ∧
      (∃ new, run.events = events ++ new ∧ summary.failures = new.filterMap Event.failure?) ∧
      summary.failures.toList.Pairwise (·.line < ·.line) ∧
      ∀ max, program.listing.instructions.length ≤ max →
        program.run (some max) state events = some run := by
  obtain ⟨run, hrun⟩ := h.exists_run none state events
  have hends := ends_of_run_eq_some hrun
  obtain ⟨summary, hok⟩ := h.exists_result_eq_ok (by simp) hends
  obtain ⟨total, htotal⟩ := id hends
  have hstop := Loop.runFor_eq_some_iff.1 htotal
  refine ⟨run, summary, hrun, hok, ?_, ?_, ?_, ?_, h.pairwise_failures hends hok, ?_⟩
  · intro m n p q hmn hm hn
    exact Loop.lt_of_after_lt (f := Progress.position) (fun _ _ => h.position_lt) hmn hm hn
  · intro rounds
    exact h.dispatched_sublist none rounds state events
  · rw [(steps_eq_dispatchCount_of_ok hstop hok).1, ← length_dispatched]
    exact (h.dispatched_sublist none total state events).length_le
  · obtain ⟨new, hreported, -⟩ := program.reported_after none state events total
    rw [hstop] at hreported
    exact ⟨new, hreported.events, hreported.failures_eq_of_ok hok⟩
  · intro max hmax
    obtain ⟨short, hshort⟩ := h.exists_run (some max) state events
    have hlimit : ∀ m, some max = some m → program.listing.instructions.length ≤ m := by
      rintro m ⟨⟩
      exact hmax
    obtain ⟨summary', hok'⟩ := h.exists_result_eq_ok hlimit (ends_of_run_eq_some hshort)
    have hcut : short.result ≠ .error (.stepLimit max) := by
      rw [hok']
      rintro ⟨⟩
    have hcutShort : (program.loop (some max)).CutShort (program.loop none)
        (fun run => run.result = .error (.stepLimit max)) := program.loop_cutShort (by simp)
    have hsame := hcutShort.runFor_eq_some hcut hshort
    rw [hshort, (Loop.ends_of_runFor hsame).unique hends]

/-- The `ADD` fails.  One jump leads over the `OUTPUT`, and the last one so far that the sum is no word.  The
three steps are made with a limit of four as well. -/
theorem run_of_neverJumpsBack_past_end : ∃ (program : Program) (run : Run),
    program.lines = #["; start", "ADD", "JZ 0, 2", "OUTPUT 1", "x", "JNZ 1, 9223372036854775807"] ∧
    program.NeverJumpsBack ∧ program.listing.instructions.length = 4 ∧
    program.run none .initial #[] = some run ∧ program.run (some 4) .initial #[] = some run ∧
    run.result = .ok ⟨3, false, #[⟨2, "ADD", .stackUnderflow⟩, ⟨5, "x", .unknownKeyword⟩]⟩ := by
  let program : Program :=
    ⟨#["; start", "ADD", "JZ 0, 2", "OUTPUT 1", "x", "JNZ 1, 9223372036854775807"]⟩
  have hforward : program.NeverJumpsBack := by decide +kernel
  have hlength : program.listing.instructions.length = 4 := by decide +kernel
  obtain ⟨run, summary, hrun, -, -, -, -, -, -, hsame⟩ :=
    run_of_neverJumpsBack program hforward .initial #[]
  have hlimited := hsame 4 (Nat.le_of_eq hlength)
  have hresult : (program.run (some 4) .initial #[]).map Run.result =
      some (.ok ⟨3, false, #[⟨2, "ADD", .stackUnderflow⟩, ⟨5, "x", .unknownKeyword⟩]⟩) := by
    decide +kernel
  rw [hlimited] at hresult
  exact ⟨program, run, rfl, hforward, hlength, hrun, hlimited, Option.some.inj hresult⟩

end Program

end StackMachine
