import Mathlib.Data.Nat.Count
import StackMachine.Proofs.Jumps
import StackMachine.Proofs.Listings
import StackMachine.Proofs.Reachability
import StackMachine.Proofs.Rounds

/-!
# Which instructions a run dispatches

A run dispatches an instruction (`Program.Dispatches`) if it comes to the line that holds it and carries
it out in the next round.  It does so unless its step limit is used up (`dispatches_iff`).  Lines without
a statement and lines that cannot be read are never dispatched.

`Program.dispatchCount` counts the rounds of a run in which an instruction is dispatched.  It is the
number of steps that the run itself has counted, wherever the run stands and however it has ended
(`counted_after`).

A run comes to a result in one of three ways (`Leaves`): it is over, or its step limit is used up, or it
dispatches a jump to a place before the first line.
-/

namespace StackMachine

variable {program : Program} {limit : Option Nat} {p : Progress} {i : Instruction}
  {state : State} {events : Array Event}

/-- The dispatch of an instruction does not touch the step limit. -/
lemma Progress.dispatch_ne_stop_stepLimit {length max : Nat} {text : String} {run : Run}
    (hparse : Statement.parse text = .ok (some i)) (hresult : run.result = .error (.stepLimit max)) :
    p.dispatch length text i ≠ .stop run := by
  intro h
  have houtcome := p.round_outcome none length text
  rw [round_eq_dispatch hparse (by simp), h] at houtcome
  cases houtcome with
  | limited _ hlimit _ => cases hlimit
  | strayed _ _ _ _ htarget =>
    rw [eq_jumpBeforeStart_of_jumpTarget_eq_error htarget] at hresult
    cases hresult

namespace Program

/-- A run goes on where a line follows and no `EXIT` has been carried out, by what the round does on the
line. -/
lemma steps_loop_iff {q : Progress} :
    (program.loop limit).Steps p q ↔
      p.state.lastCategory ≠ .exit ∧ ∃ text, program.lines[p.position]? = some text ∧
        p.Outcome limit program.length text (.next q) := by
  constructor
  · rintro ⟨hfinished, hnext⟩
    obtain ⟨text, hline, hround⟩ := exists_round_loop_eq hfinished
    refine ⟨(finished?_loop_eq_none_iff.1 hfinished).1, text, hline, ?_⟩
    rw [← hnext, hround]
    exact p.round_outcome limit program.length text
  · rintro ⟨hexit, text, hline, houtcome⟩
    have hposition : p.position < program.length := (Array.getElem?_eq_some_iff.1 hline).1
    have hfinished : (program.loop limit).finished? p = none :=
      finished?_loop_eq_none_iff.2 ⟨hexit, hposition⟩
    obtain ⟨text', hline', hround⟩ := exists_round_loop_eq hfinished
    obtain rfl : text = text' := Option.some.inj (hline.symm.trans hline')
    exact ⟨hfinished, hround.trans houtcome.round_eq⟩

/-- A run that stands in the given progress dispatches the instruction in its next round. -/
def Dispatches (program : Program) (limit : Option Nat) (p : Progress) (i : Instruction) : Prop :=
  (program.loop limit).finished? p = none ∧
    ∃ text, program.lines[p.position]? = some text ∧ Statement.parse text = .ok (some i) ∧
      (program.loop limit).round p = p.dispatch program.length text i

/-- A run dispatches the instruction of its line, unless the step limit is used up. -/
lemma dispatches_iff (hfinished : (program.loop limit).finished? p = none) :
    program.Dispatches limit p i ↔
      (∃ text, program.lines[p.position]? = some text ∧ Statement.parse text = .ok (some i)) ∧
        ∀ max, limit = some max → p.steps < max := by
  constructor
  · rintro ⟨-, text, hline, hparse, hround⟩
    refine ⟨⟨text, hline, hparse⟩, ?_⟩
    rintro max rfl
    by_contra hused
    have hstop : (program.loop (some max)).round p = .stop (p.abort (.stepLimit max)) := by
      simp only [loop, hline]
      rw [Progress.round_eq, hparse]
      simp only [if_pos (Nat.not_lt.1 hused)]
    rw [hstop] at hround
    exact Progress.dispatch_ne_stop_stepLimit hparse rfl hround.symm
  · rintro ⟨⟨text, hline, hparse⟩, hsteps⟩
    exact ⟨hfinished, text, hline, hparse, round_loop_eq_dispatch hline hparse hsteps⟩

/-- What a run dispatches is listed. -/
lemma Dispatches.mem_entries (h : program.Dispatches limit p i) :
    (p.position, .instruction i) ∈ program.listing.entries := by
  obtain ⟨-, text, hline, hparse, -⟩ := h
  exact mem_entries_listing_instruction_iff.2 ⟨text, hline, hparse⟩

/-- A run dispatches an instruction in the round that follows the given number of rounds. -/
def DispatchesAfter (program : Program) (limit : Option Nat) (state : State) (events : Array Event)
    (rounds : Nat) : Prop :=
  ∃ p i, (program.loop limit).after rounds (.start state events) = .next p ∧
    program.Dispatches limit p i

open Classical in
/-- The number of instructions that a run dispatches in its first rounds. -/
noncomputable def dispatchCount (program : Program) (limit : Option Nat) (state : State)
    (events : Array Event) (rounds : Nat) : Nat :=
  Nat.count (program.DispatchesAfter limit state events) rounds

lemma dispatchCount_zero : program.dispatchCount limit state events 0 = 0 := by
  rw [dispatchCount, Nat.count_zero]

lemma dispatchCount_succ_of_dispatches {rounds : Nat}
    (hafter : (program.loop limit).after rounds (.start state events) = .next p)
    (hdispatches : program.Dispatches limit p i) :
    program.dispatchCount limit state events (rounds + 1) =
      program.dispatchCount limit state events rounds + 1 := by
  have hround : program.DispatchesAfter limit state events rounds := ⟨p, i, hafter, hdispatches⟩
  rw [dispatchCount, Nat.count_succ, if_pos hround, dispatchCount]

lemma dispatchCount_succ_of_not {rounds : Nat}
    (h : ∀ p i, (program.loop limit).after rounds (.start state events) = .next p →
      ¬ program.Dispatches limit p i) :
    program.dispatchCount limit state events (rounds + 1) =
      program.dispatchCount limit state events rounds := by
  have hround : ¬ program.DispatchesAfter limit state events rounds := by
    rintro ⟨p, i, hafter, hdispatches⟩
    exact h p i hafter hdispatches
  rw [dispatchCount, Nat.count_succ, if_neg hround, dispatchCount, Nat.add_zero]

open Classical in
lemma dispatchCount_mono {m n : Nat} (h : m ≤ n) :
    program.dispatchCount limit state events m ≤ program.dispatchCount limit state events n :=
  Nat.count_monotone _ h

/-- The number of dispatched instructions agrees with the account of the run. -/
inductive Counted (limit : Option Nat) (count : Nat) : Round Progress Run → Prop where
  /-- A run under way has counted them as its steps. -/
  | underWay {p : Progress} (hsteps : p.steps = count)
    (hlimit : ∀ max, limit = some max → count ≤ max) : Counted limit count (.next p)
  /-- A run that has come to an end of its own reports them as its steps. -/
  | finished {run : Run} {summary : Summary} (hresult : run.result = .ok summary)
    (hsteps : summary.steps = count) (hlimit : ∀ max, limit = some max → count ≤ max) :
    Counted limit count (.stop run)
  /-- A run that is broken off by its step limit has used up the limit. -/
  | limited {run : Run} (hresult : run.result = .error (.stepLimit count))
    (hlimit : limit = some count) : Counted limit count (.stop run)
  /-- A run that is broken off by a jump does not tell. -/
  | strayed {run : Run} {line : Nat} {distance : Int64}
    (hresult : run.result = .error (.jumpBeforeStart line distance)) : Counted limit count (.stop run)

/-- The dispatch of an instruction counts as one step, if the limit leaves room for it. -/
lemma Counted.of_dispatch {count length : Nat} {text : String} (hsteps : p.steps = count)
    (hfree : ∀ max, limit = some max → p.steps < max) :
    Counted limit (count + 1) (p.dispatch length text i) := by
  have hcount : (p.record (i.effect p.state)).steps = count + 1 := congrArg (· + 1) hsteps
  have hlimit : ∀ max, limit = some max → count + 1 ≤ max := fun max hmax => hsteps ▸ hfree max hmax
  cases heffect : (i.effect p.state).outcome with
  | error fault =>
    rw [Progress.dispatch_of_error heffect]
    exact .underWay hcount hlimit
  | ok distance =>
    by_cases hdistance : distance = 0
    · subst hdistance
      rw [Progress.dispatch_of_ok_zero heffect]
      exact .underWay hcount hlimit
    · rw [Progress.dispatch_of_ok heffect hdistance]
      cases htarget : jumpTarget length p.position distance with
      | ok target => exact .underWay hcount hlimit
      | error error =>
        exact .strayed (congrArg Except.error (eq_jumpBeforeStart_of_jumpTarget_eq_error htarget))

/-- A round that dispatches an instruction counts it, and no other round counts anything. -/
lemma Counted.round {rounds : Nat}
    (hafter : (program.loop limit).after rounds (.start state events) = .next p)
    (h : Counted limit (program.dispatchCount limit state events rounds) (.next p)) :
    Counted limit (program.dispatchCount limit state events (rounds + 1))
      ((program.loop limit).round p) := by
  cases h with
  | underWay hsteps hlimit =>
  have hfinished := Loop.finished?_of_after_eq_next hafter
  by_cases hdispatches : ∃ i, program.Dispatches limit p i
  · obtain ⟨i, hi⟩ := hdispatches
    have hfree := ((dispatches_iff hfinished).1 hi).2
    rw [dispatchCount_succ_of_dispatches hafter hi]
    obtain ⟨-, text, -, -, hround⟩ := hi
    rw [hround]
    exact .of_dispatch hsteps hfree
  · have hskips : program.dispatchCount limit state events (rounds + 1) =
        program.dispatchCount limit state events rounds := by
      refine dispatchCount_succ_of_not fun q i hq hi => ?_
      obtain rfl : p = q := Round.next.inj (hafter.symm.trans hq)
      exact hdispatches ⟨i, hi⟩
    obtain ⟨text, hline, hround⟩ := exists_round_loop_eq hfinished
    have hused : ∀ i, Statement.parse text = .ok (some i) →
        ¬ ∀ max, limit = some max → p.steps < max := fun i hparse hfree =>
      hdispatches ⟨i, (dispatches_iff hfinished).2 ⟨⟨text, hline, hparse⟩, hfree⟩⟩
    have houtcome := p.round_outcome limit program.length text
    rw [← hround] at houtcome
    generalize (program.loop limit).round p = r at houtcome
    rw [hskips]
    cases houtcome with
    | skipped _ => exact .underWay hsteps hlimit
    | unreadable _ => exact .underWay hsteps hlimit
    | @limited i max _ hmax hle =>
      obtain rfl : max = program.dispatchCount limit state events rounds :=
        Nat.le_antisymm (hsteps ▸ hle) (hlimit max hmax)
      exact .limited rfl hmax
    | failed hparse hfree _ => exact absurd hfree (hused _ hparse)
    | stepped hparse hfree _ => exact absurd hfree (hused _ hparse)
    | jumped hparse hfree _ _ _ => exact absurd hfree (hused _ hparse)
    | strayed hparse hfree _ _ _ => exact absurd hfree (hused _ hparse)

/-- Wherever a run stands, its account agrees with the number of instructions that it has dispatched. -/
theorem counted_after (program : Program) (limit : Option Nat) (state : State) (events : Array Event)
    (rounds : Nat) :
    Counted limit (program.dispatchCount limit state events rounds)
      ((program.loop limit).after rounds (.start state events)) := by
  refine Loop.after_rounds_invariant
    (J := fun n r => Counted limit (program.dispatchCount limit state events n) r) ?_ ?_ ?_ ?_ rounds
  · rw [dispatchCount_zero]
    exact .underWay rfl fun max _ => Nat.zero_le max
  · intro n p run h hfinished
    cases h with
    | underWay hsteps hlimit =>
      rw [finished?_loop_eq_some hfinished]
      exact .finished rfl hsteps hlimit
  · intro n p hafter h
    exact h.round hafter
  · intro n run hafter h
    rw [dispatchCount_succ_of_not fun p i hp => by rw [hafter] at hp; cases hp]
    exact h

/-- The steps of a run under way are the instructions that it has dispatched. -/
lemma steps_eq_dispatchCount {rounds : Nat}
    (h : (program.loop limit).after rounds (.start state events) = .next p) :
    p.steps = program.dispatchCount limit state events rounds := by
  have hcounted := program.counted_after limit state events rounds
  rw [h] at hcounted
  cases hcounted with
  | underWay hsteps _ => exact hsteps

/-- A run that comes to an end of its own reports as many steps as it has dispatched instructions, and no
more than its limit allows. -/
lemma steps_eq_dispatchCount_of_ok {rounds : Nat} {run : Run} {summary : Summary}
    (h : (program.loop limit).after rounds (.start state events) = .stop run)
    (hok : run.result = .ok summary) :
    summary.steps = program.dispatchCount limit state events rounds ∧
      ∀ max, limit = some max → summary.steps ≤ max := by
  have hcounted := program.counted_after limit state events rounds
  rw [h] at hcounted
  cases hcounted with
  | finished hresult hsteps hlimit =>
    obtain rfl := Except.ok.inj (hok.symm.trans hresult)
    exact ⟨hsteps, hsteps ▸ hlimit⟩
  | limited hresult _ =>
    rw [hresult] at hok
    cases hok
  | strayed hresult =>
    rw [hresult] at hok
    cases hok

/-- A run that is broken off by its step limit has dispatched as many instructions as the limit allows. -/
lemma dispatchCount_eq_of_stepLimit {rounds max : Nat} {run : Run}
    (h : (program.loop limit).after rounds (.start state events) = .stop run)
    (herror : run.result = .error (.stepLimit max)) :
    limit = some max ∧ program.dispatchCount limit state events rounds = max := by
  have hcounted := program.counted_after limit state events rounds
  rw [h] at hcounted
  cases hcounted with
  | finished hresult _ _ =>
    rw [hresult] at herror
    cases herror
  | limited hresult hlimit =>
    obtain rfl := RunError.stepLimit.inj (Except.error.inj (hresult.symm.trans herror))
    exact ⟨hlimit, rfl⟩
  | strayed hresult =>
    rw [hresult] at herror
    cases herror

/-! ### How runs end -/

variable {run : Run} {summary : Summary}

/-- How a run that stands in the given progress comes to a result without going on. -/
inductive Leaves (program : Program) (limit : Option Nat) (p : Progress) : Run → Prop where
  /-- It is over. -/
  | finished (hfinished : (program.loop limit).finished? p = some p.finish) :
    Leaves program limit p p.finish
  /-- It stands before an instruction with its step limit used up. -/
  | limited {text : String} {i : Instruction} {max : Nat}
    (hfinished : (program.loop limit).finished? p = none)
    (hline : program.lines[p.position]? = some text) (hparse : Statement.parse text = .ok (some i))
    (hlimit : limit = some max) (hmax : max ≤ p.steps) :
    Leaves program limit p (p.abort (.stepLimit max))
  /-- It dispatches a jump to a place before the first line. -/
  | strayed {i : Instruction} {distance : Int64} (hdispatches : program.Dispatches limit p i)
    (heffect : (i.effect p.state).outcome = .ok distance) (hdistance : distance ≠ 0)
    (htarget : jumpTarget program.length p.position distance =
      .error (.jumpBeforeStart (p.position + 1) distance)) :
    Leaves program limit p
      ((p.record (i.effect p.state)).abort (.jumpBeforeStart (p.position + 1) distance))

/-- A run that ends in a result has come to a progress that it leaves with this result. -/
lemma exists_reaches_leaves (h : (program.loop limit).Ends p run) :
    ∃ q, (program.loop limit).Reaches p q ∧ program.Leaves limit q run := by
  obtain ⟨q, hreaches, hexits⟩ := Loop.ends_iff_exists_exits.1 h
  refine ⟨q, hreaches, ?_⟩
  cases hexits with
  | finished hfinished =>
    obtain rfl := finished?_loop_eq_some hfinished
    exact .finished hfinished
  | stopped hfinished hstop =>
    obtain ⟨text, hline, hround⟩ := exists_round_loop_eq hfinished
    have houtcome := q.round_outcome limit program.length text
    rw [← hround, hstop] at houtcome
    cases houtcome with
    | limited hparse hlimit hmax => exact .limited hfinished hline hparse hlimit hmax
    | strayed hparse hfree heffect hdistance htarget =>
      obtain rfl := eq_jumpBeforeStart_of_jumpTarget_eq_error htarget
      have hdispatches := (dispatches_iff hfinished).2 ⟨⟨text, hline, hparse⟩, hfree⟩
      exact .strayed hdispatches heffect hdistance htarget

/-- A run that comes to an end of its own has reached a state in which it is over. -/
lemma exists_reaches_of_ok (h : (program.loop limit).Ends (.start state events) run)
    (hok : run.result = .ok summary) :
    ∃ p, (program.loop limit).Reaches (.start state events) p ∧
      (program.loop limit).finished? p = some run ∧ run = p.finish := by
  obtain ⟨p, hreaches, hleaves⟩ := exists_reaches_leaves h
  cases hleaves with
  | finished hfinished => exact ⟨p, hreaches, hfinished, rfl⟩
  | limited _ _ _ _ _ => cases hok
  | strayed _ _ _ _ => cases hok

/-- If the steps that it reports can be counted, then so can those before. -/
lemma stepsCountable_of_ok (h : (program.loop limit).Ends (.start state events) run)
    (hok : run.result = .ok summary) (hsteps : summary.steps ≤ limit.getD stepCapacity) :
    program.StepsCountable limit state events := by
  obtain ⟨total, htotal⟩ := h
  have hstop := Loop.runFor_eq_some_iff.1 htotal
  intro rounds p hafter
  calc p.steps = program.dispatchCount limit state events rounds := steps_eq_dispatchCount hafter
    _ ≤ program.dispatchCount limit state events total :=
        dispatchCount_mono (Nat.le_of_lt (Loop.lt_of_after hafter hstop))
    _ = summary.steps := (steps_eq_dispatchCount_of_ok hstop hok).1.symm
    _ ≤ limit.getD stepCapacity := hsteps

end Program

end StackMachine
