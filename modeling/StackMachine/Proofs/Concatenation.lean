import StackMachine.Proofs.Dispatches
import StackMachine.Proofs.Distances
import StackMachine.Proofs.Listings

/-!
# Programs one after the other

A program can be cut in two, and the parts run one after the other on the same machine, the second from
the state in which the first has left it.  This is the same as a run of the whole
(`Program.ends_append`), provided that the run of the first part leaves it at its end and not by a jump
beyond it (`Program.JumpsWithin`).  Jumps are relative, so the second part does not notice that it stands
further down; only the numbers of the lines that it reports are greater.

Up to the end of the first part the run of the whole goes through the same progress as the run of the
part (`reaches_append_left`).  From there on it goes through the progress of the run of the second part,
seen from further down (`Progress.continuing`), until they leave the program.
-/

namespace StackMachine

/-- The program with the lines of the first and then those of the second. -/
instance : Append Program where
  append first second := ⟨first.lines ++ second.lines⟩

/-- The failure of a line that stands further down by a number of lines. -/
def LineFailure.shift (offset : Nat) (f : LineFailure) : LineFailure :=
  { f with line := offset + f.line }

/-- The event, with the number of a line that stands further down. -/
def Event.shift (offset : Nat) : Event → Event
  | .output value => .output value
  | .failure f => .failure (f.shift offset)

/-- The progress of a run that has come to `base` and has then gone on like `p`, further down. -/
def Progress.continuing (base : Progress) (offset : Nat) (p : Progress) : Progress where
  position := offset + p.position
  steps := base.steps + p.steps
  failures := base.failures ++ p.failures.map (LineFailure.shift offset)
  events := base.events ++ p.events.map (Event.shift offset)
  state := p.state

namespace Program

/-- No jump that the run takes leads beyond the end of the program. -/
def JumpsWithin (program : Program) (limit : Option Nat) (state : State) (events : Array Event) :
    Prop :=
  ∀ (p : Progress) (i : Instruction) (distance : Int64),
    (program.loop limit).Reaches (.start state events) p → program.Dispatches limit p i →
    (i.effect p.state).outcome = .ok distance → distance ≠ 0 →
    (p.position : Int) + distance.toInt ≤ program.length

end Program

variable {first second : Program} {p q q' base : Progress} {offset : Nat} {state : State}
  {events : Array Event}

namespace Event

/-- The emitted values do not depend on where the lines stand. -/
lemma filterMap_output?_shift (offset : Nat) (events : Array Event) :
    (events.map (shift offset)).filterMap output? = events.filterMap output? := by
  rw [Array.filterMap_map]
  congr 1
  funext event
  cases event <;> rfl

end Event

namespace Progress

/-! ### Progress further down -/

lemma continuing_advance (base p : Progress) (offset : Nat) :
    base.continuing offset p.advance = (base.continuing offset p).advance := rfl

lemma continuing_record (base p : Progress) (offset : Nat) (effect : Effect) :
    base.continuing offset (p.record effect) = (base.continuing offset p).record effect := by
  have hemitted : (effect.emitted.map Event.output).toArray.map (Event.shift offset) =
      (effect.emitted.map Event.output).toArray := by
    cases effect.emitted <;> simp [Event.shift]
  simp only [continuing, record, Array.map_append, hemitted, Array.append_assoc, Nat.add_assoc]

lemma continuing_report (base p : Progress) (offset : Nat) (text : String) (fault : Fault) :
    base.continuing offset (p.report text fault) = (base.continuing offset p).report text fault := by
  simp only [continuing, report, advance, Array.map_push, Array.append_push, Event.shift,
    LineFailure.shift, Nat.add_assoc]

/-- At the start of the second part the run has come to the end of the first. -/
lemma continuing_start (h : base.position = offset) :
    base.continuing offset (.start base.state #[]) = base := by
  subst h
  simp only [continuing, start, Array.map_empty, Array.append_empty, Nat.add_zero]

end Progress

namespace Program

/-! ### Lines of the whole -/

lemma length_append (first second : Program) :
    (first ++ second).length = first.length + second.length :=
  Array.size_append

lemma lines_append_of_lt {position : Nat} (h : position < first.length) :
    (first ++ second).lines[position]? = first.lines[position]? :=
  Array.getElem?_append_left h

lemma lines_append_add (first second : Program) (position : Nat) :
    (first ++ second).lines[first.length + position]? = second.lines[position]? := by
  have hright : (first.lines ++ second.lines)[first.lines.size + position]? =
      second.lines[first.lines.size + position - first.lines.size]? :=
    Array.getElem?_append_right (Nat.le_add_right first.length position)
  rwa [Nat.add_sub_cancel_left] at hright

/-! ### The first part -/

/-- A step of the first part that stays within it is a step of the whole. -/
lemma steps_append_left (hlength : (first ++ second).length < 2 ^ 63)
    (hwithin : ∀ (i : Instruction) (distance : Int64), first.Dispatches none p i →
      (i.effect p.state).outcome = .ok distance → distance ≠ 0 →
      (p.position : Int) + distance.toInt ≤ first.length)
    (h : (first.loop none).Steps p q) :
    ((first ++ second).loop none).Steps p q ∧ q.position ≤ first.length := by
  have hfinished := h.1
  obtain ⟨hexit, text, hline, houtcome⟩ := steps_loop_iff.1 h
  have hposition : p.position < first.length := (Array.getElem?_eq_some_iff.1 hline).1
  have hlengths := length_append first second
  have hline' : (first ++ second).lines[p.position]? = some text :=
    (lines_append_of_lt hposition).trans hline
  suffices hsuffices : p.Outcome none (first ++ second).length text (.next q) ∧
      q.position ≤ first.length from
    ⟨steps_loop_iff.2 ⟨hexit, text, hline', hsuffices.1⟩, hsuffices.2⟩
  cases houtcome with
  | skipped hparse => exact ⟨.skipped hparse, hposition⟩
  | unreadable hparse => exact ⟨.unreadable hparse, hposition⟩
  | failed hparse hfree heffect => exact ⟨.failed hparse hfree heffect, hposition⟩
  | stepped hparse hfree heffect => exact ⟨.stepped hparse hfree heffect, hposition⟩
  | @jumped i distance target hparse hfree heffect hdistance htarget =>
    have hdispatches := (dispatches_iff hfinished).2 ⟨⟨text, hline, hparse⟩, hfree⟩
    have hle := hwithin i distance hdispatches heffect hdistance
    -- the target lies in the program or at its end, so its length does not matter
    rw [jumpTarget_of_lt (by omega)] at htarget
    split at htarget
    · cases htarget
    · next hnonneg =>
      rw [if_pos (by omega)] at htarget
      have hvalue := Except.ok.inj htarget
      refine ⟨.jumped hparse hfree heffect hdistance ?_, ?_⟩
      · rw [jumpTarget_of_lt (by omega), if_neg hnonneg, if_pos (by omega), hvalue]
      · change target ≤ first.length
        omega

/-- Up to the end of the first part, the run of the whole goes through the same progress. -/
lemma reaches_append_left (hlength : (first ++ second).length < 2 ^ 63)
    (hwithin : first.JumpsWithin none state events)
    (h : (first.loop none).Reaches (.start state events) p) :
    ((first ++ second).loop none).Reaches (.start state events) p ∧ p.position ≤ first.length := by
  induction h with
  | refl => exact ⟨.refl, Nat.zero_le _⟩
  | @tail p q hreaches hstep ih =>
    have hstep' : ((first ++ second).loop none).Steps p q ∧ q.position ≤ first.length :=
      steps_append_left hlength (fun i distance => hwithin p i distance hreaches) hstep
    exact ⟨ih.1.tail hstep'.1, hstep'.2⟩

/-! ### The second part -/

/-- The run of the whole follows the run of the second part: its progress is the same one further down,
unless both have left the program by a jump. -/
def Follows (first second : Program) (base q p : Progress) : Prop :=
  ∃ position, p = { base.continuing first.length q with position := position } ∧
    (position = first.length + q.position ∨
      second.length ≤ q.position ∧ (first ++ second).length ≤ position)

/-- Where they have the same progress, the one follows the other. -/
lemma follows_continuing (first second : Program) (base q : Progress) :
    Follows first second base q (base.continuing first.length q) :=
  ⟨first.length + q.position, rfl, .inl rfl⟩

/-- While the second part is under way, the run of the whole has the same progress further down. -/
lemma Follows.eq_continuing (h : Follows first second base q p) (hq : q.position < second.length) :
    p = base.continuing first.length q := by
  obtain ⟨position, rfl, rfl | ⟨hle, -⟩⟩ := h
  · rfl
  · exact absurd hle (Nat.not_le.2 hq)

/-- A jump in the second part leads to the same place of the whole, or both lead out of the program. -/
lemma exists_jumpTarget_append {position target : Nat} {distance : Int64}
    (hlength : (first ++ second).length < 2 ^ 63) (hposition : position < second.length)
    (h : jumpTarget second.length position distance = .ok target) :
    ∃ target', jumpTarget (first ++ second).length (first.length + position) distance = .ok target' ∧
      (target' = first.length + target ∨
        second.length ≤ target ∧ (first ++ second).length ≤ target') := by
  have hlengths := length_append first second
  rw [jumpTarget_of_lt (by omega)] at h
  rw [jumpTarget_of_lt (by omega)]
  split at h
  · cases h
  · next hnonneg =>
    rw [if_neg (by omega)]
    by_cases hword : ((first.length + position : Nat) : Int) + distance.toInt < 2 ^ 63
    · rw [if_pos (by omega)] at h
      have htarget := Except.ok.inj h
      rw [if_pos hword]
      exact ⟨_, rfl, .inl (by omega)⟩
    · rw [if_neg hword]
      refine ⟨_, rfl, .inr ⟨?_, Nat.le_refl _⟩⟩
      split at h
      · have htarget := Except.ok.inj h
        omega
      · exact Nat.le_of_eq (Except.ok.inj h)

/-- A step of the second part is followed by a step of the whole. -/
lemma exists_steps_of_follows (hlength : (first ++ second).length < 2 ^ 63)
    (hfollows : Follows first second base q p) (h : (second.loop none).Steps q q') :
    ∃ p', ((first ++ second).loop none).Steps p p' ∧ Follows first second base q' p' := by
  obtain ⟨hexit, text, hline, houtcome⟩ := steps_loop_iff.1 h
  have hposition : q.position < second.length := (Array.getElem?_eq_some_iff.1 hline).1
  obtain rfl := hfollows.eq_continuing hposition
  have hline' := (lines_append_add first second q.position).trans hline
  have hrecord : ∀ i : Instruction, base.continuing first.length (q.record (i.effect q.state)) =
      (base.continuing first.length q).record (i.effect (base.continuing first.length q).state) :=
    fun i => Progress.continuing_record base q first.length (i.effect q.state)
  suffices hsuffices : ∃ p', (base.continuing first.length q).Outcome none (first ++ second).length text
      (.next p') ∧ Follows first second base q' p' by
    obtain ⟨p', hp', hfollows'⟩ := hsuffices
    exact ⟨p', steps_loop_iff.2 ⟨hexit, text, hline', hp'⟩, hfollows'⟩
  cases houtcome with
  | skipped hparse =>
    refine ⟨_, .skipped hparse, ?_⟩
    rw [← Progress.continuing_advance]
    exact follows_continuing first second base _
  | unreadable hparse =>
    refine ⟨_, .unreadable hparse, ?_⟩
    rw [← Progress.continuing_report]
    exact follows_continuing first second base _
  | @failed i _ hparse _ heffect =>
    refine ⟨_, .failed (i := i) hparse (by simp) heffect, ?_⟩
    rw [← hrecord, ← Progress.continuing_report]
    exact follows_continuing first second base _
  | @stepped i hparse _ heffect =>
    refine ⟨_, .stepped (i := i) hparse (by simp) heffect, ?_⟩
    rw [← hrecord, ← Progress.continuing_advance]
    exact follows_continuing first second base _
  | @jumped i distance target hparse _ heffect hdistance htarget =>
    obtain ⟨target', htarget', hplace⟩ := exists_jumpTarget_append hlength hposition htarget
    refine ⟨_, .jumped (i := i) hparse (by simp) heffect hdistance htarget', ?_⟩
    rw [← hrecord]
    exact ⟨target', rfl, hplace⟩

/-- Where the second part is over, so is the whole. -/
lemma Follows.finished (hfollows : Follows first second base q p) {run : Run}
    (h : (second.loop none).finished? q = some run) :
    ((first ++ second).loop none).finished? p = some p.finish := by
  have hlengths := length_append first second
  rw [finished?_loop_eq] at h ⊢
  obtain ⟨position, rfl, hplace⟩ := hfollows
  rw [if_pos]
  split at h
  · next hover =>
    rcases hover with hexit | hposition
    · exact .inl hexit
    · right
      change (first ++ second).length ≤ position
      omega
  · cases h

/-! ### Both parts -/

/-- The listing tells that no jump leads beyond the end of the program. -/
lemma jumpsWithin_of_listing {program : Program}
    (h : ∀ (position : Nat) (i : Instruction) (distance : Int64),
      (position, .instruction i) ∈ program.listing.entries → i.jumpDistance? = some distance →
      (position : Int) + distance.toInt ≤ program.length) (limit : Option Nat) (state : State)
    (events : Array Event) : program.JumpsWithin limit state events := by
  intro p i distance _ hdispatches heffect hdistance
  exact h p.position i distance hdispatches.mem_entries
    (Instruction.jumpDistance?_eq_some_of_outcome heffect hdistance)

/-- To run two programs one after the other on the same machine is to run the whole, if the run of the
first one comes to its end without an `EXIT` and without a jump beyond the end, and that of the second
one comes to an end of its own.  The steps add up, and the second program decides whether the run has
halted.  The events of the second run follow those of the first, and so do its failures, with the numbers
that the lines have in the whole.

There is a result of the whole in any case.  It is the answer of `Program.run`, provided that the steps
can be counted. -/
theorem ends_append (first second : Program) (hlength : (first ++ second).length < 2 ^ 63)
    (state : State) (events : Array Event) {run₁ run₂ : Run} {summary₁ summary₂ : Summary}
    (hrun₁ : (first.loop none).Ends (.start state events) run₁) (hok₁ : run₁.result = .ok summary₁)
    (hhalted : summary₁.halted = false) (hwithin : first.JumpsWithin none state events)
    (hrun₂ : (second.loop none).Ends (.start run₁.state #[]) run₂)
    (hok₂ : run₂.result = .ok summary₂) :
    ∃ run, ((first ++ second).loop none).Ends (.start state events) run ∧
      (summary₁.steps + summary₂.steps ≤ stepCapacity →
        (first ++ second).run none state events = some run) ∧
      run.result = .ok ⟨summary₁.steps + summary₂.steps, summary₂.halted,
        summary₁.failures ++ summary₂.failures.map (LineFailure.shift first.length)⟩ ∧
      run.events = run₁.events ++ run₂.events.map (Event.shift first.length) ∧
      run.events.filterMap Event.output? =
        run₁.events.filterMap Event.output? ++ run₂.events.filterMap Event.output? ∧
      run.state = run₂.state := by
  -- the first part ends at the end of its lines
  obtain ⟨base, hreaches₁, hfinished₁, rfl⟩ := exists_reaches_of_ok hrun₁ hok₁
  obtain rfl : _ = summary₁ := Except.ok.inj hok₁
  obtain ⟨hreaches, hle⟩ := reaches_append_left hlength hwithin hreaches₁
  have hposition : base.position = first.length := by
    rw [finished?_loop_eq] at hfinished₁
    split at hfinished₁
    · next hover =>
      rcases hover with hexit | hge
      · simp [hexit] at hhalted
      · exact Nat.le_antisymm hle hge
    · cases hfinished₁
  -- from there the whole follows the second part
  obtain ⟨q, hreaches₂, hfinished₂, rfl⟩ := exists_reaches_of_ok hrun₂ hok₂
  obtain rfl : _ = summary₂ := Except.ok.inj hok₂
  have hstart : Follows first second base (.start base.state #[]) base :=
    ⟨first.length, by rw [Progress.continuing_start hposition, ← hposition], .inl rfl⟩
  obtain ⟨p, hcontinues, hfollows⟩ :=
    hreaches₂.simulate (fun q p q' => exists_steps_of_follows hlength) hstart
  have hwhole : ((first ++ second).loop none).Reaches (.start state events) p :=
    hreaches.trans hcontinues
  have hends : ((first ++ second).loop none).Ends (.start state events) p.finish :=
    hwhole.ends_iff.2 (Loop.Exits.finished (hfollows.finished hfinished₂)).ends
  obtain ⟨position, rfl, -⟩ := hfollows
  refine ⟨_, hends, ?_, rfl, rfl, ?_, rfl⟩
  · intro hsteps
    exact (run_eq_some_iff (stepsCountable_of_ok hends rfl hsteps)).2 hends
  · change (base.events ++ q.events.map (Event.shift first.length)).filterMap Event.output? = _
    rw [Array.filterMap_append Array.size_append, Event.filterMap_output?_shift]
    rfl

/-- The first program passes over a faulty line by a jump to its end.  The last jump of the second one
leads to a position that is a word, but in the whole its target is none. -/
theorem ends_append_past_words : ∃ (first second : Program) (run₁ run₂ run : Run),
    first.lines = #["CMP M1, 0", "JZ 2", "bogus"] ∧
    second.lines = #["POP M9", "JNZ 1, 9223372036854775806", "EXIT"] ∧
    (first ++ second).length < 2 ^ 63 ∧
    (first.loop none).Ends (.start .initial #[]) run₁ ∧ run₁.result = .ok ⟨2, false, #[]⟩ ∧
    first.JumpsWithin none .initial #[] ∧
    (second.loop none).Ends (.start run₁.state #[]) run₂ ∧
    run₂.result = .ok ⟨2, false, #[⟨1, "POP M9", .badAddress⟩]⟩ ∧
    ((first ++ second).loop none).Ends (.start .initial #[]) run ∧
    run.result = .ok ⟨4, false, #[⟨4, "POP M9", .badAddress⟩]⟩ := by
  let first : Program := ⟨#["CMP M1, 0", "JZ 2", "bogus"]⟩
  let second : Program := ⟨#["POP M9", "JNZ 1, 9223372036854775806", "EXIT"]⟩
  let run₁ : Run := ⟨.ok ⟨2, false, #[]⟩, #[], { State.initial with lastCategory := .jump }⟩
  let run₂ : Run := ⟨.ok ⟨2, false, #[⟨1, "POP M9", .badAddress⟩]⟩,
    #[.failure ⟨1, "POP M9", .badAddress⟩], { State.initial with lastCategory := .jump }⟩
  have hlength : (first ++ second).length < 2 ^ 63 := by decide
  have hrun₁ : (first.loop none).Ends (.start .initial #[]) run₁ := ⟨2, by decide +kernel⟩
  have hrun₂ : (second.loop none).Ends (.start run₁.state #[]) run₂ := ⟨2, by decide +kernel⟩
  have hentries : first.listing.entries =
      [(0, .instruction (.ofOperands .cmp [.memory 1, .integer 0])),
        (1, .instruction (.ofOperands .jz [.integer 2])),
        (2, .failure ⟨3, "bogus", .unknownKeyword⟩)] := by decide +kernel
  have hwithin : first.JumpsWithin none .initial #[] := by
    refine jumpsWithin_of_listing ?_ none .initial #[]
    intro position i distance hmem hdistance
    simp only [hentries, List.mem_cons, Prod.mk.injEq, Entry.instruction.injEq, reduceCtorEq, and_false,
      List.not_mem_nil, or_false] at hmem
    rcases hmem with ⟨rfl, rfl⟩ | ⟨rfl, rfl⟩
    · cases hdistance
    · obtain rfl : (2 : Int64) = distance := Option.some.inj hdistance
      decide
  obtain ⟨run, hends, -, hresult, -⟩ :=
    ends_append first second hlength .initial #[] hrun₁ rfl rfl hwithin hrun₂ rfl
  have hresult' : run.result = .ok ⟨4, false, #[⟨4, "POP M9", .badAddress⟩]⟩ :=
    hresult.trans (by decide +kernel)
  exact ⟨first, second, run₁, run₂, run, rfl, rfl, hlength, hrun₁, rfl, hwithin, hrun₂, rfl, hends,
    hresult'⟩

end Program

end StackMachine
