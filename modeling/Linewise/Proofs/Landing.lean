import Linewise.Proofs.JumpQueue

/-!
# Where jumps land

A jump puts the pointer before its target and relies on the loop to move it on. The loop does so after a
line, and a jump made by a line lands on its target. While queued jumps are announced the loop does not
move the pointer, and a jump made by a listener then lands one line early, or ends the run if its target
is the first line. `goto_lands` says which of the two is the case, for every jump of every run after
which nothing else decides about the next line.
-/

namespace Linewise

open Machine Control

/-- Whether an occurrence decides which line comes next, or is the outcome of that. -/
def Occurrence.decides : Occurrence → Bool
  | .jumped _ _ | .skipped | .stopped | .fetched _ | .ended => true
  | _ => false

/-- The last decision in a history, and what came before it. -/
def lastDecision : List Moment → Option (Moment × List Moment)
  | [] => none
  | moment :: past => if moment.occurrence.decides then some (moment, past) else lastDecision past

/-- Whether a history is that of a run which announces jumps, not one which runs a line: the last jump
was announced after the last line was fetched. -/
def duringDrain : List Moment → Bool
  | [] => false
  | moment :: past =>
    match moment.occurrence with
    | .announced _ => true
    | .fetched _ => false
    | _ => duringDrain past

theorem lastDecision_of_split {between past : List Moment} {moment : Moment}
    (hbetween : ∀ other ∈ between, other.occurrence.decides = false)
    (hmoment : moment.occurrence.decides = true) :
    lastDecision (between ++ moment :: past) = some (moment, past) := by
  induction between with
  | nil => exact if_pos hmoment
  | cons other between ih =>
      have hother := hbetween other List.mem_cons_self
      rw [List.cons_append, lastDecision, hother]
      exact ih fun o ho => hbetween o (List.mem_cons_of_mem _ ho)

/-- How the decision of a jump comes out. -/
structure LandsOn (past : List Moment) (jump : Moment) (target : Nat) (next : Moment) : Prop where
  fetched : ∀ index, next.occurrence = .fetched index →
    index + (if duringDrain past then 1 else 0) = target
  ended : next.occurrence = .ended → jump.running = true → duringDrain past = true ∧ target = 0

/-- What holds of a moment of a run and its past, as far as the landing of jumps is concerned. -/
structure Landed (moment : Moment) (past : List Moment) : Prop where
  /-- A jump goes to the line of its label. -/
  target : ∀ label target, moment.occurrence = .jumped label target →
    moment.labels.get? label = some target
  lands : ∀ jump before label target, lastDecision past = some (jump, before) →
    jump.occurrence = .jumped label target → LandsOn before jump target moment

/-! ## The invariant -/

namespace Control

/-- The pointer and the running flag are as a jump has left them. -/
structure Aims (s : Control) (past : List Moment) (jump : Moment) (target : Nat) : Prop where
  inside : target < s.lines.size
  running : jump.running = s.running
  stepping : s.phase = .stepping → duringDrain past = false ∧ s.pointer + 1 = target
  waiting : s.phase ≠ .stepping → s.pointer + (if duringDrain past then 1 else 0) = target

/-- All jumps of a run so far have landed, and the last one will unless something else comes up. -/
structure Aimed (s : Control) : Prop where
  labels : LabelsInside s.labels s.lines.size
  stepping : s.phase = .stepping → duringDrain s.history = false
  announcing : s.phase = .announcing → duringDrain s.history = true
  aims : s.phase ≠ .ended → ∀ jump past label target, lastDecision s.history = some (jump, past) →
    jump.occurrence = .jumped label target → s.Aims past jump target
  throughout : Throughout Landed s.history

variable {s t : Control}

theorem lastDecision_note {sink : Sink} {o : Occurrence} (h : o.decides = false) :
    lastDecision (s.note sink o).history = lastDecision s.history := by
  show (if o.decides then _ else lastDecision s.history) = _
  rw [h]
  rfl

theorem duringDrain_note {sink : Sink} {o : Occurrence} (ha : o.announced? = none)
    (hf : ∀ index, o ≠ .fetched index) : duringDrain (s.note sink o).history = duringDrain s.history := by
  cases o with
  | announced target => cases ha
  | fetched index => exact absurd rfl (hf index)
  | _ => rfl

/-- Most occurrences are neither a jump nor the outcome of one. -/
theorem landed_of_silent {moment : Moment} (past : List Moment)
    (hj : ∀ label target, moment.occurrence ≠ .jumped label target)
    (hd : ¬ moment.occurrence.EndsDrain) : Landed moment past where
  target label target h := absurd h (hj label target)
  lands _ _ _ _ _ _ := by
    refine ⟨fun index h => absurd ?_ hd, fun h => absurd ?_ hd⟩
    · rw [h]
      trivial
    · rw [h]
      trivial

/-- What an aim depends on. -/
theorem Aims.congr {past : List Moment} {jump : Moment} {target : Nat} (h : s.Aims past jump target)
    (hsize : s.lines.size ≤ t.lines.size) (hrunning : t.running = s.running)
    (hpointer : t.pointer = s.pointer) (hphase : s.phase = .stepping ↔ t.phase = .stepping) :
    t.Aims past jump target where
  inside := Nat.lt_of_lt_of_le h.inside hsize
  running := by rw [hrunning]; exact h.running
  stepping hp := by rw [hpointer]; exact h.stepping (hphase.mpr hp)
  waiting hp := by rw [hpointer]; exact h.waiting fun hs => hp (hphase.mp hs)

/-- An occurrence that decides nothing and announces nothing can be recorded. -/
theorem Aimed.note (hs : s.Aimed) (sink : Sink) {o : Occurrence} (hd : o.decides = false)
    (ha : o.announced? = none) : (s.note sink o).Aimed := by
  have hdrain : duringDrain (s.note sink o).history = duringDrain s.history := by
    refine duringDrain_note ha ?_
    rintro index rfl
    cases hd
  refine ⟨hs.labels, ?_, ?_, ?_, ?_, hs.throughout⟩
  · rw [hdrain]
    exact hs.stepping
  · rw [hdrain]
    exact hs.announcing
  · intro hp jump past label target hlast hjump
    rw [lastDecision_note hd] at hlast
    exact (hs.aims hp jump past label target hlast hjump).congr (Nat.le_refl _) rfl rfl Iff.rfl
  · refine landed_of_silent _ ?_ ?_
    · rintro label target (rfl : o = _)
      cases hd
    · intro (h : o.EndsDrain)
      cases o with
      | fetched | ended => cases hd
      | _ => exact h

/-- A decision other than a jump puts an end to all aims. -/
theorem aims_of_decision {sink : Sink} {o : Occurrence} (hd : o.decides = true)
    (hj : ∀ label target, o ≠ .jumped label target) {jump : Moment} {past : List Moment} {label : Text}
    {target : Nat} (hlast : lastDecision (s.note sink o).history = some (jump, past))
    (hjump : jump.occurrence = .jumped label target) : False := by
  have hlast : (if o.decides then some (_, s.history) else lastDecision s.history) = some (jump, past) :=
    hlast
  rw [hd] at hlast
  cases hlast
  exact hj label target hjump

/-- Passing over a line, or being told to stop, ends an aim. -/
theorem Aimed.decide (hs : s.Aimed) {sink : Sink} {o : Occurrence} (ho : o = .skipped ∨ o = .stopped)
    (pointer : Int) (running : Bool) : ({ s with pointer, running }.note sink o).Aimed := by
  have hdrain : duringDrain ({ s with pointer, running }.note sink o).history
      = duringDrain s.history := by
    rcases ho with rfl | rfl <;> rfl
  refine ⟨hs.labels, ?_, ?_, ?_, ?_, hs.throughout⟩
  · rw [hdrain]
    exact hs.stepping
  · rw [hdrain]
    exact hs.announcing
  · intro _ jump past label target hlast hjump
    refine (aims_of_decision ?_ ?_ hlast hjump).elim
    · rcases ho with rfl | rfl <;> rfl
    · rcases ho with rfl | rfl <;> nofun
  · refine landed_of_silent _ ?_ ?_
    · rcases ho with rfl | rfl <;> nofun
    · rcases ho with rfl | rfl <;> exact id

/-- A jump that is made takes aim. -/
theorem Aimed.jump (hs : s.Aimed) {sink : Sink} (hp : s.phase ≠ .between) {label : Text} {target : Nat}
    (hl : s.labels.get? label = some target) :
    ({ s with pointer := (target : Int) - 1, queue := s.queue ++ [target] }.note sink
      (.jumped label target)).Aimed := by
  refine ⟨hs.labels, hs.stepping, hs.announcing, ?_, ?_, hs.throughout⟩
  · rintro hover jump past label' target' ⟨⟩ ⟨⟩
    refine ⟨hs.labels label target hl, rfl, fun h => ?_, fun h => ?_⟩
    · refine ⟨hs.stepping h, ?_⟩
      show (target : Int) - 1 + 1 = target
      omega
    · -- commands run only in a line, while jumps are announced, and after the loop
      have hannouncing : s.phase = .announcing := by
        cases hphase : s.phase with
        | between => exact absurd hphase hp
        | announcing => rfl
        | stepping => exact absurd hphase h
        | ended => exact absurd hphase hover
      rw [hs.announcing hannouncing]
      show (target : Int) - 1 + 1 = target
      omega
  · refine ⟨?_, ?_⟩
    · rintro _ _ ⟨⟩
      exact hl
    · intro _ _ _ _ _ _
      exact ⟨nofun, nofun⟩

/-- An announcement does not touch the pointer. -/
theorem Aimed.announce (hs : s.Aimed) (sink : Sink) (hp : s.phase = .between) (target : Nat)
    (rest : List Nat) : ({ s with queue := rest }.note sink (.announced target)).Aimed := by
  refine ⟨hs.labels, ?_, fun _ => rfl, ?_, landed_of_silent _ nofun id, hs.throughout⟩
  · intro (h : s.phase = .stepping)
    rw [hp] at h
    cases h
  · intro hover jump past label target' hlast hjump
    exact (hs.aims hover jump past label target' hlast hjump).congr (Nat.le_refl _) rfl rfl Iff.rfl

/-- The line that is fetched is the one that the last jump has aimed at, from the place it was made. -/
theorem Aimed.fetch (hs : s.Aimed) {sink : Sink} (hp : s.phase = .between) (h0 : 0 ≤ s.pointer) :
    { s.note sink (.fetched s.pointer.toNat) with phase := .stepping }.Aimed := by
  refine ⟨hs.labels, fun _ => rfl, nofun, ?_, ⟨nofun, ?_⟩, hs.throughout⟩
  · intro _ jump past label target hlast hjump
    exact (aims_of_decision (o := .fetched s.pointer.toNat) rfl nofun hlast hjump).elim
  · intro jump past label target hlast hjump
    have haims := hs.aims (by rw [hp]; decide) jump past label target hlast hjump
    have hpointer := haims.waiting (by rw [hp]; decide)
    refine ⟨?_, nofun⟩
    -- a jump made by a line has its increment behind it, one made while jumps are announced has not
    rintro index ⟨⟩
    by_cases hdrain : duringDrain past = true
    · rw [if_pos hdrain] at hpointer ⊢
      omega
    · rw [if_neg hdrain] at hpointer ⊢
      omega

/-- A run that has not been told to stop ends on a jump only if that was to the first line, made while
jumps were announced. -/
theorem Aimed.finish (hs : s.Aimed) (sink : Sink) (hd : s.Done) :
    { { s with running := false }.note sink .ended with phase := .ended }.Aimed := by
  refine ⟨hs.labels, nofun, nofun, fun h => absurd rfl h, ⟨nofun, ?_⟩, hs.throughout⟩
  intro jump past label target hlast hjump
  refine ⟨nofun, fun _ hrunning => ?_⟩
  have haims := hs.aims (by rw [hd.phase]; decide) jump past label target hlast hjump
  have hpointer := haims.waiting (by rw [hd.phase]; decide)
  have hinside := haims.inside
  rw [haims.running] at hrunning
  -- the target is a line of the program, so the pointer can only have missed it in front of the first
  split at hpointer
  · rename_i hdrain
    refine ⟨hdrain, ?_⟩
    rcases hd.exhausted hrunning with hneg | ⟨hsize, _⟩ <;> omega
  · rcases hd.exhausted hrunning with hneg | ⟨hsize, _⟩ <;> omega

/-- What commands record on their own decides nothing. -/
theorem decides_of_records {c : Conduct} {o : Occurrence} (h : c.Records o) : o.decides = false := by
  cases o with
  | jumped | skipped | stopped | fetched | ended => exact h.elim
  | _ => rfl

/-- Every move keeps the aim. -/
theorem Aimed.move {c : Conduct} (hs : s.Aimed) (hm : Move c s t) : t.Aimed := by
  cases hm with
  | note o hp ho => exact hs.note _ (decides_of_records ho) (plain_of_records ho).1
  | jump label target hp hc hl => exact hs.jump hp hl
  | skip hp hc => exact hs.decide (.inl rfl) (s.pointer + 1) s.running
  | stop hp hc => exact hs.decide (.inr rfl) s.pointer false
  | listen | interrupt =>
      refine ⟨hs.labels, hs.stepping, hs.announcing, ?_, hs.throughout⟩
      intro hover jump past label target hlast hjump
      exact (hs.aims hover jump past label target hlast hjump).congr (Nat.le_refl _) rfl rfl Iff.rfl
  | announce target rest hp hq => exact hs.announce _ hp target rest
  | @call sink target rest listeners hp hq hl =>
      have hcalled := (hs.announce sink hp target rest).note sink
        (o := .triggered "jump" [(Number.ofNat target).text] listeners) rfl rfl
      refine ⟨hcalled.labels, nofun, fun _ => rfl, ?_, hcalled.throughout⟩
      intro _ jump past label target' hlast hjump
      have haims := hcalled.aims (by show s.phase ≠ _; rw [hp]; decide) jump past label target' hlast hjump
      exact haims.congr (Nat.le_refl _) rfl rfl ⟨by show s.phase = _ → _; rw [hp]; nofun, nofun⟩
  | settle hp =>
      refine ⟨hs.labels, nofun, nofun, ?_, hs.throughout⟩
      intro _ jump past label target hlast hjump
      have haims := hs.aims (by rw [hp]; decide) jump past label target hlast hjump
      exact haims.congr (Nat.le_refl _) rfl rfl ⟨by rw [hp]; nofun, nofun⟩
  | ask view h => exact hs.note _ rfl rfl
  | grow feed text rest location h hf hl =>
      have hsize : s.lines.size ≤ (s.lines.push ⟨location, text.words⟩).size := by
        rw [Array.size_push]
        exact Nat.le_succ _
      refine ⟨?_, hs.stepping, hs.announcing, ?_, hs.throughout⟩
      · show LabelsInside _ (s.lines.push _).size
        rw [Array.size_push]
        exact hs.labels.declare _
      · intro hover jump past label target hlast hjump
        exact (hs.aims hover jump past label target hlast hjump).congr hsize rfl rfl Iff.rfl
  | close feed h hf hl =>
      refine ⟨hs.labels, hs.stepping, hs.announcing, ?_, hs.throughout⟩
      intro hover jump past label target hlast hjump
      exact (hs.aims hover jump past label target hlast hjump).congr (Nat.le_refl _) rfl rfl Iff.rfl
  | fetch hp hq hr h0 h1 => exact hs.fetch hp h0
  | step hp => exact hs.note _ rfl rfl
  | advance hp =>
      refine ⟨hs.labels, nofun, nofun, ?_, hs.throughout⟩
      intro _ jump past label target hlast hjump
      have haims := hs.aims (by rw [hp]; decide) jump past label target hlast hjump
      -- this is the increment that a jump relies on
      obtain ⟨hdrain, hpointer⟩ := haims.stepping hp
      refine ⟨haims.inside, haims.running, nofun, fun _ => ?_⟩
      show s.pointer + 1 + _ = _
      rw [hdrain, hpointer]
      rfl
  | finish h => exact hs.finish _ h
  | @conclude sink listeners h =>
      exact (hs.finish sink h).note sink (o := .triggered "end" [] listeners) rfl rfl

theorem Aimed.path {c : Conduct} (hs : s.Aimed) (h : Path c s t) : t.Aimed := by
  induction h with
  | refl => exact hs
  | tail _ hm ih => exact ih.move hm

end Control

/-! ## The run -/

/-- A jump after which nothing decides until the next line is fetched goes to the line of its label, and
that is the line fetched unless jumps were being announced. Then it is the line before; there is none
before the first one, and only then does the run end there. -/
theorem goto_lands (fuel : Nat) {m : Machine} (hm : m.Unstarted) {later between past : List Moment}
    {jump next : Moment} {label : Text} {target : Nat}
    (hsplit : (run fuel m).2.history = later ++ next :: (between ++ jump :: past))
    (hjump : jump.occurrence = .jumped label target)
    (hbetween : ∀ moment ∈ between, moment.occurrence.decides = false) :
    jump.labels.get? label = some target ∧
      (∀ index, next.occurrence = .fetched index →
        index + (if duringDrain past then 1 else 0) = target) ∧
      (next.occurrence = .ended → jump.running = true → duringDrain past = true ∧ target = 0) := by
  obtain ⟨start, phase, hstart, hpath⟩ := run_path fuel m
  have hhistory : start.history = [] := by
    rw [(untouched_of_start hstart).history, hm.history]
  have hinitial : (start.control .between).Aimed := by
    refine ⟨hm.labelsInside hstart, nofun, nofun, ?_, ?_⟩
    · intro _ jump past label target (hlast : lastDecision start.history = _)
      rw [hhistory] at hlast
      cases hlast
    · show Throughout Landed start.history
      rw [hhistory]
      trivial
  have hthroughout : Throughout Landed (run fuel m).2.history := (hinitial.path hpath).throughout
  rw [hsplit] at hthroughout
  have hnext : Landed next (between ++ jump :: past) := hthroughout.of_split
  have hmade : Landed jump past := by
    rw [show later ++ next :: (between ++ jump :: past) = (later ++ next :: between) ++ jump :: past by
      simp] at hthroughout
    exact hthroughout.of_split
  have hdecides : jump.occurrence.decides = true := by
    rw [hjump]
    rfl
  have hlands := hnext.lands jump past label target (lastDecision_of_split hbetween hdecides) hjump
  exact ⟨hmade.target label target hjump, hlands.fetched, hlands.ended⟩

/-- A history can be split where its occurrences can. -/
theorem exists_split {history : List Moment} {later between past : List Occurrence}
    {jump next : Occurrence}
    (h : history.map Moment.occurrence = later ++ next :: (between ++ jump :: past)) :
    ∃ later' next' between' jump' past', history = later' ++ next' :: (between' ++ jump' :: past') ∧
      next'.occurrence = next ∧ between'.map Moment.occurrence = between ∧ jump'.occurrence = jump := by
  obtain ⟨later', rest, rfl, -, hrest⟩ := List.map_eq_append_iff.mp h
  obtain ⟨next', rest, rfl, hnext, hrest⟩ := List.map_eq_cons_iff.mp hrest
  obtain ⟨between', rest, rfl, hbetween, hrest⟩ := List.map_eq_append_iff.mp hrest
  obtain ⟨jump', past', rfl, hjump, -⟩ := List.map_eq_cons_iff.mp hrest
  exact ⟨later', next', between', jump', past', rfl, hnext, hbetween, hjump⟩

theorem undecided_of_occurrences {between : List Moment} {occurrences : List Occurrence}
    (hbetween : between.map Moment.occurrence = occurrences)
    (h : occurrences.all (fun o => !o.decides) = true) :
    ∀ moment ∈ between, moment.occurrence.decides = false := by
  subst hbetween
  simpa using h

/-- A machine with a program that jumps over a line. -/
def forwardJumper : Machine :=
  { initial .standard with
    sources := .ofSources [.ofText "p" "goto skip\nprint string no\nlabel skip\n"] }

/-- The jump goes to the line of its label, which is the line fetched next. -/
theorem forwardJumper_lands :
    ∃ later next between jump past,
      (run 9 forwardJumper).2.history = later ++ next :: (between ++ jump :: past) ∧
      jump.occurrence = .jumped "skip" 2 ∧ next.occurrence = .fetched 2 ∧
      jump.labels.get? "skip" = some 2 := by
  have hoccurrences : (run 9 forwardJumper).2.history.map Moment.occurrence
      = [.ended, .performed .label, .stepped 2] ++ .fetched 2 :: ([.announced 2] ++ .jumped "skip" 2 ::
        [.performed .goto, .stepped 0, .fetched 0]) := by decide +kernel
  obtain ⟨later, next, between, jump, past, hsplit, hnext, hbetween, hjump⟩ := exists_split hoccurrences
  have hunstarted : forwardJumper.Unstarted := ⟨rfl, rfl, rfl, rfl⟩
  have hlands := goto_lands 9 hunstarted hsplit hjump (undecided_of_occurrences hbetween rfl)
  exact ⟨later, next, between, jump, past, hsplit, hjump, hnext, hlands.1⟩

/-- A machine with a program that jumps to `a`, and to `b` when that is announced. -/
def jumpingListener : Machine :=
  { initial .standard with
    sources := .ofSources [.ofText "p" ("push s eval rem\npush s eval goto b\non jump eval exec -- pop s\n"
      ++ "goto a\nprint string x\nlabel a\nprint string wrong\nlabel b\nprint string end\n")] }

/-- Not every jump lands on its target, even if nothing else decides about the next line. -/
theorem not_goto_lands_always :
    ¬ ∀ (fuel : Nat) (m : Machine), m.Unstarted → ∀ (later between past : List Moment)
      (jump next : Moment) (label : Text) (target index : Nat),
      (run fuel m).2.history = later ++ next :: (between ++ jump :: past) →
      jump.occurrence = .jumped label target →
      (∀ moment ∈ between, moment.occurrence.decides = false) →
      next.occurrence = .fetched index → index = target := by
  intro h
  -- from the jump to `b`, which is line 7, to the line fetched after it
  let listener : Executable := .closure "eval" ["exec", "--", "pop", "s"]
  let all := (run 9 jumpingListener).2.history.map Moment.occurrence
  have hoccurrences : all = all.take 15 ++ .fetched 6 :: ([.performed .rem, .performed .pop,
      .performed .exec, .delivered "jump" ["7"] listener, .triggered "jump" ["7"] [listener],
      .announced 7] ++ .jumped "b" 7 :: all.drop 23) := by decide +kernel
  obtain ⟨later, next, between, jump, past, hsplit, hnext, hbetween, hjump⟩ := exists_split hoccurrences
  have hindex := h 9 jumpingListener ⟨rfl, rfl, rfl, rfl⟩ later between past jump next "b" 7 6 hsplit hjump
    (undecided_of_occurrences hbetween rfl) hnext
  cases hindex

end Linewise
