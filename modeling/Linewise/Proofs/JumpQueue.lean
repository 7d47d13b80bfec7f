import Linewise.Proofs.Loop

/-!
# The queue of jumps

A jump is queued when it is made and announced later, and meanwhile more jumps can be made, also by what
listens to the announcement. Nothing gets lost on the way: at every point of a run the targets announced
so far, followed by those in the queue, are the targets of all jumps so far (`Balanced`), and the queue
is empty whenever a line is fetched or the end is announced. Who listens to a jump is told of it: the call of
the listeners follows the announcement at once (`Moment.Answered`).
-/

namespace Linewise

open Machine Control

/-- The target that an occurrence announces. -/
def Occurrence.announced? : Occurrence → Option Nat
  | .announced target => some target
  | _ => none

/-- The target that an occurrence jumps to. -/
def Occurrence.jumped? : Occurrence → Option Nat
  | .jumped _ target => some target
  | _ => none

/-- A line is fetched, or the loop has come to its end. -/
def Occurrence.EndsDrain : Occurrence → Prop
  | .fetched _ => True
  | .ended => True
  | _ => False

/-- The targets announced in a history, in order. -/
def announcedTargets (history : List Moment) : List Nat :=
  history.reverse.filterMap fun moment => moment.occurrence.announced?

/-- The targets jumped to in a history, in order. -/
def jumpedTargets (history : List Moment) : List Nat :=
  history.reverse.filterMap fun moment => moment.occurrence.jumped?

/-- Something holds of every moment of a history and what came before it. -/
def Throughout (p : Moment → List Moment → Prop) : List Moment → Prop
  | [] => True
  | moment :: past => p moment past ∧ Throughout p past

theorem Throughout.of_split {p : Moment → List Moment → Prop} {later past : List Moment}
    {moment : Moment} (h : Throughout p (later ++ moment :: past)) : p moment past := by
  induction later with
  | nil => exact h.1
  | cons _ later ih => exact ih h.2

/-! ## The balance of announced and queued jumps -/

theorem announcedTargets_cons (moment : Moment) (past : List Moment) :
    announcedTargets (moment :: past)
      = announcedTargets past ++ moment.occurrence.announced?.toList := by
  simp only [announcedTargets, List.reverse_cons, List.filterMap_append]
  cases h : moment.occurrence.announced? <;> simp [h]

theorem jumpedTargets_cons (moment : Moment) (past : List Moment) :
    jumpedTargets (moment :: past) = jumpedTargets past ++ moment.occurrence.jumped?.toList := by
  simp only [jumpedTargets, List.reverse_cons, List.filterMap_append]
  cases h : moment.occurrence.jumped? <;> simp [h]

/-- What has been announced and what is queued make up what has been jumped to. -/
def Balanced (queue : List Nat) (history : List Moment) : Prop :=
  announcedTargets history ++ queue = jumpedTargets history

namespace Balanced

variable {queue : List Nat} {past : List Moment} {moment : Moment}

theorem other (h : Balanced queue past) (ha : moment.occurrence.announced? = none)
    (hj : moment.occurrence.jumped? = none) : Balanced queue (moment :: past) := by
  rw [Balanced, announcedTargets_cons, jumpedTargets_cons, ha, hj]
  simpa [Balanced] using h

theorem jump (h : Balanced queue past) {label : Text} {target : Nat}
    (ho : moment.occurrence = .jumped label target) : Balanced (queue ++ [target]) (moment :: past) := by
  rw [Balanced, announcedTargets_cons, jumpedTargets_cons, ho, ← h]
  simp [Occurrence.announced?, Occurrence.jumped?]

theorem announce {target : Nat} (h : Balanced (target :: queue) past)
    (ho : moment.occurrence = .announced target) : Balanced queue (moment :: past) := by
  rw [Balanced, announcedTargets_cons, jumpedTargets_cons, ho]
  simpa [Balanced, Occurrence.announced?, Occurrence.jumped?] using h

end Balanced

/-! ## The invariant -/

/-- What happened last. -/
def lastOccurrence (past : List Moment) : Option Occurrence := past.head?.map Moment.occurrence

/-- What holds of a moment of a run and its past, as far as jumps are concerned. -/
structure Accounted (moment : Moment) (past : List Moment) : Prop where
  balanced : Balanced moment.queue (moment :: past)
  drained : moment.occurrence.EndsDrain → moment.queue = []
  /-- Listeners that are called right after an announcement are called with its target. -/
  payload : ∀ event args listeners target, moment.occurrence = .triggered event args listeners →
    lastOccurrence past = some (.announced target) →
    event = "jump" ∧ args = [(Number.ofNat target).text]

namespace Control

/-- The jumps of a run so far are accounted for. -/
structure Accounts (s : Control) : Prop where
  balanced : Balanced s.queue s.history
  throughout : Throughout Accounted s.history
  /-- What listeners or a line do does not come right after an announcement. -/
  head : s.phase ≠ .between → ∀ target, lastOccurrence s.history ≠ some (.announced target)

variable {s t : Control}

/-- An occurrence that has nothing to do with jumps can be recorded. -/
theorem Accounts.note (hs : s.Accounts) (sink : Sink) {o : Occurrence} (ha : o.announced? = none)
    (hj : o.jumped? = none) (hd : o.EndsDrain → s.queue = [])
    (hp : ∀ event args listeners, o = .triggered event args listeners →
      ∀ target, lastOccurrence s.history ≠ some (.announced target)) : (s.note sink o).Accounts := by
  have hbalanced : Balanced s.queue (s.note sink o).history := hs.balanced.other ha hj
  refine ⟨hbalanced, ⟨⟨hbalanced, hd, ?_⟩, hs.throughout⟩, ?_⟩
  · intro event args listeners target ho hlast
    exact absurd hlast (hp event args listeners ho target)
  · intro _ target hlast
    have ho : o = .announced target := Option.some.inj hlast
    rw [ho] at ha
    cases ha

/-- A jump that is announced leaves the queue. -/
theorem Accounts.announce (hs : s.Accounts) (sink : Sink) (hp : s.phase = .between) {target : Nat}
    {rest : List Nat} (hq : s.queue = target :: rest) :
    ({ s with queue := rest }.note sink (.announced target)).Accounts := by
  have hbefore : Balanced (target :: rest) s.history := by
    rw [← hq]
    exact hs.balanced
  have hbalanced : Balanced rest ({ s with queue := rest }.note sink (.announced target)).history :=
    hbefore.announce rfl
  exact ⟨hbalanced, ⟨⟨hbalanced, False.elim, nofun⟩, hs.throughout⟩, fun h => absurd hp h⟩

/-- When the end is announced nothing is queued. -/
theorem Accounts.finish (hs : s.Accounts) (sink : Sink) (hd : s.Done) :
    ({ s with running := false }.note sink .ended).Accounts := by
  have hstopped : { s with running := false }.Accounts := ⟨hs.balanced, hs.throughout, hs.head⟩
  exact hstopped.note sink rfl rfl (fun _ => hd.queue) nofun

/-- Only the loop announces jumps, and only a jump jumps. -/
theorem plain_of_records {c : Conduct} {o : Occurrence} (h : c.Records o) :
    o.announced? = none ∧ o.jumped? = none ∧ ¬ o.EndsDrain := by
  cases o with
  | announced | jumped | fetched | ended | asked | stepped | skipped | stopped => exact h.elim
  | _ => exact ⟨rfl, rfl, id⟩

/-- Every move keeps the account. -/
theorem Accounts.move {c : Conduct} (hs : s.Accounts) (hm : Move c s t) : t.Accounts := by
  cases hm with
  | note o hp ho =>
      -- listeners that a command calls are not called right after an announcement
      obtain ⟨ha, hj, hd⟩ := plain_of_records ho
      exact hs.note _ ha hj (fun h => absurd h hd) fun _ _ _ _ => hs.head hp
  | @jump sink label target hp hc hl =>
      have hbalanced : Balanced (s.queue ++ [target]) ({ s with
          pointer := (target : Int) - 1
          queue := s.queue ++ [target] }.note sink (.jumped label target)).history :=
        hs.balanced.jump rfl
      exact ⟨hbalanced, ⟨⟨hbalanced, False.elim, nofun⟩, hs.throughout⟩, nofun⟩
  | skip hp hc =>
      have hmoved : { s with pointer := s.pointer + 1 }.Accounts :=
        ⟨hs.balanced, hs.throughout, hs.head⟩
      exact hmoved.note _ rfl rfl False.elim nofun
  | stop hp hc =>
      have hstopped : { s with running := false }.Accounts := ⟨hs.balanced, hs.throughout, hs.head⟩
      exact hstopped.note _ rfl rfl False.elim nofun
  | listen | interrupt => exact ⟨hs.balanced, hs.throughout, hs.head⟩
  | announce target rest hp hq => exact hs.announce _ hp hq
  | @call sink target rest listeners hp hq hl =>
      have ha := hs.announce sink hp hq
      have hbalanced : Balanced rest (({ s with queue := rest }.note sink (.announced target)).note sink
          (.triggered "jump" [(Number.ofNat target).text] listeners)).history :=
        ha.balanced.other rfl rfl
      refine ⟨hbalanced, ⟨⟨hbalanced, False.elim, ?_⟩, ha.throughout⟩, nofun⟩
      -- the announcement that comes before the call is that of this target
      rintro event args exs other ⟨⟩ ⟨⟩
      exact ⟨rfl, rfl⟩
  | settle hp => exact ⟨hs.balanced, hs.throughout, fun h => absurd rfl h⟩
  | ask view h => exact hs.note _ rfl rfl False.elim nofun
  | grow feed text rest location h hf hl => exact ⟨hs.balanced, hs.throughout, hs.head⟩
  | close feed h hf hl => exact ⟨hs.balanced, hs.throughout, hs.head⟩
  | @fetch sink hp hq hr h0 h1 =>
      have hnoted := hs.note sink (o := .fetched s.pointer.toNat) rfl rfl (fun _ => hq) nofun
      exact ⟨hnoted.balanced, hnoted.throughout, nofun⟩
  | step hp => exact hs.note _ rfl rfl False.elim nofun
  | advance hp => exact ⟨hs.balanced, hs.throughout, fun h => absurd rfl h⟩
  | @finish sink h =>
      have hended := hs.finish sink h
      exact ⟨hended.balanced, hended.throughout, nofun⟩
  | @conclude sink listeners h =>
      have hended := hs.finish sink h
      have hcalled := hended.note sink (o := .triggered "end" [] listeners) rfl rfl False.elim nofun
      exact ⟨hcalled.balanced, hcalled.throughout, nofun⟩

theorem Accounts.path {c : Conduct} (hs : s.Accounts) (h : Path c s t) : t.Accounts := by
  induction h with
  | refl => exact hs
  | tail _ hm ih => exact ih.move hm

end Control

/-- The jumps of every run are accounted for, at its end and at each of its moments, and an announcement
that somebody listens to is followed at once by the call of its listeners. -/
theorem run_accounts (fuel : Nat) {m : Machine} (hqueue : m.queue = []) (hhistory : m.history = []) :
    Balanced (run fuel m).2.queue (run fuel m).2.history ∧
      ∀ later moment past, (run fuel m).2.history = later ++ moment :: past →
        Accounted moment past ∧ moment.Answered later := by
  obtain ⟨start, phase, hstart, hpath⟩ := run_path fuel m
  obtain ⟨hq, -, -, hh⟩ := untouched_of_start hstart
  have hempty : (start.control .between).history = [] := hh.trans hhistory
  have hinitial : (start.control .between).Accounts := by
    refine ⟨?_, ?_, fun h => absurd rfl h⟩
    · show Balanced start.queue start.history
      rw [hq, hh, hqueue, hhistory]
      rfl
    · rw [hempty]
      trivial
  have hend := hinitial.path hpath
  refine ⟨hend.balanced, fun later moment past hsplit => ⟨?_, ?_⟩⟩
  · have hthroughout : Throughout Accounted (run fuel m).2.history := hend.throughout
    rw [hsplit] at hthroughout
    exact hthroughout.of_split
  · exact hpath.allAnswered (hempty ▸ allAnswered_nil) later moment past hsplit

/-- A machine with a program that listens to its jump, and stops after it has been made. -/
def stoppingJumper : Machine :=
  { initial .standard with
    sources := .ofSources [.ofText "p"
      "on jump eval print string jumped\non goto eval exit\ngoto x\nlabel x\nprint string no\n"] }

/-- The jump is announced although the run has been told to stop. -/
theorem stoppingJumper_announces :
    announcedTargets (run 9 stoppingJumper).2.history = [3] := by
  have hqueue : (run 9 stoppingJumper).2.queue = [] := by decide +kernel
  have hjumped : jumpedTargets (run 9 stoppingJumper).2.history = [3] := by decide +kernel
  obtain ⟨hbalanced, -⟩ := run_accounts 9 (m := stoppingJumper) rfl rfl
  rw [Balanced, hqueue, hjumped, List.append_nil] at hbalanced
  exact hbalanced

end Linewise
