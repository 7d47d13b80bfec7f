import Linewise.Proofs.Lifting

/-!
# How a run is brought to its end

A run can be told to stop, by a command or by a listener of the host, and it can be interrupted from
outside. Either is noticed between two lines. Nothing takes it back (`lasting_precedes`), so no line
begins after it, and a run that has been told to stop does not ask for lines either (`Path.heeds`). What
remains for such a run is to announce the queued jumps and then, once, its end (`BeginsRound.of_stopped`), with
a call of those who listen to it (`Ends.endedOnce`); an interrupted run that has found another line fails
instead (`BeginsRound.of_interrupted`).
-/

namespace Linewise

open Machine Linewise.Action Control

/-! ## Moments -/

/-- From an earlier moment to a later one: a flag that has been cleared is cleared, and an interruption is
still there. -/
structure Moment.Precedes (earlier moment : Moment) : Prop where
  running : earlier.running = false → moment.running = false
  interruption : ∀ i, earlier.interruption = some i → moment.interruption = some i

/-- A line begins only in a run that goes on, the feed is asked only by a run that was not told to stop,
and being told to stop shows at once. -/
structure Moment.Heeds (moment : Moment) : Prop where
  stepped : ∀ index, moment.occurrence = .stepped index →
    moment.running = true ∧ moment.interruption = none
  asked : ∀ view, moment.occurrence = .asked view → moment.running = true
  stopped : moment.occurrence = .stopped → moment.running = false

/-- The moments at which the end was announced. -/
def endings (history : List Moment) : List Moment :=
  history.filter fun moment => moment.occurrence = .ended

/-- The end was announced once, by a run that was over and had no jump left to announce, and if somebody
listened to it the next thing that happened is that they were called. -/
def EndedOnce (history : List Moment) : Prop :=
  ∃ later moment past, history = later ++ moment :: past ∧ endings history = [moment] ∧
    moment.running = false ∧ moment.queue = [] ∧ moment.Answered later

namespace Control

variable {c : Conduct} {s t : Control}

/-! ## No line after the end -/

/-- No move sets the flag again or takes an interruption back. -/
theorem lasting_precedes : Lasting c Moment.Precedes where
  same _ _ _ _ _ := ⟨id, fun _ hi => hi⟩
  trans h h' := ⟨h'.running ∘ h.running, fun i hi => h'.interruption i (h.interruption i hi)⟩
  move hm _ _ _ := by
    cases hm with
    | stop | finish | conclude => exact ⟨fun _ => rfl, fun _ hi => hi⟩
    | interrupt i hp hnone =>
        refine ⟨id, ?_⟩
        intro j hj
        cases hnone.symm.trans hj
    | _ => exact ⟨id, fun _ hi => hi⟩

theorem Tells.heeds {moment : Moment} (h : s.Tells moment) : moment.Heeds := by
  obtain ⟨sink, o, rfl, h⟩ := h
  constructor
  · rintro index rfl
    exact h
  · rintro view rfl
    exact h
  · rintro rfl
    exact h

/-- The history of a run heeds the flag and interruptions. -/
theorem Path.heeds (h : Path c s t) (hs : s.history = []) : ∀ moment ∈ t.history, moment.Heeds := by
  intro moment hmoment
  obtain ⟨u, htells⟩ := h.told hs moment hmoment
  exact htells.heeds

/-! ## The end is announced once -/

/-- The end has been announced once if the run is over, and not before. -/
structure Ends (s : Control) : Prop where
  before : s.phase ≠ .ended → endings s.history = []
  after : s.phase = .ended →
    ∃ moment, endings s.history = [moment] ∧ moment.running = false ∧ moment.queue = []

theorem endings_note (sink : Sink) {o : Occurrence} (h : o ≠ .ended) :
    endings (s.note sink o).history = endings s.history := by
  show endings (s.snapshot sink o :: s.history) = _
  simp [endings, snapshot, h]

theorem Ends.congr (hs : s.Ends) (hphase : t.phase = .ended ↔ s.phase = .ended)
    (h : endings t.history = endings s.history) : t.Ends := by
  constructor
  · intro hp
    rw [h]
    exact hs.before fun hs => hp (hphase.mpr hs)
  · intro hp
    rw [h]
    exact hs.after (hphase.mp hp)

/-- Until the end of the loop there is no end to announce. -/
theorem Ends.congr_of_between (hs : s.Ends) (hp : s.phase ≠ .ended) (hp' : t.phase ≠ .ended)
    (h : endings t.history = endings s.history) : t.Ends :=
  hs.congr ⟨fun h => absurd h hp', fun h => absurd h hp⟩ h

/-- The end is announced where there was none. -/
theorem Ends.finish (hs : s.Ends) (sink : Sink) (hd : s.Done) :
    { { s with running := false }.note sink .ended with phase := .ended }.Ends := by
  have hbefore := hs.before (by rw [hd.phase]; decide)
  refine ⟨fun h => absurd rfl h, fun _ => ⟨{ s with running := false }.snapshot sink .ended, ?_, rfl, hd.queue⟩⟩
  show endings ({ s with running := false }.snapshot sink .ended :: s.history) = _
  rw [← hbefore]
  simp [endings, snapshot]

theorem Ends.move (hs : s.Ends) (hm : Move c s t) : t.Ends := by
  cases hm with
  | note o hp ho =>
      refine hs.congr Iff.rfl (endings_note _ ?_)
      rintro rfl
      exact ho
  | jump | skip | stop | announce | ask | step =>
      refine hs.congr Iff.rfl (endings_note _ ?_)
      nofun
  | listen | interrupt | grow | close => exact hs.congr Iff.rfl rfl
  | @call sink target rest listeners hp =>
      have hannounced := endings_note (s := { s with queue := rest }) sink (o := .announced target) nofun
      have hcalled := endings_note (s := { s with queue := rest }.note sink (.announced target))
        sink (o := .triggered "jump" [(Number.ofNat target).text] listeners) nofun
      exact hs.congr_of_between (by rw [hp]; decide) nofun (hcalled.trans hannounced)
  | settle hp => exact hs.congr_of_between (by rw [hp]; decide) nofun rfl
  | fetch hp => exact hs.congr_of_between (by rw [hp]; decide) nofun (endings_note _ nofun)
  | advance hp => exact hs.congr_of_between (by rw [hp]; decide) nofun rfl
  | @finish sink h => exact hs.finish sink h
  | @conclude sink listeners h => exact (hs.finish sink h).congr Iff.rfl (endings_note _ nofun)

theorem Ends.path (hs : s.Ends) (h : Path c s t) : t.Ends := by
  induction h with
  | refl => exact hs
  | tail _ hm ih => exact ih.move hm

/-- A run that is over has announced its end once, and has called those who listen to it. -/
theorem Ends.endedOnce (hs : s.Ends) (hall : AllAnswered s.history) (hp : s.phase = .ended) :
    EndedOnce s.history := by
  obtain ⟨moment, hendings, hrunning, hqueue⟩ := hs.after hp
  have hmem : moment ∈ endings s.history := by
    rw [hendings]
    exact List.mem_singleton_self moment
  obtain ⟨later, past, hsplit⟩ := List.append_of_mem (List.mem_filter.mp hmem).1
  exact ⟨later, moment, past, hsplit, hendings, hrunning, hqueue, hall later moment past hsplit⟩

theorem ends_of_empty (hp : s.phase ≠ .ended) (h : s.history = []) : s.Ends := by
  refine ⟨fun _ => ?_, fun hended => absurd hended hp⟩
  rw [h]
  rfl

end Control

/-! ## Rounds -/

/-- The machine after so many rounds of the loop, each of which was followed by another one. -/
inductive Rounds (self : Dispatch) (jumps : Nat) (start : Machine) : Nat → Machine → Prop
  | zero : Rounds self jumps start 0 start
  | succ {count : Nat} {m m' : Machine} (h : Rounds self jumps start count m)
      (hround : (round self jumps).run.run m = (.ok true, m')) : Rounds self jumps start (count + 1) m'

section Rounds

variable {self : Dispatch} {jumps count : Nat} {start m : Machine}

/-- The loop goes on from there with what is left of its fuel. -/
theorem Rounds.cycle_run (h : Rounds self jumps start count m) (rest : Nat) :
    (cycle self jumps (count + rest)).run.run start = (cycle self jumps rest).run.run m := by
  induction h generalizing rest with
  | zero => rw [Nat.zero_add]
  | @succ count _ _ _ hround ih =>
      rw [Nat.add_right_comm, Nat.add_assoc, ih, cycle_succ, run_bind_of_ok hround]
      rfl

/-- Whole rounds are a path from between two lines to there again. -/
theorem Rounds.path (hself : Routine.Dispatches .free self) (h : Rounds self jumps start count m) :
    Path .free (start.control .between) (m.control .between) := by
  induction h with
  | zero => exact .refl
  | @succ _ m m' _ hround ih =>
      obtain ⟨phase, hpath, -, hpost, -⟩ :=
        runs_round hself jumps m .between (Conduct.free_good m) (admits_free _) rfl
      have hafter : (round self jumps).after m = m' := congrArg Prod.snd hround
      have hphase : phase = .between := hpost true (congrArg Prod.fst hround)
      rw [hafter, hphase] at hpath
      exact ih.trans hpath

/-- A round of a run that has been told to stop ends with its jumps announced. -/
theorem round_of_stopped {drained : Machine} (hdrain : (drain self jumps).run.run m = (.ok (), drained))
    (hr : drained.running = false) : (round self jumps).run.run m = (.ok false, drained) := by
  rw [round, run_bind_of_ok hdrain, run_get_bind, hr]
  rfl

theorem checkInterruption_of_some {i : Interruption} (h : m.interruption = some i) :
    checkInterruption.run.run m = (.error (.halted (.interrupted i)), m.halted (.interrupted i)) := by
  have hhalt : (halt (.interrupted i) : Action Unit).run.run m
      = (.error (.halted (.interrupted i)), m.halted (.interrupted i)) :=
    Prod.ext (result_halt _ m) (after_halt _ m)
  rw [checkInterruption, run_get_bind, h]
  exact hhalt

/-- A round of an interrupted run that has found a line ends with that. -/
theorem round_of_interrupted {drained found : Machine} {i : Interruption}
    (hdrain : (drain self jumps).run.run m = (.ok (), drained)) (hr : drained.running = true)
    (hfetch : fetch.run.run drained = (.ok true, found)) (hi : found.interruption = some i) :
    (round self jumps).run.run m = (.error (.halted (.interrupted i)),
      ((record (.fetched found.pointer.toNat)).after found).halted (.interrupted i)) := by
  have hcheck := checkInterruption_of_some (m := (record (.fetched found.pointer.toNat)).after found) hi
  have hrecord : (record (.fetched found.pointer.toNat)).run.run found
      = (.ok (), (record (.fetched found.pointer.toNat)).after found) := rfl
  rw [round, run_bind_of_ok hdrain, run_get_bind, hr, if_pos rfl, run_bind_of_ok hfetch, if_pos rfl,
    run_get_bind, run_bind_of_ok hrecord, run_bind_of_error hcheck]

end Rounds

/-- A run comes to a round of its loop with this machine. -/
structure Machine.BeginsRound (fuel : Nat) (m before : Machine) : Prop where
  loaded : loadProgram.result m = .ok ()
  rounds : ∃ count < fuel, Rounds (exec fuel) fuel m.started count before

namespace Machine.BeginsRound

variable {fuel : Nat} {m before drained : Machine}

/-- What is left of the run is the loop from there, and then the end. -/
theorem program_run (h : m.BeginsRound fuel before) : ∃ rest, (program fuel).run.run m
    = (cycle (exec fuel) fuel (rest + 1) >>= fun _ => announceEnd (exec fuel) >>= fun _ =>
        lastFlush).run.run before := by
  obtain ⟨count, hlt, hrounds⟩ := h.rounds
  obtain ⟨rest, hrest⟩ := Nat.exists_eq_add_of_lt hlt
  obtain ⟨hresult, hafter⟩ := program_of_load_ok fuel h.loaded
  refine ⟨rest, ?_⟩
  have hprogram : (program fuel).run.run m = (body fuel).run.run m.started := Prod.ext hresult hafter
  have hcycle := hrounds.cycle_run (rest + 1)
  rw [← Nat.add_assoc, ← hrest] at hcycle
  exact hprogram.trans (run_bind_congr hcycle _)

/-- Draining leads from the start of the run to between two lines, with nothing queued. -/
theorem drained_path (h : m.BeginsRound fuel before)
    (hdrain : (drain (exec fuel) fuel).run.run before = (.ok (), drained)) :
    Path .free (m.started.control .between) (drained.control .between) ∧ drained.queue = [] := by
  have hself : Routine.Dispatches .free (exec fuel) := Routine.exec fuel
  obtain ⟨count, -, hrounds⟩ := h.rounds
  obtain ⟨phase, hpath, -, hpost, -⟩ :=
    runs_drain hself fuel before .between (Conduct.free_good _) (admits_free _) rfl
  have hafter : (drain (exec fuel) fuel).after before = drained := congrArg Prod.snd hdrain
  rw [hafter] at hpath hpost
  obtain ⟨hphase, hqueue⟩ := hpost () (congrArg Prod.fst hdrain)
  have hphase : phase = .between := hphase
  subst hphase
  exact ⟨(hrounds.path hself).trans hpath, hqueue⟩

/-- A run that has been told to stop announces its jumps, and then its end. -/
theorem of_stopped (h : m.BeginsRound fuel before)
    (hdrain : (drain (exec fuel) fuel).run.run before = (.ok (), drained))
    (hr : drained.running = false) :
    (program fuel).run.run m = (announceEnd (exec fuel) >>= fun _ => lastFlush).run.run drained := by
  obtain ⟨rest, hrun⟩ := h.program_run
  have hcycle : (cycle (exec fuel) fuel (rest + 1)).run.run before = (.ok (), drained) := by
    rw [cycle_succ, run_bind_of_ok (round_of_stopped hdrain hr)]
    rfl
  rw [hrun, run_bind_of_ok hcycle]

/-- An interrupted run that goes on to another line fails with the interruption. -/
theorem of_interrupted {found : Machine} {i : Interruption} (h : m.BeginsRound fuel before)
    (hdrain : (drain (exec fuel) fuel).run.run before = (.ok (), drained))
    (hr : drained.running = true) (hfetch : fetch.run.run drained = (.ok true, found))
    (hi : found.interruption = some i) :
    (program fuel).run.run m = (.error (.halted (.interrupted i)),
      ((record (.fetched found.pointer.toNat)).after found).halted (.interrupted i)) := by
  obtain ⟨rest, hrun⟩ := h.program_run
  have hround := round_of_interrupted hdrain hr hfetch hi
  rw [hrun, cycle_succ, run_bind_of_error (run_bind_of_error hround _)]

end Machine.BeginsRound

/-! ## The whole run -/

variable {m : Machine}

theorem history_started (hm : m.history = []) : (m.started.control .between).history = [] :=
  (untouched_of_start (.inr rfl)).history.trans hm

theorem ends_started (hm : m.history = []) : (m.started.control .between).Ends :=
  ends_of_empty nofun (history_started hm)

theorem allAnswered_started (hm : m.history = []) : AllAnswered (m.started.control .between).history := by
  rw [history_started hm]
  exact allAnswered_nil

/-- After a moment that shows that the run is to end, no line begins, and a run that was told to stop does
not ask for one. -/
theorem run_heeds (fuel : Nat) (hm : m.history = []) {later past : List Moment} {moment : Moment}
    (hsplit : (run fuel m).2.history = later ++ moment :: past) {next : Moment}
    (hnext : next ∈ later ++ [moment]) :
    (moment.running = false ∨ moment.interruption ≠ none → ∀ index, next.occurrence ≠ .stepped index) ∧
      (moment.running = false → ∀ view, next.occurrence ≠ .asked view) := by
  obtain ⟨start, phase, hstart, hpath⟩ := run_path fuel m
  have hempty : (start.control .between).history = [] := (untouched_of_start hstart).history.trans hm
  have hordered : (run fuel m).2.history.Pairwise fun moment earlier => earlier.Precedes moment :=
    (hpath.ordered lasting_precedes hempty).pairwise
  have hmem : next ∈ (run fuel m).2.history := by
    rw [hsplit]
    simp only [List.mem_append, List.mem_cons, List.not_mem_nil, or_false] at hnext ⊢
    exact hnext.imp_right .inl
  have hself := hpath.heeds hempty next hmem
  have hafter : moment.Precedes next := by
    rcases List.mem_append.mp hnext with h | h
    · rw [hsplit, List.pairwise_append] at hordered
      exact hordered.2.2 next h moment List.mem_cons_self
    · cases List.mem_singleton.mp h
      exact ⟨id, fun _ hi => hi⟩
  refine ⟨fun hend index hstepped => ?_, fun hstopped view hasked => ?_⟩
  · obtain ⟨hrunning, hinterruption⟩ := hself.stepped index hstepped
    rcases hend with hstopped | hinterrupted
    · rw [hafter.running hstopped] at hrunning
      cases hrunning
    · obtain ⟨i, hi⟩ := Option.ne_none_iff_exists'.mp hinterrupted
      rw [hafter.interruption i hi] at hinterruption
      cases hinterruption
  · have hrunning := hself.asked view hasked
    rw [hafter.running hstopped] at hrunning
    cases hrunning

/-- A run that is interrupted beforehand runs no line. -/
theorem not_stepped_of_interrupted (fuel : Nat) (hm : m.history = []) (hi : m.interruption ≠ none)
    (index : Nat) : .stepped index ∉ (run fuel m).2.occurrences := by
  obtain ⟨i, hi⟩ := Option.ne_none_iff_exists'.mp hi
  obtain ⟨start, phase, hstart, hpath⟩ := run_path fuel m
  obtain ⟨-, -, hinterruption, hhistory⟩ := untouched_of_start hstart
  have hempty : (start.control .between).history = [] := hhistory.trans hm
  intro hmem
  obtain ⟨moment, hmoment, hoccurrence⟩ := List.mem_map.mp hmem
  have hmoment := List.mem_reverse.mp hmoment
  have hsince := (hpath.ordered lasting_precedes hempty).since moment hmoment m.sink .ended
  have hnone := ((hpath.heeds hempty moment hmoment).stepped index hoccurrence).2
  rw [hsince.interruption i (hinterruption.trans hi)] at hnone
  cases hnone

/-- A run that is told to stop announces its end once, also if those who listen to the end fail. -/
theorem endedOnce_of_stopped {fuel : Nat} {before drained : Machine} (hm : m.history = [])
    (h : m.BeginsRound fuel before)
    (hdrain : (drain (exec fuel) fuel).run.run before = (.ok (), drained))
    (hr : drained.running = false) : EndedOnce (run fuel m).2.history := by
  obtain ⟨hpath, hqueue⟩ := h.drained_path hdrain
  have hdone : (drained.control .between).Done := by
    refine ⟨rfl, hqueue, fun hrunning => ?_⟩
    exact absurd (hr.symm.trans hrunning) (by decide)
  obtain ⟨hend, -⟩ := announceEnd_path (Routine.exec fuel) (Conduct.free_good drained) hdone
  -- the last flush leaves the history alone
  have hhistory : (run fuel m).2.history = ((announceEnd (exec fuel)).after drained).history := by
    show ((program fuel).run.run m).2.history = _
    rw [h.of_stopped hdrain hr, run_bind]
    split
    · show (lastFlush.after _).history = _
      rw [after_lastFlush]
    · rfl
  have hwhole : Path .free (m.started.control .between) _ := hpath.trans hend
  rw [hhistory]
  exact ((ends_started hm).path hwhole).endedOnce (hwhole.allAnswered (allAnswered_started hm)) rfl

/-- An interrupted run that finds another line fails with the interruption, and announces no end. -/
theorem failed_of_interrupted {fuel : Nat} {before drained found : Machine} {i : Interruption}
    (hm : m.history = []) (h : m.BeginsRound fuel before)
    (hdrain : (drain (exec fuel) fuel).run.run before = (.ok (), drained))
    (hr : drained.running = true) (hi : drained.interruption = some i)
    (hfetch : fetch.run.run drained = (.ok true, found)) :
    (run fuel m).1 = .failed (.interrupted i) ∧ endings (run fuel m).2.history = [] := by
  obtain ⟨hpath, hqueue⟩ := h.drained_path hdrain
  obtain ⟨phase, hfound, -, hpost, -⟩ := runs_fetch (c := .free) drained .between
    (Conduct.free_good _) (admits_free _) ⟨rfl, hqueue, hr⟩
  have hafter : fetch.after drained = found := congrArg Prod.snd hfetch
  rw [hafter] at hfound hpost
  have hphase : phase = .between := (hpost true (congrArg Prod.fst hfetch)).1.phase
  -- looking for the line takes the interruption with it
  have hstill : found.interruption = some i :=
    (lasting_precedes.path hfound m.sink m.sink .ended .ended).interruption i hi
  have hprogram := h.of_interrupted hdrain hr hfetch hstill
  have hnotEnded : phase ≠ .ended := by
    rw [hphase]
    decide
  have hbefore : endings found.history = [] :=
    (((ends_started hm).path hpath).path hfound).before hnotEnded
  have hnote : endings _ = endings found.history :=
    endings_note (s := found.control phase) found.sink (o := .fetched found.pointer.toNat) (by simp)
  constructor
  · rw [run_outcome, result, hprogram]
    rfl
  · show endings ((program fuel).run.run m).2.history = []
    rw [hprogram]
    exact hnote.trans hbefore

theorem endedOnce_of_ok {fuel : Nat} (hm : m.history = []) (hok : (program fuel).result m = .ok ()) :
    EndedOnce (run fuel m).2.history := by
  have hload : loadProgram.result m = .ok () := by
    cases hload : loadProgram.result m with
    | ok u => rfl
    | error e =>
        rw [(program_of_load_error fuel hload).1] at hok
        cases hok
  obtain ⟨phase, hpath, hover⟩ := program_path fuel (Conduct.free_good m) (admits_free _) hload
  exact ((ends_started hm).path hpath).endedOnce (hpath.allAnswered (allAnswered_started hm)) (hover hok)

/-- What ends a run is heeded between two lines. After a moment at which the flag is cleared or the run is
interrupted no line begins, and once the flag is cleared the feed is not asked either; a run that is
interrupted beforehand runs no line at all. A round of the loop whose jumps have been announced goes over
to the end of the run if the flag is cleared, and the end is announced once; if instead the run is
interrupted and finds a line, it fails with the interruption, and announces no end. A run that succeeds
has announced its end once, with the flag cleared and no jump left. -/
theorem run_halts (fuel : Nat) {m : Machine} (hm : m.history = []) :
    (∀ later moment past, (run fuel m).2.history = later ++ moment :: past →
      (moment.occurrence = .stopped → moment.running = false) ∧
      ∀ next ∈ later ++ [moment],
        (moment.running = false ∨ moment.interruption ≠ none → ∀ index, next.occurrence ≠ .stepped index) ∧
        (moment.running = false → ∀ view, next.occurrence ≠ .asked view)) ∧
    (m.interruption ≠ none → ∀ index, .stepped index ∉ (run fuel m).2.occurrences) ∧
    (∀ before drained, m.BeginsRound fuel before →
      (drain (exec fuel) fuel).run.run before = (.ok (), drained) →
      (drained.running = false → drained.queue = [] ∧
        (program fuel).run.run m = (announceEnd (exec fuel) >>= fun _ => lastFlush).run.run drained ∧
        EndedOnce (run fuel m).2.history) ∧
      ∀ i found, drained.running = true → drained.interruption = some i →
        fetch.run.run drained = (.ok true, found) →
        (run fuel m).1 = .failed (.interrupted i) ∧ endings (run fuel m).2.history = []) ∧
    ((program fuel).result m = .ok () → EndedOnce (run fuel m).2.history) := by
  refine ⟨?_, not_stepped_of_interrupted fuel hm, ?_, endedOnce_of_ok hm⟩
  · intro later moment past hsplit
    obtain ⟨start, phase, hstart, hpath⟩ := run_path fuel m
    have hheeds := hpath.heeds ((untouched_of_start hstart).history.trans hm)
    have hmem : moment ∈ (run fuel m).2.history := by
      rw [hsplit]
      exact List.mem_append_right _ List.mem_cons_self
    exact ⟨(hheeds moment hmem).stopped, fun next hnext => run_heeds fuel hm hsplit hnext⟩
  · intro before drained hround hdrain
    refine ⟨fun hr => ?_, fun i found hr hi hfetch => failed_of_interrupted hm hround hdrain hr hi hfetch⟩
    exact ⟨(hround.drained_path hdrain).2, hround.of_stopped hdrain hr,
      endedOnce_of_stopped hm hround hdrain hr⟩

/-- A machine whose host cancels the run when a jump is announced. -/
def canceledJumper : Machine :=
  { initial .standard with
    sources := .ofSources [.ofText "p" "goto x\nlabel x\nprint string no\n"] }.listenHost "jump" .cancel 1

/-- The line of the label is found but does not run, and the end is not announced. -/
theorem canceledJumper_fails :
    (run 9 canceledJumper).1 = .failed (.interrupted .canceled) ∧
      endings (run 9 canceledJumper).2.history = [] := by
  obtain ⟨-, -, hround, -⟩ := run_halts 9 (m := canceledJumper) rfl
  have hload : loadProgram.result canceledJumper = .ok () :=
    congrArg Prod.fst (run_of_toOption (by decide +kernel))
  -- the first round runs the jump, and the second one announces it
  have hbegins : canceledJumper.BeginsRound 9 ((round (exec 9) 9).after canceledJumper.started) :=
    ⟨hload, 1, by decide, .succ .zero (run_of_toOption (by decide +kernel))⟩
  obtain ⟨-, hinterrupted⟩ := hround _ _ hbegins (run_of_toOption (by decide +kernel))
  exact hinterrupted .canceled _ (by decide +kernel) (by decide +kernel)
    (run_of_toOption (by decide +kernel))

end Linewise
