import Linewise.Proofs.Faulting

/-!
# The line that a fault names

A fault is reported with the pointer as it is when the fault comes up (`Located`), and not with the line
that runs. The two are the same until the line moves the pointer: a jump puts it before its target, and a
failed condition moves it on, while the rest of the line, and what listens to its commands, still runs.
`fault_names_line` is about lines that do not, `fault_names_pointer` about all; `not_fault_names_line_always`
has a program whose fault is reported for a line that never ran.
-/

namespace Linewise

open Machine Linewise.Action Control

/-- A fault is out of the bounds of a tape, which names no line. -/
def OutsideTape (line : Option Int) (fault : Fault) : Prop :=
  line = none ∧ ∃ error, fault = .outOfBounds error

/-! ## Faults of actions -/

/-- An action that fails over a fault at the pointer, if it does. -/
abbrev Located {α : Type} (x : Action α) : Prop :=
  Faults (fun line fault m => OutsideTape line fault ∨ line = some m.pointer) x

namespace Located

variable {α : Type}

theorem fail (fault : Fault) : Located (fail fault : Action α) := by
  intro m line fault' h
  rw [result_fail] at h
  cases h
  rw [after_fail]
  exact .inr rfl

theorem outOfBounds (error : TapeError Number) :
    Located (Machine.halt (.fatal none (.outOfBounds error)) : Action α) := by
  intro m line fault h
  rw [result_halt] at h
  cases h
  exact .inl ⟨rfl, error, rfl⟩

end Located

theorem lifts_located : Lifts .free (fun _ x => Located x) fun _ => True where
  pure := .pure
  bind_of_result hx hf := hx.bind_of_result fun m a hr => hf m a (Conduct.free_good m) hr
  look _ h := .look fun m => h m (Conduct.free_holds fun _ _ => trivial)
  throw h := .throw fun ⟨_, _, he⟩ => h _ he
  halt := .halt
  fail := .fail
  outOfBounds := .outOfBounds
  note := .note
  indented := .indented fun _ _ _ _ => id
  record _ := .record _
  write := .write
  change _ := .modifyGet _
  turn _ := .turnToFeed _
  rest _ _ := trivial

theorem located_program (fuel : Nat) : Located (program fuel) := by
  rw [program_eq]
  refine (lifts_located.unflushed fuel).bind fun _ => Faults.flush.bind fun e => ?_
  split
  · exact .throw nofun
  · exact .pure ()

/-! ## The line that runs -/

/-- Whether an occurrence moves the pointer while a line runs. -/
def Occurrence.moves : Occurrence → Bool
  | .jumped _ _ | .skipped => true
  | _ => false

/-- The line that runs at the end of a history, and what has occurred since it was fetched, the latest
first. None runs once a jump has been announced, the feed has been asked, or the end is reached. -/
def sinceFetched : List Occurrence → Option (Nat × List Occurrence)
  | [] => none
  | o :: past =>
    match o with
    | .fetched index => some (index, [])
    | .announced _ | .asked _ | .ended => none
    | o => (sinceFetched past).map fun (index, since) => (index, o :: since)

/-- Where a line has moved the pointer. -/
def movedFrom (index : Nat) : List Occurrence → Int
  | [] => index
  | .jumped _ target :: _ => target - 1
  | .skipped :: past => movedFrom index past + 1
  | _ :: past => movedFrom index past

/-- A line that does not move the pointer leaves it at itself. -/
theorem movedFrom_of_still {index : Nat} {since : List Occurrence} (h : ∀ o ∈ since, o.moves = false) :
    movedFrom index since = index := by
  induction since with
  | nil => rfl
  | cons o since ih =>
      obtain ⟨ho, hsince⟩ := List.forall_mem_cons.mp h
      have hrest := ih hsince
      cases o with
      | jumped | skipped => cases ho
      | _ => exact hrest

namespace Control

variable {c : Conduct} {s t : Control}

/-- What has occurred, the latest first. -/
def occurred (s : Control) : List Occurrence := s.history.map Moment.occurrence

/-- While a line runs, the pointer is where the line has moved it. -/
structure Standing (s : Control) : Prop where
  stepping : s.phase = .stepping → ∃ index since,
    sinceFetched s.occurred = some (index, since) ∧ s.pointer = movedFrom index since
  announcing : s.phase = .announcing → sinceFetched s.occurred = none
  ended : s.phase = .ended → sinceFetched s.occurred = none

/-- An occurrence of a command, with the pointer moved as it says. -/
theorem Standing.note (hs : s.Standing) {sink : Sink} {o : Occurrence} (pointer : Int)
    (running : Bool) (queue : List Nat)
    (hsince : sinceFetched (o :: s.occurred)
      = (sinceFetched s.occurred).map fun (index, since) => (index, o :: since))
    (hmoved : ∀ index since, s.pointer = movedFrom index since → pointer = movedFrom index (o :: since)) :
    ({ s with pointer, running, queue }.note sink o).Standing where
  stepping hp := by
    obtain ⟨index, since, hrunning, hpointer⟩ := hs.stepping hp
    refine ⟨index, o :: since, ?_, hmoved index since hpointer⟩
    show sinceFetched (o :: s.occurred) = _
    rw [hsince, hrunning]
    rfl
  announcing hp := by
    show sinceFetched (o :: s.occurred) = _
    rw [hsince, hs.announcing hp]
    rfl
  ended hp := by
    show sinceFetched (o :: s.occurred) = _
    rw [hsince, hs.ended hp]
    rfl

/-- Between two lines nothing is said about the pointer. -/
theorem standing_between (h : s.phase = .between) : s.Standing := by
  refine ⟨fun hp => ?_, fun hp => ?_, fun hp => ?_⟩ <;>
  · rw [h] at hp
    cases hp

theorem Standing.move (hs : s.Standing) (hm : Move c s t) : t.Standing := by
  cases hm with
  | note o hp ho =>
      refine hs.note s.pointer s.running s.queue ?_ ?_
      · cases o with
        | fetched | announced | asked | ended => exact ho.elim
        | _ => rfl
      · cases o with
        | jumped | skipped => exact ho.elim
        | _ => exact fun _ _ h => h
  | jump label target hp hc hl => exact hs.note _ _ _ rfl fun _ _ _ => rfl
  | skip hp hc => exact hs.note _ _ _ rfl fun _ _ h => congrArg (· + 1) h
  | stop hp hc => exact hs.note _ _ _ rfl fun _ _ h => h
  | listen | interrupt => exact ⟨hs.stepping, hs.announcing, hs.ended⟩
  | step hp => exact hs.note _ _ _ rfl fun _ _ h => h
  | announce target rest hp hq => exact standing_between hp
  | call target rest listeners hp hq hl => exact ⟨nofun, fun _ => rfl, nofun⟩
  | settle hp => exact standing_between rfl
  | ask view h | grow feed text rest location h hf hl | close feed h hf hl => exact standing_between h.phase
  | fetch hp hq hr h0 h1 =>
      refine ⟨fun _ => ⟨s.pointer.toNat, [], rfl, ?_⟩, nofun, nofun⟩
      exact (Int.toNat_of_nonneg h0).symm
  | advance hp => exact standing_between rfl
  | finish h => exact ⟨nofun, nofun, fun _ => rfl⟩
  | conclude listeners h => exact ⟨nofun, nofun, fun _ => rfl⟩

theorem Standing.path (hs : s.Standing) (h : Path c s t) : t.Standing := by
  induction h with
  | refl => exact hs
  | tail _ hm ih => exact ih.move hm

end Control

/-! ## The run -/

/-- A fault that comes up while a line runs names the place where the line has moved the pointer. -/
theorem fault_names_pointer (hm : m.Unstarted) (hfail : (run fuel m).1 = .failed (.fatal line fault))
    (hrunning : sinceFetched ((run fuel m).2.history.map Moment.occurrence) = some (index, since)) :
    OutsideTape line fault ∨ line = some (movedFrom index since) := by
  have hresult := result_of_fatal hfail
  cases hload : loadProgram.result m with
  | error e =>
      -- nothing has been fetched if the program cannot be loaded
      have hhistory : (run fuel m).2.history = m.history := by
        show ((program fuel).after m).history = _
        rw [(program_of_load_error fuel hload).2]
        exact (untouched_of_start (.inl rfl)).history
      rw [hhistory, hm.history] at hrunning
      cases hrunning
  | ok u =>
      obtain ⟨phase, hpath, -, hfatal⟩ :=
        program_runs fuel (Conduct.free_good m) (admits_free _) hload
      have hstanding := (standing_between (s := m.started.control .between) rfl).path hpath
      have hphase : phase = .stepping := by
        cases phase with
        | between => exact absurd rfl (hfatal _ hresult ⟨line, fault, rfl⟩)
        | announcing => exact absurd (hrunning.symm.trans (hstanding.announcing rfl)) nofun
        | stepping => rfl
        | ended => exact absurd (hrunning.symm.trans (hstanding.ended rfl)) nofun
      subst hphase
      obtain ⟨index', since', hrunning', hpointer⟩ := hstanding.stepping rfl
      obtain ⟨rfl, rfl⟩ : index = index' ∧ since = since' := by
        simpa using hrunning.symm.trans hrunning'
      have hlocated : OutsideTape line fault ∨ line = some ((program fuel).after m).pointer :=
        located_program fuel m line fault hresult
      rw [show ((program fuel).after m).pointer = _ from hpointer] at hlocated
      exact hlocated

/-- A fault that comes up while a line runs, at any depth of its commands or in what listens to them,
names that line, unless the line has moved the pointer before. -/
theorem fault_names_line (hm : m.Unstarted) (hfail : (run fuel m).1 = .failed (.fatal line fault))
    (hrunning : sinceFetched ((run fuel m).2.history.map Moment.occurrence) = some (index, since))
    (hstill : ∀ o ∈ since, o.moves = false) : OutsideTape line fault ∨ line = some (index : Int) := by
  have hpointer := fault_names_pointer hm hfail hrunning
  rw [movedFrom_of_still hstill] at hpointer
  exact hpointer

/-- A machine with a program that fails in what listens to a nested command of its second line. -/
def failingListener : Machine :=
  { initial .standard with
    sources := .ofSources [.ofText "p" "on rem eval exec -- get f\nput exec -- eval rem\n"] }

theorem failingListener_names_line :
    ∃ line, (run 9 failingListener).1 = .failed (.fatal line (.notExecutable "undefined")) ∧
      line = some 1 := by
  let occurred := (run 9 failingListener).2.history.map Moment.occurrence
  have hfail : (run 9 failingListener).1 = .failed (.fatal (some 1) (.notExecutable "undefined")) := by
    decide +kernel
  have hrunning : sinceFetched occurred = some (1, occurred.take 9) := by decide +kernel
  rcases fault_names_line ⟨rfl, rfl, rfl, rfl⟩ hfail hrunning (by decide +kernel) with htape | hline
  · cases htape.1
  · exact ⟨some 1, hfail, hline⟩

/-- A machine with a program that jumps, and then fails in the same line. -/
def failingJumper : Machine :=
  { initial .standard with
    sources := .ofSources [.ofText "p" "exec goto a\nrem\nlabel a\n"] }

/-- Not every fault names the line that runs: this one names the line before the target of the jump. -/
theorem not_fault_names_line_always :
    ¬ ∀ (fuel : Nat) (m : Machine), m.Unstarted → ∀ (line : Option Int) (fault : Fault) (index : Nat)
      (since : List Occurrence), (run fuel m).1 = .failed (.fatal line fault) →
      sinceFetched ((run fuel m).2.history.map Moment.occurrence) = some (index, since) →
      OutsideTape line fault ∨ line = some (index : Int) := by
  intro h
  let occurred := (run 9 failingJumper).2.history.map Moment.occurrence
  have hfail : (run 9 failingJumper).1 = .failed (.fatal (some 1) (.notExecutable "undefined")) := by
    decide +kernel
  have hrunning : sinceFetched occurred = some (0, occurred.take 4) := by decide +kernel
  rcases h 9 failingJumper ⟨rfl, rfl, rfl, rfl⟩ (some 1) _ 0 _ hfail hrunning with htape | hline
  · cases htape.1
  · cases hline

end Linewise
