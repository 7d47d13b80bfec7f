import Linewise.Proofs.Change

/-!
# The control of a run

Which line comes next is decided by a small part of the machine: the program, the pointer, the running
flag and the queued jumps. Here it stands on its own, with the history and the phase of the loop, as a
transition system whose moves are the ways in which a run can change it. `Routine.path` says that a
command follows the moves of commands; the loop is in `Proofs.Loop`. What is claimed about the order of
lines and jumps is then an invariant of the moves. One such invariant is here: whatever is announced is
followed by a call of its listeners, if there are any (`Path.allAnswered`).
-/

namespace Linewise

open Machine Linewise.Action

/-- Where the loop of a run is. -/
inductive Phase where
  /-- Between two lines: queued jumps are announced, or the next line is looked for. -/
  | between
  /-- The listeners of a jump run. -/
  | announcing
  /-- A line runs. -/
  | stepping
  /-- The loop has ended. -/
  | ended
deriving DecidableEq, Repr

/-- What decides which line comes next, what is left of the sources, and what the history tells of. -/
structure Control where
  phase : Phase
  sources : SourceReader
  feed : Option Feed
  lines : Array Line
  labels : Dict Nat
  pointer : Int
  running : Bool
  queue : List Nat
  listeners : Dict (List Executable)
  interruption : Option Interruption
  history : List Moment

/-- The control of a machine in a phase. -/
def Machine.control (m : Machine) (phase : Phase) : Control :=
  ⟨phase, m.sources, m.feed, m.lines, m.labels, m.pointer, m.running, m.queue, m.listeners,
    m.interruption, m.history⟩

/-- The tokens of the lines that a machine has, and of those that its feed still holds. -/
def Machine.script (m : Machine) : List (List Text) :=
  m.lines.toList.map Line.tokens ++ m.feed.elim [] fun feed => feed.lines.map Text.words

namespace Control

/-- An occurrence as the history tells of it. The output is no part of the control, and can be any. -/
def snapshot (s : Control) (sink : Sink) (o : Occurrence) : Moment :=
  ⟨o, s.pointer, s.running, s.queue, s.lines.size, s.labels, s.listeners, s.interruption, sink⟩

/-- Puts an occurrence into the history. -/
def note (s : Control) (sink : Sink) (o : Occurrence) : Control :=
  { s with history := s.snapshot sink o :: s.history }

def addLine (s : Control) (location : Location) (text : Text) : Control :=
  let line : Line := ⟨location, text.words⟩
  { s with
    labels := match line.label? with
      | some name => s.labels.insert name s.lines.size
      | none => s.labels
    lines := s.lines.push line }

def listen (s : Control) (event : Text) (ex : Executable) : Control :=
  { s with listeners := s.listeners.insert event ((s.listeners.get? event).getD [] ++ [ex]) }

/-- Nobody listens to an event. -/
def Unheard (s : Control) (event : Text) : Prop :=
  s.listeners.get? event = none ∨ s.listeners.get? event = some []

/-- There are listeners of an event. -/
def Heard (s : Control) (event : Text) (listeners : List Executable) : Prop :=
  s.listeners.get? event = some listeners ∧ listeners ≠ []

theorem unheard_or_heard (s : Control) (event : Text) :
    s.Unheard event ∨ ∃ listeners, s.Heard event listeners := by
  cases hget : s.listeners.get? event with
  | none => exact .inl (.inl hget)
  | some exs =>
      cases exs with
      | nil => exact .inl (.inr hget)
      | cons ex exs => exact .inr ⟨ex :: exs, hget, List.cons_ne_nil ex exs⟩

/-- A line is wanted that the program does not have. -/
structure Wants (s : Control) : Prop where
  phase : s.phase = .between
  queue : s.queue = []
  running : s.running = true
  pointer : s.lines.size ≤ s.pointer

/-- The loop has nothing left to do: no jump is queued, and a run that was not told to stop has no line
left. -/
structure Done (s : Control) : Prop where
  phase : s.phase = .between
  queue : s.queue = []
  exhausted : s.running = true → s.pointer < 0 ∨ (s.lines.size ≤ s.pointer ∧ s.feed = none)

/-- The moves of the control. Those that belong to commands are limited by a conduct. -/
inductive Move (c : Conduct) : Control → Control → Prop
  | note {s : Control} {sink : Sink} (o : Occurrence) (hp : s.phase ≠ .between) (ho : c.Records o) :
      Move c s (s.note sink o)
  | jump {s : Control} {sink : Sink} (label : Text) (target : Nat) (hp : s.phase ≠ .between)
      (hc : c.builtin .goto) (hl : s.labels.get? label = some target) :
      Move c s ({ s with pointer := (target : Int) - 1, queue := s.queue ++ [target] }.note sink
        (.jumped label target))
  | skip {s : Control} {sink : Sink} (hp : s.phase ≠ .between) (hc : c.builtin .branch) :
      Move c s ({ s with pointer := s.pointer + 1 }.note sink .skipped)
  | stop {s : Control} {sink : Sink} (hp : s.phase ≠ .between) (hc : c.builtin .exit ∨ c.listening) :
      Move c s ({ s with running := false }.note sink .stopped)
  | listen {s : Control} (event : Text) (ex : Executable) (hp : s.phase ≠ .between)
      (hc : c.listening) : Move c s (s.listen event ex)
  | interrupt {s : Control} (i : Interruption) (hp : s.phase ≠ .between) (hi : s.interruption = none) :
      Move c s { s with interruption := some i }
  /-- A jump is taken from the queue, and nobody listens. -/
  | announce {s : Control} {sink : Sink} (target : Nat) (rest : List Nat) (hp : s.phase = .between)
      (hq : s.queue = target :: rest) (hl : s.Unheard "jump") :
      Move c s ({ s with queue := rest }.note sink (.announced target))
  /-- A jump is taken from the queue, and its listeners are called with its target. -/
  | call {s : Control} {sink : Sink} (target : Nat) (rest : List Nat) (listeners : List Executable)
      (hp : s.phase = .between) (hq : s.queue = target :: rest) (hl : s.Heard "jump" listeners)
      (hc : c.listening) :
      Move c s { ({ s with queue := rest }.note sink (.announced target)).note sink
        (.triggered "jump" [(Number.ofNat target).text] listeners) with phase := .announcing }
  | settle {s : Control} (hp : s.phase = .announcing) : Move c s { s with phase := .between }
  | ask {s : Control} {sink : Sink} (view : Option (Int × Text × Text)) (h : s.Wants) :
      Move c s (s.note sink (.asked view))
  | grow {s : Control} (feed : Feed) (text : Text) (rest : List Text) (location : Location)
      (h : s.Wants) (hf : s.feed = some feed) (hl : feed.lines = text :: rest) :
      Move c s { s.addLine location text with feed := some { feed with lines := rest } }
  | close {s : Control} (feed : Feed) (h : s.Wants) (hf : s.feed = some feed) (hl : feed.lines = []) :
      Move c s { s with feed := none }
  | fetch {s : Control} {sink : Sink} (hp : s.phase = .between) (hq : s.queue = [])
      (hr : s.running = true) (h0 : 0 ≤ s.pointer) (h1 : s.pointer < s.lines.size) :
      Move c s { s.note sink (.fetched s.pointer.toNat) with phase := .stepping }
  | step {s : Control} {sink : Sink} (hp : s.phase = .stepping) (hr : s.running = true)
      (hi : s.interruption = none) : Move c s (s.note sink (.stepped s.pointer.toNat))
  | advance {s : Control} (hp : s.phase = .stepping) :
      Move c s { s with pointer := s.pointer + 1, phase := .between }
  /-- The end is announced, and nobody listens. -/
  | finish {s : Control} {sink : Sink} (h : s.Done) (hl : s.Unheard "end") :
      Move c s { { s with running := false }.note sink .ended with phase := .ended }
  /-- The end is announced, and its listeners are called. -/
  | conclude {s : Control} {sink : Sink} (listeners : List Executable) (h : s.Done)
      (hl : s.Heard "end" listeners) :
      Move c s { ({ s with running := false }.note sink .ended).note sink
        (.triggered "end" [] listeners) with phase := .ended }

/-- A sequence of moves. -/
abbrev Path (c : Conduct) : Control → Control → Prop := Relation.ReflTransGen (Move c)

end Control

open Control

/-- A quiet change can be noticed only if it interrupts the run. -/
theorem Machine.Quiet.path {c : Conduct} {α : Type} {f : Machine → α × Machine} (hf : Quiet f)
    {m : Machine} {phase : Phase} (hp : phase ≠ .between) :
    Path c (m.control phase) ((f m).2.control phase) := by
  have hstays := hf.interruption m
  obtain ⟨_, _, _, _, _, interruption, h⟩ := hf.frame m
  rw [h] at hstays ⊢
  cases hm : m.interruption with
  | some i =>
      have hi : interruption = some i := hstays i hm
      rw [hi, ← hm]
      exact .refl
  | none =>
      cases interruption with
      | none =>
          rw [← hm]
          exact .refl
      | some i => exact .single (.interrupt (s := m.control phase) i hp hm)

/-- What a command changes in the control is a move of a command. -/
theorem Change.path {c : Conduct} {m m' : Machine} (h : Change c m m') {phase : Phase}
    (hp : phase ≠ .between) : Path c (m.control phase) (m'.control phase) := by
  cases h with
  | record o ho _ => exact .single (.note (s := m.control phase) o hp ho)
  | nest ref h _ => exact .single (.note (s := m.control phase) _ hp h)
  | define name h _ => exact .single (.note (s := m.control phase) _ hp h)
  | synonym name h _ _ => exact .single (.note (s := m.control phase) _ hp h)
  | stop hc => exact .single (.stop (s := m.control phase) hp hc)
  | jump label target hc hl => exact .single (.jump (s := m.control phase) label target hp hc hl)
  | skip hc => exact .single (.skip (s := m.control phase) hp hc)
  | listen event hl _ => exact .single (.listen (s := m.control phase) event _ hp hl)
  | @quiet _ f hf => exact hf.path hp
  | _ => exact .refl

theorem Changes.path {c : Conduct} {m m' : Machine} (h : Changes c m m') {phase : Phase}
    (hp : phase ≠ .between) : Path c (m.control phase) (m'.control phase) := by
  induction h with
  | refl => exact .refl
  | tail _ hm ih => exact ih.trans (hm.path hp)

/-- A command changes the control by the moves of commands only, whether it has a result or stops. -/
theorem Routine.path {c : Conduct} {α : Type} {x : Action α} {post : α → Prop} (h : Routine c x post)
    (m : Machine) (good : c.Good m) (phase : Phase) (hp : phase ≠ .between) :
    Path c (m.control phase) ((x.after m).control phase) :=
  (h.spec m good).1.path hp

/-! ## Histories -/

namespace Control

variable {c : Conduct} {s t : Control}

/-- What may occur in a run, by its flag, its interruption and its labels. -/
def Allows (s : Control) : Occurrence → Prop
  | .stepped _ => s.running = true ∧ s.interruption = none
  | .jumped label target => s.labels.get? label = some target
  | .asked _ => s.running = true
  | .stopped => s.running = false
  | _ => True

theorem allows_of_records {o : Occurrence} (h : c.Records o) : s.Allows o := by
  cases o with
  | stepped | jumped | asked | stopped => exact h.elim
  | _ => trivial

/-- A moment tells of a control: something that was allowed, with the control as it was. -/
def Tells (s : Control) (moment : Moment) : Prop :=
  ∃ sink o, moment = s.snapshot sink o ∧ s.Allows o

/-- What a move records tells of the control that it leaves. -/
theorem Move.recorded (hm : Move c s t) :
    ∃ new : List Moment, t.history = new ++ s.history ∧ ∀ moment ∈ new, t.Tells moment := by
  have hone : ∀ {sink o}, t.Allows o → ∀ moment ∈ [t.snapshot sink o], t.Tells moment :=
    fun h => List.forall_mem_singleton.mpr ⟨_, _, rfl, h⟩
  have hcalled : ∀ {sink o event args listeners}, t.Allows o → ∀ moment ∈
      [t.snapshot sink (.triggered event args listeners), t.snapshot sink o], t.Tells moment :=
    fun h => List.forall_mem_cons.mpr ⟨⟨_, _, rfl, trivial⟩, hone h⟩
  cases hm with
  | note o hp ho => exact ⟨_, rfl, hone (allows_of_records ho)⟩
  | jump label target _ _ hl => exact ⟨_, rfl, hone (o := .jumped label target) hl⟩
  | skip => exact ⟨_, rfl, hone (o := .skipped) trivial⟩
  | stop => exact ⟨_, rfl, hone (o := .stopped) rfl⟩
  | announce target => exact ⟨_, rfl, hone (o := .announced target) trivial⟩
  | call target => exact ⟨_, rfl, hcalled (o := .announced target) trivial⟩
  | ask view h => exact ⟨_, rfl, hone (o := .asked view) h.running⟩
  | fetch => exact ⟨_, rfl, hone (o := .fetched s.pointer.toNat) trivial⟩
  | step hp hr hi => exact ⟨_, rfl, hone (o := .stepped s.pointer.toNat) ⟨hr, hi⟩⟩
  | finish => exact ⟨_, rfl, hone (o := .ended) trivial⟩
  | conclude => exact ⟨_, rfl, hcalled (o := .ended) trivial⟩
  | listen | interrupt | settle | grow | close | advance => exact ⟨[], rfl, by simp⟩

/-- Everything in a history tells of a control on the way. -/
theorem Path.told (h : Path c s t) (hs : s.history = []) :
    ∀ moment ∈ t.history, ∃ u : Control, u.Tells moment := by
  induction h with
  | refl => simp [hs]
  | @tail _ u _ hm ih =>
      obtain ⟨new, hnew, htells⟩ := hm.recorded
      rw [hnew]
      intro moment hmoment
      rcases List.mem_append.mp hmoment with hmem | hmem
      · exact ⟨u, htells moment hmem⟩
      · exact ih moment hmem

/-- A relation between earlier and later moments that moves keep to, whatever the output is. -/
structure Lasting (c : Conduct) (R : Moment → Moment → Prop) : Prop where
  same : ∀ (s : Control) sink sink' o o', R (s.snapshot sink o) (s.snapshot sink' o')
  trans : ∀ {first second third}, R first second → R second third → R first third
  move : ∀ {s t : Control}, Move c s t → ∀ sink sink' o, R (s.snapshot sink o) (t.snapshot sink' o)

variable {R : Moment → Moment → Prop}

theorem Lasting.path (hR : Lasting c R) (h : Path c s t) (sink sink' : Sink) (o o' : Occurrence) :
    R (s.snapshot sink o) (t.snapshot sink' o') := by
  induction h with
  | refl => exact hR.same s sink sink' o o'
  | tail _ hm ih => exact hR.trans ih ((hR.trans (hR.same _ _ sink _ _) (hR.move hm sink sink' o')))

/-- A history in order, from a first control to the present one. -/
structure Ordered (R : Moment → Moment → Prop) (first s : Control) : Prop where
  pairwise : s.history.Pairwise fun moment earlier => R earlier moment
  since : ∀ moment ∈ s.history, ∀ sink o, R (first.snapshot sink o) moment
  now : ∀ moment ∈ s.history, ∀ sink o, R moment (s.snapshot sink o)

theorem Path.ordered (h : Path c s t) (hR : Lasting c R) (hs : s.history = []) : Ordered R s t := by
  induction h with
  | refl =>
      refine ⟨?_, ?_, ?_⟩
      · simp [hs]
      · simp [hs]
      · simp [hs]
  | @tail _ u hpath hm ih =>
      obtain ⟨new, hnew, htells⟩ := hm.recorded
      have hnow : ∀ moment ∈ _, ∀ sink o, R moment (u.snapshot sink o) := fun moment hmoment sink o =>
        hR.trans (ih.now moment hmoment sink o) (hR.move hm sink sink o)
      have hnew_now : ∀ moment ∈ new, ∀ sink o, R moment (u.snapshot sink o) := by
        intro moment hmoment sink o
        obtain ⟨sink', o', rfl, -⟩ := htells moment hmoment
        exact hR.same u sink' sink o' o
      refine ⟨?_, ?_, ?_⟩
      · rw [hnew, List.pairwise_append]
        refine ⟨List.pairwise_of_forall_mem_list ?_, ih.pairwise, ?_⟩
        · intro moment hmoment earlier hearlier
          obtain ⟨sink, o, rfl, -⟩ := htells moment hmoment
          exact hnew_now earlier hearlier sink o
        · intro moment hmoment earlier hearlier
          obtain ⟨sink, o, rfl, -⟩ := htells moment hmoment
          exact hnow earlier hearlier sink o
      · rw [hnew]
        intro moment hmoment sink o
        rcases List.mem_append.mp hmoment with hmem | hmem
        · obtain ⟨sink', o', rfl, -⟩ := htells moment hmem
          exact hR.path (hpath.tail hm) sink sink' o o'
        · exact ih.since moment hmem sink o
      · rw [hnew]
        intro moment hmoment sink o
        rcases List.mem_append.mp hmoment with hmem | hmem
        · exact hnew_now moment hmem sink o
        · exact hnow moment hmem sink o

end Control

/-! ## Announcements -/

/-- The event whose listeners are to be called at an occurrence, and the arguments they are given. -/
def Occurrence.calls? : Occurrence → Option (Text × List Text)
  | .announced target => some ("jump", [(Number.ofNat target).text])
  | .ended => some ("end", [])
  | _ => none

/-- If somebody listens to what a moment announces, the next thing that happens is that all listeners are
called. -/
def Moment.Answered (moment : Moment) (later : List Moment) : Prop :=
  ∀ event args listeners, moment.occurrence.calls? = some (event, args) →
    moment.listeners.get? event = some listeners → listeners ≠ [] →
    ∃ rest call, later = rest ++ [call] ∧ call.occurrence = .triggered event args listeners

/-- Every announcement of a history is answered in it. -/
def AllAnswered (history : List Moment) : Prop :=
  ∀ later moment past, history = later ++ moment :: past → moment.Answered later

/-- What is recorded after the answer takes nothing away from it. -/
theorem Moment.Answered.cons {moment : Moment} {later : List Moment} (h : moment.Answered later)
    (next : Moment) : moment.Answered (next :: later) := by
  intro event args listeners hcalls hget hne
  obtain ⟨rest, call, rfl, hcall⟩ := h event args listeners hcalls hget hne
  exact ⟨next :: rest, call, rfl, hcall⟩

/-- A moment that announces nothing needs no answer. -/
theorem Moment.answered_of_silent {moment : Moment} (h : moment.occurrence.calls? = none)
    (later : List Moment) : moment.Answered later := by
  intro event args listeners hcalls
  cases h.symm.trans hcalls

theorem allAnswered_nil : AllAnswered [] := by
  intro later moment past h
  simp at h

namespace AllAnswered

variable {history : List Moment} {moment call : Moment}

theorem cons (h : AllAnswered history) (hm : moment.Answered []) : AllAnswered (moment :: history) := by
  intro later other past hsplit
  cases later with
  | nil =>
      obtain ⟨rfl, -⟩ : moment = other ∧ history = past := List.cons.inj hsplit
      exact hm
  | cons next later =>
      obtain ⟨rfl, hpast⟩ : moment = next ∧ history = later ++ other :: past := List.cons.inj hsplit
      exact (h later other past hpast).cons moment

/-- An announcement can be recorded together with what answers it. -/
theorem pair (h : AllAnswered history) (hm : moment.Answered [call]) (hc : call.Answered []) :
    AllAnswered (call :: moment :: history) := by
  intro later other past hsplit
  rcases later with _ | ⟨next, _ | ⟨told, later⟩⟩
  · obtain ⟨rfl, -⟩ : call = other ∧ _ = past := List.cons.inj hsplit
    exact hc
  · obtain ⟨rfl, hrest⟩ : call = next ∧ _ = other :: past := List.cons.inj hsplit
    obtain ⟨rfl, -⟩ := List.cons.inj hrest
    exact hm
  · obtain ⟨-, hrest⟩ : call = next ∧ _ = told :: (later ++ other :: past) := List.cons.inj hsplit
    obtain ⟨-, hpast⟩ := List.cons.inj hrest
    exact ((h later other past hpast).cons told).cons next

end AllAnswered

namespace Control

variable {c : Conduct} {s t : Control} {o : Occurrence} {sink : Sink} {event : Text} {args : List Text}

theorem calls?_of_records (h : c.Records o) : o.calls? = none := by
  cases o with
  | announced | ended => exact h.elim
  | _ => rfl

/-- An announcement that nobody listens to needs no answer. -/
theorem answered_of_unheard (ho : o.calls? = some (event, args)) (hl : s.Unheard event)
    (later : List Moment) : (s.snapshot sink o).Answered later := by
  intro event' args' listeners hcalls hget hne
  cases ho.symm.trans hcalls
  have hget : s.listeners.get? event = some listeners := hget
  rcases hl with hnone | hempty
  · cases hnone.symm.trans hget
  · cases hempty.symm.trans hget
    exact absurd rfl hne

/-- An announcement is answered by a call of those who listen. -/
theorem answered_of_heard {listeners : List Executable} (ho : o.calls? = some (event, args))
    (hl : s.Heard event listeners) (t : Control) :
    (s.snapshot sink o).Answered [t.snapshot sink (.triggered event args listeners)] := by
  intro event' args' listeners' hcalls hget _
  cases ho.symm.trans hcalls
  cases hl.1.symm.trans hget
  exact ⟨[], _, rfl, rfl⟩

/-- Every move that announces something calls those who listen to it. -/
theorem Move.allAnswered (hm : Move c s t) (hs : AllAnswered s.history) : AllAnswered t.history := by
  cases hm with
  | note o hp ho => exact hs.cons (Moment.answered_of_silent (calls?_of_records ho) [])
  | jump | skip | stop | ask | fetch | step => exact hs.cons (Moment.answered_of_silent rfl [])
  | announce target rest hp hq hl =>
      exact hs.cons (answered_of_unheard (s := { s with queue := rest }) rfl hl [])
  | call target rest listeners hp hq hl =>
      exact hs.pair (answered_of_heard (s := { s with queue := rest }) rfl hl _)
        (Moment.answered_of_silent rfl [])
  | finish h hl => exact hs.cons (answered_of_unheard (s := { s with running := false }) rfl hl [])
  | conclude listeners h hl =>
      exact hs.pair (answered_of_heard (s := { s with running := false }) rfl hl _)
        (Moment.answered_of_silent rfl [])
  | listen | interrupt | settle | grow | close | advance => exact hs

theorem Path.allAnswered (h : Path c s t) (hs : AllAnswered s.history) : AllAnswered t.history := by
  induction h with
  | refl => exact hs
  | tail _ hm ih => exact hm.allAnswered ih

end Control

end Linewise
