import Linewise.Proofs.Control

/-!
# The loop as a path

The loop of a run follows the moves of the control: announcing queued jumps, looking for the next line,
running it, and announcing the end (`runs_drain`, `runs_fetch`, `runs_step`, `runs_round`, `runs_cycle`,
`runs_announceEnd`). `program_path` puts them together: after the program has been loaded, a run of any
length and with any outcome is a path of moves, and it is over when the run has succeeded.
-/

namespace Linewise

open Machine Linewise.Action Control

namespace Control

variable {c : Conduct}

/-- The tokens of the lines that are there, and of those that the feed still holds. -/
def script (s : Control) : List (List Text) :=
  s.lines.toList.map Line.tokens ++ s.feed.elim [] fun feed => feed.lines.map Text.words

/-- No move changes the script: lines only pass from the feed to the program. -/
theorem Move.script_eq {s t : Control} (h : Move c s t) : t.script = s.script := by
  cases h with
  | grow feed text rest location hw hf hl =>
      simp [script, addLine, hf, hl]
  | close feed hw hf hl => simp [script, hf, hl]
  | _ => rfl

theorem Path.script_eq {s t : Control} (h : Path c s t) : t.script = s.script := by
  induction h with
  | refl => rfl
  | tail _ hm ih => rw [hm.script_eq, ih]

end Control

/-- Every token of a script is permitted. -/
def Conduct.Admits (c : Conduct) (script : List (List Text)) : Prop :=
  ∀ tokens ∈ script, ∀ t ∈ tokens, c.token t

/-- The tokens of a line of the program are permitted if those of the script are. -/
theorem Conduct.Admits.of_line {c : Conduct} {m : Machine} (h : c.Admits m.script) {index : Nat}
    {line : Line} (hline : m.lines[index]? = some line) : ∀ t ∈ line.tokens, c.token t := by
  refine h line.tokens (List.mem_append_left _ (List.mem_map_of_mem ?_))
  exact Array.mem_toList_iff.mpr (Array.mem_of_getElem? hline)

variable {c : Conduct} {α β : Type}

/-- Stopping with a fault of the program. -/
def Stop.Fatal (e : Stop) : Prop := ∃ line fault, e = .halted (.fatal line fault)

/-- On a machine that is good and whose script is admitted, an action follows the moves of the control
from `pre` to `post`. If the action stops, the path may end in any phase, but a fault is one of a command
and does not come up between two lines. -/
def Runs (c : Conduct) (x : Action α) (pre : Control → Prop) (post : α → Control → Prop) : Prop :=
  ∀ m phase, c.Good m → c.Admits m.script → pre (m.control phase) →
    ∃ phase', Path c (m.control phase) ((x.after m).control phase') ∧ c.Good (x.after m) ∧
      (∀ a, x.result m = .ok a → post a ((x.after m).control phase')) ∧
      ∀ e, x.result m = .error e → e.Fatal → phase' ≠ .between

namespace Runs

variable {x : Action α} {f : α → Action β} {pre : Control → Prop}

theorem bind {mid : α → Control → Prop} {post : β → Control → Prop} (hx : Runs c x pre mid)
    (hf : ∀ a, Runs c (f a) (mid a) post) : Runs c (x >>= f) pre post := by
  intro m phase good admitted hpre
  obtain ⟨phase', hpath, hgood, hmid, hfatal⟩ := hx m phase good admitted hpre
  cases hr : x.result m with
  | error e =>
      rw [after_bind_error hr, result_bind_error hr]
      refine ⟨phase', hpath, hgood, nofun, ?_⟩
      rintro _ ⟨⟩
      exact hfatal e hr
  | ok a =>
      rw [after_bind_ok hr, result_bind_ok hr]
      have hadmitted : c.Admits (x.after m).script := by
        have hscript : (x.after m).script = m.script := hpath.script_eq
        rw [hscript]
        exact admitted
      obtain ⟨phase'', hpath', hgood', hend⟩ := hf a _ phase' hgood hadmitted (hmid a hr)
      exact ⟨phase'', hpath.trans hpath', hgood', hend⟩

theorem pure {a : α} {post : α → Control → Prop} (h : ∀ s, pre s → post a s) :
    Runs c (pure a) pre post :=
  fun _ phase good _ hpre => ⟨phase, .refl, good, fun b hb => by cases hb; exact h _ hpre, nofun⟩

theorem throw {e : Stop} {post : α → Control → Prop} (h : ¬ e.Fatal := by nofun) :
    Runs c (throw e) pre post := by
  intro _ phase good _ _
  refine ⟨phase, .refl, good, nofun, ?_⟩
  rintro _ ⟨⟩ hfatal
  exact absurd hfatal h

theorem mono {pre' : Control → Prop} {post post' : α → Control → Prop} (hx : Runs c x pre post)
    (hpre : ∀ s, pre' s → pre s) (hpost : ∀ a s, post a s → post' a s) : Runs c x pre' post' := by
  intro m phase good admitted h
  obtain ⟨phase', hpath, hgood, hp, hfatal⟩ := hx m phase good admitted (hpre _ h)
  exact ⟨phase', hpath, hgood, fun a ha => hpost a _ (hp a ha), hfatal⟩

/-- Reading the machine: the rest may rely on what was read. -/
theorem look {k : Machine → Action α} {post : α → Control → Prop}
    (h : ∀ m, c.Admits m.script →
      Runs c (k m) (fun s => pre s ∧ ∃ phase, s = m.control phase) post) :
    Runs c (get >>= k) pre post :=
  fun m phase good admitted hpre => h m admitted m phase good admitted ⟨hpre, phase, rfl⟩

/-- An action that leaves the control alone and finds no fault. -/
theorem idle {post : α → Control → Prop}
    (hx : ∀ m, c.Good m → c.Good (x.after m) ∧ ∀ phase, (x.after m).control phase = m.control phase)
    (h : ∀ a s, pre s → post a s) (hfatal : ∀ m e, x.result m = .error e → ¬ e.Fatal) :
    Runs c x pre post := by
  intro m phase good _ hpre
  obtain ⟨hgood, hcontrol⟩ := hx m good
  refine ⟨phase, ?_, hgood, fun a _ => ?_, fun e he hf => absurd hf (hfatal m e he)⟩
  · rw [hcontrol]
  · rw [hcontrol]
    exact h a _ hpre

/-- An action that succeeds and is one move. -/
theorem single {x : Action Unit} {post : Unit → Control → Prop} (hresult : ∀ m, x.result m = .ok ())
    (h : ∀ m phase, c.Good m → pre (m.control phase) → ∃ phase',
      Move c (m.control phase) ((x.after m).control phase') ∧ c.Good (x.after m) ∧
        post () ((x.after m).control phase')) : Runs c x pre post := by
  intro m phase good _ hpre
  obtain ⟨phase', hmove, hgood, hpost⟩ := h m phase good hpre
  rw [hresult]
  exact ⟨phase', .single hmove, hgood, fun _ _ => hpost, nofun⟩

/-- A command in one of the phases that run commands. -/
theorem routine {good : α → Prop} (h : Routine c x good) {p : Phase} (hp : p ≠ .between) :
    Runs c x (fun s => s.phase = p) fun _ s => s.phase = p := by
  intro m phase hgood _ hphase
  have hphase : phase = p := hphase
  subst hphase
  exact ⟨phase, h.path m hgood phase hp, (h.keeps m hgood).1, fun _ _ => rfl, fun _ _ _ => hp⟩

end Runs

variable {self : Dispatch}

/-! ## Announcing jumps -/

/-- An event that nobody listens to does nothing. -/
theorem trigger_unheard {event : Text} {payload : List Value} {m : Machine}
    (h : m.listeners.get? event = none ∨ m.listeners.get? event = some []) :
    (trigger self event payload).run.run m = (.ok (), m) := by
  rcases h with h | h <;>
  · rw [trigger, run_get_bind, h]
    rfl

/-- An event that is listened to is recorded with its listeners, and what they do are moves of commands,
also if one of them stops. -/
theorem trigger_heard (hself : Routine.Dispatches c self) {event : Text} (payload : List Value)
    {args : List Text} {listeners : List Executable} {m : Machine} {phase : Phase} (good : c.Good m)
    (hl : (m.control phase).Heard event listeners) (hargs : texts? m.heap payload = some args)
    (hp : phase ≠ .between) :
    c.listening ∧ c.Good ((trigger self event payload).after m) ∧
      Path c ((m.control phase).note m.sink (.triggered event args listeners))
        (((trigger self event payload).after m).control phase) := by
  obtain ⟨hget, hne⟩ := hl
  have hfit := good.listeners _ _ hget
  obtain ⟨ex, hex⟩ := List.exists_mem_of_ne_nil listeners hne
  obtain ⟨message, htrigger⟩ : ∃ message, (trigger self event payload).run.run m = _ :=
    run_trigger hget hne hargs
  have hafter : (trigger self event payload).after m = _ := congrArg Prod.snd htrigger
  have hcalled : c.Good { m with
      trace := m.trace.map fun t => t.add '!' message
      history := m.moment (.triggered event args listeners) :: m.history } :=
    good.congr rfl rfl rfl fun _ => rfl
  have hchanges := (calling_abides c).deliver event args hfit
    (fun ex args hl hex m good => ((Routine.apply hself hex fun t _ => c.any_token hl t).spec m good).1)
    _ hcalled
  rw [hafter]
  exact ⟨(hfit ex hex).1, hchanges.good hcalled, hchanges.path hp⟩

/-- Takes a jump from the queue and tells its listeners. -/
def announceJump (self : Dispatch) (target : Nat) (rest : List Nat) : Action Unit := do
  modify fun m => { m with queue := rest }
  record (.announced target)
  trigger self "jump" [.number (.ofNat target)]

/-- One queued jump is announced, with all that its listeners do. -/
theorem runs_announceJump (hself : Routine.Dispatches c self) (target : Nat) (rest : List Nat) :
    Runs c (announceJump self target rest) (fun s => s.phase = .between ∧ s.queue = target :: rest)
      fun _ s => s.phase = .between := by
  rintro m phase good - ⟨hp, hq⟩
  have hp : phase = .between := hp
  subst hp
  -- the machine as the listeners find it
  let m' : Machine := (record (.announced target)).after { m with queue := rest }
  have hgood' : c.Good m' := good.congr rfl rfl rfl fun _ => rfl
  have hrun : (announceJump self target rest).run.run m
      = (trigger self "jump" [.number (.ofNat target)]).run.run m' := rfl
  have hafter : (announceJump self target rest).after m = _ := congrArg Prod.snd hrun
  rcases (m.control .between).unheard_or_heard "jump" with hl | ⟨listeners, hl⟩
  · have hsilent : (trigger self "jump" [.number (.ofNat target)]).run.run m' = (.ok (), m') :=
      trigger_unheard hl
    have hresult : (announceJump self target rest).result m = .ok () :=
      congrArg Prod.fst (hrun.trans hsilent)
    rw [hafter, hsilent, hresult]
    exact ⟨.between, .single (.announce (s := m.control .between) target rest rfl hq hl), hgood',
      fun _ _ => rfl, nofun⟩
  · obtain ⟨hlistening, hgood, hpath⟩ := trigger_heard hself [.number (.ofNat target)] hgood' hl rfl
      (show Phase.announcing ≠ .between by decide)
    have hcall : Move c (m.control .between) ((m'.control .announcing).note m'.sink
        (.triggered "jump" [(Number.ofNat target).text] listeners)) :=
      .call target rest listeners rfl hq hl hlistening
    have hpath := hpath.head hcall
    rw [hafter]
    cases hr : (announceJump self target rest).result m with
    -- a listener that stops leaves the run where it was, with the rest of the queue
    | error e => exact ⟨.announcing, hpath, hgood, nofun, fun _ _ _ => by decide⟩
    | ok u => exact ⟨.between, hpath.tail (.settle rfl), hgood, fun _ _ => rfl, nofun⟩

/-- Draining ends with an empty queue, or stops. -/
theorem runs_drain (hself : Routine.Dispatches c self) (count : Nat) :
    Runs c (drain self count) (fun s => s.phase = .between)
      fun _ s => s.phase = .between ∧ s.queue = [] := by
  induction count with
  | zero =>
      refine .look fun m _ => ?_
      split
      · rename_i h
        refine .pure ?_
        rintro s ⟨hp, phase, rfl⟩
        exact ⟨hp, List.isEmpty_iff.mp h⟩
      · exact .throw
  | succ count ih =>
      refine .look fun m _ => ?_
      split
      · rename_i h
        refine .pure ?_
        rintro s ⟨hp, phase, rfl⟩
        exact ⟨hp, h⟩
      · rename_i target rest h
        have hassoc : (do
            modify fun m => { m with queue := rest }
            record (.announced target)
            trigger self "jump" [.number (.ofNat target)]
            drain self count : Action Unit) = announceJump self target rest >>= fun _ => drain self count := by
          simp only [announceJump, bind_assoc]
        rw [hassoc]
        -- listeners may queue more jumps, so the induction is not on the queue
        refine ((runs_announceJump hself target rest).bind fun _ => ih).mono ?_ fun _ _ => id
        rintro s ⟨hp, phase, rfl⟩
        exact ⟨hp, h⟩

/-! ## Looking for a line -/

theorem Runs.note {pre : Control → Prop} (mark : Char) (message : Heap → Option Text) :
    Runs c (note mark message) pre fun _ => pre := by
  refine .idle (fun m good => ?_) (fun _ _ => id) fun m e he => ?_
  · obtain ⟨trace, h⟩ := after_note mark message m
    rw [h]
    exact ⟨good.congr rfl rfl rfl fun _ => rfl, fun _ => rfl⟩
  · rw [note_stop he]
    nofun

theorem Runs.halt {pre : Control → Prop} {post : α → Control → Prop} (f : Failure)
    (h : ¬ (Stop.halted f).Fatal := by nofun) : Runs c (halt f) pre post := by
  intro m phase good _ _
  rw [after_halt, result_halt]
  refine ⟨phase, .refl, good.congr rfl rfl rfl fun _ => rfl, nofun, ?_⟩
  rintro _ ⟨⟩ hfatal
  exact absurd hfatal h

theorem Runs.flush {pre : Control → Prop} : Runs c flush pre fun _ => pre := by
  refine .idle (fun _ good => ⟨good.congr rfl rfl rfl fun _ => rfl, fun _ => rfl⟩) (fun _ _ => id) ?_
  intro m e he
  rw [result_flush] at he
  cases he

/-- The feed is asked only for a line that the program does not have. -/
theorem runs_turnToFeed (feed : Feed) (source : Option Feed) :
    Runs c (turnToFeed feed) (fun s => s.Wants ∧ s.feed = source)
      fun _ s => s.Wants ∧ s.feed = source := by
  have hask : ∀ view, Runs c (record (.asked view)) (fun s => s.Wants ∧ s.feed = source)
      fun _ s => s.Wants ∧ s.feed = source := by
    refine fun view => .single (fun _ => rfl) ?_
    rintro m phase good ⟨hw, hf⟩
    exact ⟨phase, .ask (s := m.control phase) view hw, good.congr rfl rfl rfl fun _ => rfl,
      ⟨hw.phase, hw.queue, hw.running, hw.pointer⟩, hf⟩
  have hrecord : Runs c (recordAsking feed) (fun s => s.Wants ∧ s.feed = source)
      fun _ s => s.Wants ∧ s.feed = source :=
    .look fun m _ => (hask _).mono (fun _ h => h.1) fun _ _ => id
  have hprompt : Runs c (showPrompt feed) (fun s => s.Wants ∧ s.feed = source)
      fun _ s => s.Wants ∧ s.feed = source := by
    unfold showPrompt
    split
    · exact .pure fun _ => id
    · refine .idle (fun _ good => ⟨good.congr rfl rfl rfl fun _ => rfl, fun _ => rfl⟩) (fun _ _ => id) ?_
      intro m e he
      rw [result_modify] at he
      cases he
  have hview : Runs c (checkView feed) (fun s => s.Wants ∧ s.feed = source)
      fun _ s => s.Wants ∧ s.feed = source := by
    refine .look fun m _ => ?_
    split
    · exact .throw
    · exact .pure fun _ h => h.1
  have hturn := hrecord.bind fun _ => hprompt.bind fun _ => hview
  refine Runs.flush.bind fun e => ?_
  split
  · exact (Runs.halt (α := Unit) _).bind fun _ => hturn
  · exact hturn

namespace Control

/-- Between two lines, with nothing queued, and not told to stop. -/
structure Seeks (s : Control) : Prop where
  phase : s.phase = .between
  queue : s.queue = []
  running : s.running = true

/-- What looking for a line has found. -/
def Found (s : Control) : Bool → Prop
  | true => 0 ≤ s.pointer ∧ s.pointer < s.lines.size
  | false => s.pointer < 0 ∨ (s.lines.size ≤ s.pointer ∧ s.feed = none)

/-- A pointer that is not past the end is at a line unless it is negative. -/
theorem found_of_not_isPastEnd {m : Machine} (phase : Phase) (h : ¬ m.isPastEnd = true) :
    (m.control phase).Found (decide (0 ≤ m.pointer)) := by
  have hlt : m.pointer < m.lines.size := by
    simpa [isPastEnd] using h
  by_cases h0 : 0 ≤ m.pointer
  · rw [decide_eq_true h0]
    exact ⟨h0, hlt⟩
  · rw [decide_eq_false h0]
    exact .inl (Int.not_le.mp h0)

theorem Seeks.wants {m : Machine} {phase : Phase} (h : (m.control phase).Seeks)
    (hend : m.isPastEnd = true) : (m.control phase).Wants where
  phase := h.phase
  queue := h.queue
  running := h.running
  pointer := of_decide_eq_true hend

end Control

/-- Inside the program it only matters whether the pointer is negative. -/
theorem runs_inside {m : Machine} {pre : Control → Prop} (hpre : ∀ s, pre s → s.Seeks)
    (hend : ¬ m.isPastEnd = true) :
    Runs c (get >>= fun m => pure (decide (0 ≤ m.pointer)))
      (fun s => pre s ∧ ∃ phase, s = m.control phase) fun b s => s.Seeks ∧ s.Found b := by
  refine .look fun m' _ => .pure ?_
  rintro s ⟨⟨hs, phase, rfl⟩, phase', heq⟩
  have hpointer : m.pointer = m'.pointer := congrArg Control.pointer heq
  rw [← hpointer]
  exact ⟨hpre _ hs, found_of_not_isPastEnd phase hend⟩

/-- Lines are taken from the feed, one by one, until there is one at the pointer. -/
theorem runs_fetchFrom (feed : Feed) (texts : List Text) :
    Runs c (fetchFrom feed texts) (fun s => s.Seeks ∧ s.feed = some { feed with lines := texts })
      fun b s => s.Seeks ∧ s.Found b := by
  induction texts with
  | nil =>
      refine .look fun m _ => ?_
      split
      · rename_i hend
        refine Runs.mono (show Runs c _ (fun s => s.Wants ∧ s.feed = some { feed with lines := [] }) _ from ?_) ?_
          fun _ _ => id
        · refine (runs_turnToFeed feed _).bind fun _ => ?_
          split
          · exact .halt _
          · refine Runs.bind (show Runs c _ _ (fun _ s => s.Seeks ∧ s.Found false) from ?_) fun _ => .pure fun _ => id
            refine .single (fun _ => rfl) ?_
            rintro m' phase good ⟨hw, hf⟩
            exact ⟨phase, .close (s := m'.control phase) _ hw hf rfl, good.congr rfl rfl rfl fun _ => rfl,
              ⟨hw.phase, hw.queue, hw.running⟩, .inr ⟨hw.pointer, rfl⟩⟩
        · rintro s ⟨⟨hs, hf⟩, phase, rfl⟩
          exact ⟨hs.wants hend, hf⟩
      · rename_i hend
        exact runs_inside (fun _ h => h.1) hend
  | cons text rest ih =>
      refine .look fun m _ => ?_
      split
      · rename_i hend
        refine Runs.mono (show Runs c _
          (fun s => s.Wants ∧ s.feed = some { feed with lines := text :: rest }) _ from ?_) ?_ fun _ _ => id
        · refine (runs_turnToFeed feed _).bind fun _ => Runs.bind (.single (fun _ => rfl) ?_) fun _ => ih
          rintro m' phase good ⟨hw, hf⟩
          exact ⟨phase, .grow (s := m'.control phase) { feed with lines := text :: rest } text rest
            ⟨"<interactive>", m'.lines.size + 1⟩ hw hf rfl, good.congr rfl rfl rfl fun _ => rfl,
            ⟨hw.phase, hw.queue, hw.running⟩, rfl⟩
        · rintro s ⟨⟨hs, hf⟩, phase, rfl⟩
          exact ⟨hs.wants hend, hf⟩
      · rename_i hend
        exact runs_inside (fun _ h => h.1) hend

theorem runs_fetch : Runs c fetch Seeks fun b s => s.Seeks ∧ s.Found b := by
  refine .look fun m _ => ?_
  split
  · rename_i hfeed
    refine .pure ?_
    rintro s ⟨hs, phase, rfl⟩
    refine ⟨hs, ?_⟩
    cases hend : m.isPastEnd with
    | true =>
        rw [Bool.not_true, Bool.and_false]
        exact .inr ⟨of_decide_eq_true hend, hfeed⟩
    | false =>
        rw [Bool.not_false, Bool.and_true]
        exact found_of_not_isPastEnd phase (by rw [hend]; decide)
  · rename_i feed hfeed
    refine (runs_fetchFrom feed feed.lines).mono ?_ fun _ _ => id
    rintro s ⟨hs, phase, rfl⟩
    exact ⟨hs, hfeed⟩

/-! ## Running lines -/

/-- A run that has been interrupted does not get past this point. -/
theorem runs_checkInterruption {pre : Control → Prop} :
    Runs c checkInterruption pre fun _ s => pre s ∧ s.interruption = none := by
  refine .look fun m _ => ?_
  split
  · exact .halt _
  · rename_i hnone
    refine .pure ?_
    rintro s ⟨hs, phase, rfl⟩
    refine ⟨hs, ?_⟩
    cases hi : m.interruption with
    | none => exact hi
    | some i => exact (hnone i hi).elim

namespace Control

/-- A line has been fetched and nothing keeps it from running. -/
structure Ready (s : Control) : Prop where
  phase : s.phase = .stepping
  running : s.running = true
  interruption : s.interruption = none

end Control

/-- Running a line stays in its phase, as the tokens of the line are tokens of the script. -/
theorem runs_step (hself : Routine.Dispatches c self) :
    Runs c (step self) Ready fun _ s => s.phase = .stepping := by
  refine .look fun m admitted => ?_
  split
  · exact .pure fun _ h => h.1.phase
  · rename_i line hline
    have htokens := admitted.of_line hline
    refine Runs.bind (show Runs c _ _ (fun _ s => s.phase = .stepping) from ?_) fun _ => ?_
    · -- the index that is recorded is that of the line just read
      refine .single (fun _ => rfl) ?_
      rintro m' phase good ⟨hr, phase', heq⟩
      have hpointer : m'.pointer = m.pointer := congrArg Control.pointer heq
      have hmove : Move c (m'.control phase)
          ((m'.control phase).note m'.sink (.stepped (m'.control phase).pointer.toNat)) :=
        .step hr.phase hr.running hr.interruption
      have hp : phase = .stepping := hr.phase
      rw [show (m'.control phase).pointer = m.pointer from hpointer] at hmove
      exact ⟨phase, hmove, good.congr rfl rfl rfl fun _ => rfl, hp⟩
    · split
      · exact .pure fun _ => id
      · refine (Runs.note _ _).bind fun _ => ?_
        exact (Runs.routine (hself.routine line.tokens htokens) (by decide)).bind fun _ => .pure fun _ => id

/-- A line that has been found is fetched. -/
theorem runs_fetched :
    Runs c (get >>= fun m => record (.fetched m.pointer.toNat)) (fun s => s.Seeks ∧ s.Found true)
      fun _ s => s.phase = .stepping ∧ s.running = true := by
  refine .single (fun _ => rfl) ?_
  rintro m phase good ⟨hs, h0, h1⟩
  exact ⟨.stepping, .fetch (s := m.control phase) hs.phase hs.queue hs.running h0 h1,
    good.congr rfl rfl rfl fun _ => rfl, rfl, hs.running⟩

/-- After a line the pointer moves on. -/
theorem runs_advance :
    Runs c (modify fun m => { m with pointer := m.pointer + 1 }) (fun s => s.phase = .stepping)
      fun _ s => s.phase = .between := by
  refine .single (fun _ => rfl) fun m phase good hp => ?_
  exact ⟨.between, .advance (s := m.control phase) hp, good.congr rfl rfl rfl fun _ => rfl, rfl⟩

/-- One round of the loop; whether another one follows. -/
def round (self : Dispatch) (jumps : Nat) : Action Bool := do
  drain self jumps
  unless (← get).running do return false
  unless ← fetch do return false
  record (.fetched (← get).pointer.toNat)
  checkInterruption
  step self
  modify fun m => { m with pointer := m.pointer + 1 }
  return true

theorem cycle_succ (self : Dispatch) (jumps count : Nat) :
    cycle self jumps (count + 1)
      = round self jumps >>= fun more => if more then cycle self jumps count else pure () := by
  simp only [cycle, round, bind_assoc]
  congr 1
  funext _
  congr 1
  funext m
  split
  · simp only [bind_assoc]
    congr 1
    funext found
    cases found with
    | false => rfl
    | true => simp [bind_assoc]
  · simp

/-- A round follows the moves, from between two lines to there again, or to the end of the loop. -/
theorem runs_round (hself : Routine.Dispatches c self) (jumps : Nat) :
    Runs c (round self jumps) (fun s => s.phase = .between)
      fun more s => if more then s.phase = .between else s.Done := by
  refine (runs_drain hself jumps).bind fun _ => .look fun m _ => ?_
  split
  · rename_i hrun
    refine (runs_fetch.bind fun found => ?_).mono (show ∀ s, _ → Seeks s from ?_) fun _ _ => id
    · cases found with
      | false => exact .pure fun s h => ⟨h.1.phase, h.1.queue, fun _ => h.2⟩
      | true =>
          -- the line is fetched and run, and the pointer moves on
          have hready : Runs c checkInterruption (fun s => s.phase = .stepping ∧ s.running = true)
              fun _ => Ready := runs_checkInterruption.mono (fun _ h => h) fun _ _ h => ⟨h.1.1, h.1.2, h.2⟩
          have hmore : Runs c (pure true) (fun s => s.phase = .between)
              fun more s => if more then s.phase = .between else s.Done := .pure fun _ h => h
          have hline := runs_fetched.bind fun _ => hready.bind fun _ =>
            (runs_step hself).bind fun _ => runs_advance.bind fun _ => hmore
          simpa only [bind_assoc, if_pos] using hline
    · rintro s ⟨⟨hp, hq⟩, phase, rfl⟩
      exact ⟨hp, hq, hrun⟩
  · rename_i hrun
    refine .pure ?_
    rintro s ⟨⟨hp, hq⟩, phase, rfl⟩
    exact ⟨hp, hq, fun h => absurd h hrun⟩

/-- The loop follows the moves until nothing is left to do, or stops. -/
theorem runs_cycle (hself : Routine.Dispatches c self) (jumps count : Nat) :
    Runs c (cycle self jumps count) (fun s => s.phase = .between) fun _ => Done := by
  induction count with
  | zero => exact .throw
  | succ count ih =>
      rw [cycle_succ]
      refine (runs_round hself jumps).bind fun more => ?_
      cases more with
      | false => exact .pure fun _ h => h
      | true => exact ih

/-- The machine with its end announced, as the listeners of the end find it. -/
theorem announceEnd_run (self : Dispatch) (m : Machine) :
    ∃ trace, (announceEnd self).run.run m = (trigger self "end" []).run.run { m with
      running := false
      trace
      history := { m with running := false }.moment .ended :: m.history } := by
  have hresult := result_note_some '#' (Text.ofString "end @" ++ Text.ofInt m.pointer)
    { m with running := false }
  obtain ⟨trace, hafter⟩ := after_note '#' (fun _ => some (Text.ofString "end @" ++ Text.ofInt m.pointer))
    { m with running := false }
  refine ⟨trace, ?_⟩
  show (note '#' (fun _ => some (Text.ofString "end @" ++ Text.ofInt m.pointer)) >>= fun _ =>
    record .ended >>= fun _ => trigger self "end" []).run.run { m with running := false } = _
  rw [run_bind, hresult, hafter]
  rfl

/-- Announcing the end is the last move of the loop, and the moves of those who listen follow it, also if
one of them stops. -/
theorem announceEnd_path (hself : Routine.Dispatches c self) {m : Machine} (good : c.Good m)
    {phase : Phase} (hd : (m.control phase).Done) :
    Path c (m.control phase) (((announceEnd self).after m).control .ended) ∧
      c.Good ((announceEnd self).after m) := by
  obtain ⟨trace, hrun⟩ := announceEnd_run self m
  -- the machine as the listeners find it
  let ended : Machine := { m with
    running := false
    trace
    history := { m with running := false }.moment .ended :: m.history }
  have hended : c.Good ended := good.congr rfl rfl rfl fun _ => rfl
  have hafter : (announceEnd self).after m = ((trigger self "end" []).run.run ended).2 :=
    congrArg Prod.snd hrun
  rw [hafter]
  rcases (m.control phase).unheard_or_heard "end" with hl | ⟨listeners, hl⟩
  · rw [trigger_unheard (m := ended) hl]
    exact ⟨.single (.finish (s := m.control phase) hd hl), hended⟩
  · obtain ⟨-, hgood, hpath⟩ := trigger_heard hself [] hended hl rfl
      (show Phase.ended ≠ .between by decide)
    have hconclude : Move c (m.control phase)
        ((ended.control .ended).note ended.sink (.triggered "end" [] listeners)) :=
      .conclude listeners hd hl
    exact ⟨hpath.head hconclude, hgood⟩

/-- The end is announced when the loop is done, and what listens to it runs afterwards. -/
theorem runs_announceEnd (hself : Routine.Dispatches c self) :
    Runs c (announceEnd self) Done fun _ s => s.phase = .ended := by
  intro m phase good _ hd
  obtain ⟨hpath, hgood⟩ := announceEnd_path hself good hd
  exact ⟨.ended, hpath, hgood, fun _ _ => rfl, fun _ _ _ => by decide⟩

/-! ## Loading -/

/-- Every label is the label of a line. -/
def LabelsInside (labels : Dict Nat) (size : Nat) : Prop :=
  ∀ name target, labels.get? name = some target → target < size

theorem labelsInside_empty (size : Nat) : LabelsInside .empty size := nofun

/-- A line that declares a label is the line of that label. -/
theorem LabelsInside.declare {labels : Dict Nat} {size : Nat} (h : LabelsInside labels size)
    (label : Option Text) :
    LabelsInside (match label with
      | some name => labels.insert name size
      | none => labels) (size + 1) := by
  intro other target hget
  cases label with
  | none => exact Nat.lt_succ_of_lt (h other target hget)
  | some name =>
      rw [Dict.get?_insert] at hget
      split at hget
      · cases hget
        exact Nat.lt_succ_self size
      · exact Nat.lt_succ_of_lt (h other target hget)

/-- What a request for a line does with the answer. -/
def onLine (count : Nat) : LineResult → Action Unit
  | .line l => do
    modify fun m => m.addLine l.location l.text
    loadLines count
  | .failed _ message => halt (.input message)
  | .ended => return

theorem loadLines_succ (count : Nat) {m : Machine} {result : LineResult} {sources : SourceReader}
    (h : m.sources.readLine = (result, sources)) :
    (loadLines (count + 1)).run.run m = (onLine count result).run.run { m with sources } := by
  have hrun : (loadLines (count + 1)).run.run m
      = (onLine count m.sources.readLine.1).run.run { m with sources := m.sources.readLine.2 } := rfl
  rw [hrun, h]

/-- What loading changes: it takes lines from the sources and adds them to the program. -/
theorem loadLines_after (count : Nat) (m : Machine) :
    ∃ sources lines labels sink trace,
      (loadLines count).after m = { m with sources, lines, labels, sink, trace } ∧
      (LabelsInside m.labels m.lines.size → LabelsInside labels lines.size) := by
  induction count generalizing m with
  | zero => exact ⟨_, _, _, _, _, rfl, id⟩
  | succ count ih =>
      obtain ⟨result, sources, hr⟩ : ∃ result sources, m.sources.readLine = (result, sources) := ⟨_, _, rfl⟩
      have hafter : (loadLines (count + 1)).after m = (onLine count result).after { m with sources } :=
        congrArg Prod.snd (loadLines_succ count hr)
      rw [hafter]
      cases result with
      | line l =>
          obtain ⟨sources', lines, labels, sink, trace, h, hlabels⟩ :=
            ih ({ m with sources }.addLine l.location l.text)
          refine ⟨sources', lines, labels, sink, trace, h, fun hm => hlabels ?_⟩
          show LabelsInside _ (m.lines.push _).size
          rw [Array.size_push]
          exact hm.declare _
      | failed l message => exact ⟨_, _, _, _, _, after_halt _ _, id⟩
      | ended => exact ⟨_, _, _, _, _, rfl, id⟩

/-- What is left to do once the lines have been loaded. -/
def refuseEmpty : Action Unit := do
  let m ← get
  if m.lines.isEmpty && m.feed.isNone then fail .emptyProgram

theorem loadProgram_eq (m : Machine) :
    loadProgram.result m = (loadLines (m.sources.remaining + 1) >>= fun _ => refuseEmpty).result m ∧
      loadProgram.after m = (loadLines (m.sources.remaining + 1) >>= fun _ => refuseEmpty).after m :=
  ⟨rfl, rfl⟩

theorem loadProgram_after (m : Machine) :
    ∃ sources lines labels sink trace,
      loadProgram.after m = { m with sources, lines, labels, sink, trace } ∧
      (LabelsInside m.labels m.lines.size → LabelsInside labels lines.size) := by
  obtain ⟨sources, lines, labels, sink, trace, h, hlabels⟩ := loadLines_after (m.sources.remaining + 1) m
  cases hr : (loadLines (m.sources.remaining + 1)).result m with
  | error e =>
      rw [(loadProgram_eq m).2, after_bind_error hr]
      exact ⟨_, _, _, _, _, h, hlabels⟩
  | ok u =>
      rw [(loadProgram_eq m).2, after_bind_ok hr, h, refuseEmpty, after_get_bind]
      split
      · exact ⟨_, _, _, _, _, after_fail _ _, hlabels⟩
      · exact ⟨_, _, _, _, _, rfl, hlabels⟩

/-! ## The whole run -/

/-- The machine at the start of the loop. -/
def Machine.started (m : Machine) : Machine := { loadProgram.after m with running := true, pointer := 0 }

/-- The loop and all that follows it. -/
def body (fuel : Nat) : Action Unit := do
  cycle (exec fuel) fuel fuel
  announceEnd (exec fuel)
  if let some e ← flush then throw (.halted (.output e))

theorem runs_body (fuel : Nat) :
    Runs c (body fuel) (fun s => s.phase = .between) fun _ s => s.phase = .ended := by
  have hself : Routine.Dispatches c (exec fuel) := Routine.exec fuel
  refine (runs_cycle hself fuel fuel).bind fun _ => (runs_announceEnd hself).bind fun _ => ?_
  refine Runs.flush.bind fun e => ?_
  split
  · exact .throw
  · exact .pure fun _ => id

theorem run_outcome (fuel : Nat) (m : Machine) :
    (run fuel m).1 = ((program fuel).after m).outcome ((program fuel).result m) := rfl

/-- A run whose program cannot be loaded ends with that. -/
theorem program_of_load_error (fuel : Nat) {m : Machine} {e : Stop} (h : loadProgram.result m = .error e) :
    (program fuel).result m = .error e ∧ (program fuel).after m = loadProgram.after m :=
  ⟨result_bind_error h, after_bind_error h⟩

/-- Otherwise the loop starts with what has been loaded. -/
theorem program_of_load_ok (fuel : Nat) {m : Machine} (h : loadProgram.result m = .ok ()) :
    (program fuel).result m = (body fuel).result m.started ∧
      (program fuel).after m = (body fuel).after m.started :=
  ⟨result_bind_ok h, after_bind_ok h⟩

/-- Once the program has been loaded, a run is a path of moves, however it ends. It is over if the run
has succeeded, and not between two lines if the run has failed over a fault. -/
theorem program_runs (fuel : Nat) {m : Machine} (good : c.Good m)
    (admitted : c.Admits (loadProgram.after m).script) (hload : loadProgram.result m = .ok ()) :
    ∃ phase, Path c (m.started.control .between) (((program fuel).after m).control phase) ∧
      ((program fuel).result m = .ok () → phase = .ended) ∧
      ∀ e, (program fuel).result m = .error e → e.Fatal → phase ≠ .between := by
  obtain ⟨hresult, hafter⟩ := program_of_load_ok fuel hload
  have hgood : c.Good m.started := by
    obtain ⟨_, _, _, _, _, h, _⟩ := loadProgram_after m
    rw [started, h]
    exact good.congr rfl rfl rfl fun _ => rfl
  obtain ⟨phase, hpath, _, hover, hfatal⟩ := runs_body fuel m.started .between hgood admitted rfl
  rw [hresult, hafter]
  exact ⟨phase, hpath, hover (), hfatal⟩

theorem program_path (fuel : Nat) {m : Machine} (good : c.Good m)
    (admitted : c.Admits (loadProgram.after m).script) (hload : loadProgram.result m = .ok ()) :
    ∃ phase, Path c (m.started.control .between) (((program fuel).after m).control phase) ∧
      ((program fuel).result m = .ok () → phase = .ended) := by
  obtain ⟨phase, hpath, hover, _⟩ := program_runs fuel good admitted hload
  exact ⟨phase, hpath, hover⟩

theorem admits_free (script : List (List Text)) : Conduct.free.Admits script :=
  fun _ _ _ _ => trivial

/-- Every run of every machine is a path of moves, from the program as it has been loaded. -/
theorem run_path (fuel : Nat) (m : Machine) :
    ∃ start phase, (start = loadProgram.after m ∨ start = m.started) ∧
      Path .free (start.control .between) ((run fuel m).2.control phase) := by
  cases hload : loadProgram.result m with
  | error e =>
      have hafter : (run fuel m).2 = loadProgram.after m := (program_of_load_error fuel hload).2
      refine ⟨loadProgram.after m, .between, .inl rfl, ?_⟩
      rw [hafter]
  | ok u =>
      obtain ⟨phase, hpath, _⟩ :=
        program_path fuel (Conduct.free_good m) (admits_free _) hload
      exact ⟨m.started, phase, .inr rfl, hpath⟩

/-- A machine that has not run yet. -/
structure Machine.Unstarted (m : Machine) : Prop where
  lines : m.lines = #[]
  labels : m.labels = .empty
  queue : m.queue = []
  history : m.history = []

/-- Nothing has happened between two machines. -/
structure Machine.Untouched (m start : Machine) : Prop where
  queue : start.queue = m.queue
  listeners : start.listeners = m.listeners
  interruption : start.interruption = m.interruption
  history : start.history = m.history

/-- Nothing happens while the program is loaded. -/
theorem untouched_of_start {m start : Machine} (h : start = loadProgram.after m ∨ start = m.started) :
    m.Untouched start := by
  obtain ⟨sources, lines, labels, sink, trace, hloaded, -⟩ := loadProgram_after m
  rcases h with rfl | rfl
  · rw [hloaded]
    exact ⟨rfl, rfl, rfl, rfl⟩
  · rw [started, hloaded]
    exact ⟨rfl, rfl, rfl, rfl⟩

/-- A program that has been loaded has no label without a line. -/
theorem Machine.Unstarted.labelsInside {m start : Machine} (hm : m.Unstarted)
    (h : start = loadProgram.after m ∨ start = m.started) : LabelsInside start.labels start.lines.size := by
  obtain ⟨sources, lines, labels, sink, trace, hloaded, hlabels⟩ := loadProgram_after m
  have hinside : LabelsInside labels lines.size := by
    refine hlabels ?_
    rw [hm.labels]
    exact labelsInside_empty _
  rcases h with rfl | rfl
  · rw [hloaded]
    exact hinside
  · rw [started, hloaded]
    exact hinside

end Linewise
