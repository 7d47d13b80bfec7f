import Linewise.Proofs.Loop

/-!
# From actions to runs

A run is put together from a few elementary actions: it halts, writes, takes notes and records what it
does, it calls listeners, it turns to the feed, and it changes what nobody outside can see. A property of
actions that all of these have, and that putting actions together keeps, is one of all commands
(`Carries.routine`) and of everything that a run does before its last flush (`Carries.unflushed`).
Properties of whole runs are proved by saying why they are carried, and most of them lift already from
what calling listeners is made of (`Lifts`). What is known of commands already goes through the loop by
itself (`Loops`).
-/

namespace Linewise

open Machine Linewise.Action

/-- The machine without its trace. -/
def Machine.untraced (m : Machine) : Machine := { m with trace := none }

/-- What conducts, and those outside, have to do with in a machine. -/
def Machine.held (m : Machine) : Sink × Storage × Option Feed × Array Line × Registry Effect ×
    Dict (List Executable) × Dict Value × Heap :=
  (m.sink, m.storage, m.feed, m.lines, m.registry, m.listeners, m.object, m.heap)

/-- The feed of a machine, if there is one, is one of these. -/
def Machine.Fed (m : Machine) (feeds : Feed → Prop) : Prop := ∀ feed, m.feed = some feed → feeds feed

/-- An occurrence that has nothing to do with the output. -/
def Occurrence.Silent : Occurrence → Prop
  | .emitted _ => False
  | .asked _ => False
  | _ => True

/-- An occurrence that has nothing to do with listeners either. -/
def Occurrence.Plain : Occurrence → Prop
  | .triggered _ _ _ => False
  | .delivered _ _ _ => False
  | o => o.Silent

/-- An occurrence of the loop around the commands. -/
def Occurrence.Paces : Occurrence → Prop
  | .announced _ => True
  | .fetched _ => True
  | .stepped _ => True
  | .ended => True
  | _ => False

theorem Occurrence.Paces.plain {o : Occurrence} (h : o.Paces) : o.Plain := by
  cases o with
  | announced | fetched | stepped | ended => trivial
  | _ => exact h.elim

theorem Occurrence.Plain.silent {o : Occurrence} (h : o.Plain) : o.Silent := by
  cases o with
  | triggered | delivered => exact h.elim
  | _ => exact h

theorem Conduct.plain_of_notes {c : Conduct} {o : Occurrence} (h : c.Notes o) : o.Plain := by
  cases o with
  | emitted | asked | triggered | delivered => exact h
  | _ => trivial

theorem Conduct.silent_of_calls {c : Conduct} {o : Occurrence} (h : c.Calls o) : o.Silent := by
  cases o with
  | triggered | delivered => trivial
  | _ => exact h.elim

namespace Conduct

variable (c : Conduct)

/-- A machine on which a run keeps to the conduct, and whose feed is one of these. -/
structure Holds (feeds : Feed → Prop) (m : Machine) : Prop where
  good : c.Good m
  admits : c.Admits m.script
  fed : m.Fed feeds

/-- What is not touched without the builtins for it. -/
structure Leaves (m m' : Machine) : Prop where
  storage : ¬ c.builtin .write → m'.storage = m.storage
  registry : ¬ c.builtin .define → ¬ c.builtin .synonym → m'.registry = m.registry

/-- Reading a machine, but not its trace and its history, nor the arguments of the invocation unless
there is `arg` to read them. -/
def Overlooks {α : Type} (k : Machine → Action α) : Prop :=
  ∀ m trace arguments history, (c.builtin .arg → arguments = m.arguments) →
    k { m with trace, arguments, history } = k m

variable {c} in
/-- What does not look at more than a command may, overlooks these. -/
theorem overlooks_of_bare {α : Type} {k : Machine → Action α} (hk : ∀ m, k m = k m.bare) :
    c.Overlooks k := by
  intro m trace arguments history _
  rw [hk m, hk { m with trace, arguments, history }]
  rfl

end Conduct

/-- A change that keeps to a conduct, that leaves the output alone, and that has nothing to do with the
trace, the history and the arguments of the invocation. -/
structure Unseen (c : Conduct) (feeds : Feed → Prop) {α : Type} (f : Machine → α × Machine) : Prop where
  sink : ∀ m, (f m).2.sink = m.sink
  aside : ∀ m trace arguments history, f { m with trace, arguments, history }
    = ((f m).1, { (f m).2 with trace, arguments, history })
  leaves : ∀ m, c.Good m → c.Leaves m (f m).2
  holds : ∀ m, c.Holds feeds m → c.Holds feeds (f m).2

/-- A property that runs have because their parts have it, as long as they keep to a conduct and the feed
is one of these. Calling the listeners of an event is one of the parts. -/
structure Carries (c : Conduct) (P : (α : Type) → Action α → Prop) (feeds : Feed → Prop) : Prop where
  pure : ∀ {α : Type} (a : α), P α (pure a)
  /-- What follows an action has to have the property for the results that the action can have. -/
  bind_of_result : ∀ {α β : Type} {x : Action α} {f : α → Action β}, P α x →
    (∀ m a, c.Good m → x.result m = .ok a → P β (f a)) → P β (x >>= f)
  look : ∀ {α : Type} {k : Machine → Action α}, c.Overlooks k →
    (∀ m, c.Holds feeds m → P α (k m)) → P α (get >>= k)
  /-- Stopping without halting. -/
  throw : ∀ {α : Type} {e : Stop}, (∀ f, e ≠ .halted f) → P α (throw e)
  /-- Halting over something that is no fault of the program. -/
  halt : ∀ {α : Type} {f : Failure}, (∀ line fault, f ≠ .fatal line fault) → P α (halt f)
  fail : ∀ {α : Type} (fault : Fault), P α (fail fault)
  /-- The one fault that names no line. -/
  outOfBounds : ∀ {α : Type} (error : TapeError Number),
    P α (Machine.halt (.fatal none (.outOfBounds error)))
  note : ∀ (mark : Char) (message : Heap → Option Text), P Unit (note mark message)
  indented : ∀ {α : Type} {x : Action α}, P α x → P α (indented x)
  mark : ∀ {o : Occurrence}, o.Plain → P Unit (record o)
  calls : ∀ {self : Dispatch} (event : Text) (payload : List Value), (∃ depth, self = exec depth) →
    (∀ ex args, c.listening → c.Fit ex → P Value (apply self ex args)) → P Unit (trigger self event payload)
  write : ∀ (delivery : Delivery) (bytes : Text), P Unit (write delivery bytes)
  change : ∀ {α : Type} {f : Machine → α × Machine}, Unseen c feeds f → P α (modifyGet f)
  turn : ∀ {feed : Feed}, feeds feed → P Unit (turnToFeed feed)
  /-- A feed that has handed out lines is still one of these. -/
  rest : ∀ {feed : Feed} (lines : List Text), feeds feed → feeds { feed with lines }

/-- A property that runs have because their commands have it, and the parts of the loop around them. The
loop leaves registry and memories to the commands. -/
structure Loops (c : Conduct) (P : (α : Type) → Action α → Prop) (feeds : Feed → Prop) : Prop where
  pure : ∀ {α : Type} (a : α), P α (pure a)
  bind : ∀ {α β : Type} {x : Action α} {f : α → Action β}, P α x → (∀ a, P β (f a)) → P β (x >>= f)
  look : ∀ {α : Type} {k : Machine → Action α}, c.Overlooks k →
    (∀ m, c.Holds feeds m → P α (k m)) → P α (get >>= k)
  throw : ∀ {α : Type} {e : Stop}, (∀ f, e ≠ .halted f) → P α (throw e)
  halt : ∀ {α : Type} {f : Failure}, (∀ line fault, f ≠ .fatal line fault) → P α (halt f)
  emptyProgram : P Unit (fail .emptyProgram)
  note : ∀ (mark : Char) (message : Heap → Option Text), P Unit (note mark message)
  pace : ∀ {o : Occurrence}, o.Paces → P Unit (record o)
  change : ∀ {α : Type} {f : Machine → α × Machine}, Unseen c feeds f →
    (∀ m, (f m).2.registry = m.registry ∧ (f m).2.heap = m.heap) → P α (modifyGet f)
  turn : ∀ {feed : Feed}, feeds feed → P Unit (turnToFeed feed)
  rest : ∀ {feed : Feed} (lines : List Text), feeds feed → feeds { feed with lines }
  commands : ∀ {α : Type} {x : Action α} {post : α → Prop}, Routine c x post → P α x

/-- A property that calling listeners has, too, because its parts have it. -/
structure Lifts (c : Conduct) (P : (α : Type) → Action α → Prop) (feeds : Feed → Prop) : Prop
    extends Carries c P feeds where
  record : ∀ {o : Occurrence}, o.Silent → P Unit (record o)
  mark h := record h.silent
  calls event payload _ h := Calling.trigger {
    pure := pure
    bind := fun hx hf => bind_of_result hx fun _ a _ _ => hf a
    look := fun hk h => look (Conduct.overlooks_of_bare hk) fun m hm => h m hm.good
    unfinished := throw nofun
    note := note
    record := fun ho => record (Conduct.silent_of_calls ho) } event payload h

/-! ## Unseen changes -/

namespace Conduct

variable {c : Conduct} {m m' : Machine}

theorem Leaves.trans {m'' : Machine} (h : c.Leaves m m') (h' : c.Leaves m' m'') : c.Leaves m m'' where
  storage hw := (h'.storage hw).trans (h.storage hw)
  registry hd hs := (h'.registry hd hs).trans (h.registry hd hs)

/-- A free run keeps to its conduct on every machine. -/
theorem free_holds {feeds : Feed → Prop} (h : m.Fed feeds) : free.Holds feeds m :=
  ⟨free_good m, admits_free _, h⟩

/-- Whether a run keeps to a conduct hangs on these parts of the machine only. -/
theorem Holds.congr {feeds : Feed → Prop} (h : c.Holds feeds m) (good : c.Good m')
    (feed : m'.feed = m.feed) (lines : m'.lines = m.lines) : c.Holds feeds m' where
  good := good
  admits := by
    have hscript : m'.script = m.script := by rw [Machine.script, Machine.script, feed, lines]
    rw [hscript]
    exact h.admits
  fed := by
    intro other hother
    rw [feed] at hother
    exact h.fed other hother

end Conduct

theorem Change.leaves {c : Conduct} {m m' : Machine} (h : Change c m m') : c.Leaves m m' := by
  cases h with
  | setStorage storage h => exact ⟨fun hw => absurd h hw, fun _ _ => rfl⟩
  | define name h _ => exact ⟨fun _ => rfl, fun hd _ => absurd h hd⟩
  | synonym name h _ _ => exact ⟨fun _ => rfl, fun _ hs => absurd h hs⟩
  | quiet hf =>
      obtain ⟨_, _, _, _, _, _, h⟩ := hf.frame m
      rw [h]
      exact ⟨fun _ => rfl, fun _ _ => rfl⟩
  | _ => exact ⟨fun _ => rfl, fun _ _ => rfl⟩

namespace Unseen

variable {c : Conduct} {feeds : Feed → Prop} {α : Type} {f : Machine → α × Machine}

theorem trace (hf : Unseen c feeds f) (m : Machine) : (f m).2.trace = m.trace :=
  congrArg (fun r => r.2.trace) (hf.aside m m.trace m.arguments m.history)

theorem history (hf : Unseen c feeds f) (m : Machine) : (f m).2.history = m.history :=
  congrArg (fun r => r.2.history) (hf.aside m m.trace m.arguments m.history)

theorem arguments (hf : Unseen c feeds f) (m : Machine) : (f m).2.arguments = m.arguments :=
  congrArg (fun r => r.2.arguments) (hf.aside m m.trace m.arguments m.history)

theorem untraced (hf : Unseen c feeds f) (m : Machine) : f m.untraced = ((f m).1, (f m).2.untraced) := by
  have harguments := hf.arguments m
  have hhistory := hf.history m
  rw [Machine.untraced, hf.aside m none m.arguments m.history, ← harguments, ← hhistory]
  rfl

theorem fed (hf : Unseen .free feeds f) {m : Machine} (h : m.Fed feeds) : (f m).2.Fed feeds :=
  (hf.holds m (Conduct.free_holds h)).fed

/-- What a command changes, apart from its output. -/
theorem of_change (hsink : ∀ m, (f m).2.sink = m.sink) (hchange : ∀ m, c.Good m → Change c m (f m).2)
    (haside : ∀ m trace arguments history, f { m with trace, arguments, history }
      = ((f m).1, { (f m).2 with trace, arguments, history })) : Unseen c feeds f where
  sink := hsink
  aside := haside
  leaves m good := (hchange m good).leaves
  holds m h := by
    have hprogram := (hchange m h.good).sameProgram
    exact h.congr ((hchange m h.good).good h.good) hprogram.feed hprogram.lines

/-- A change of the control. -/
theorem of_held (hheld : ∀ m, (f m).2.held = m.held)
    (haside : ∀ m trace arguments history, f { m with trace, arguments, history }
      = ((f m).1, { (f m).2 with trace, arguments, history })) : Unseen c feeds f where
  sink m := congrArg (fun held => held.1) (hheld m)
  aside := haside
  leaves m _ := by
    have h := hheld m
    simp only [Machine.held, Prod.mk.injEq] at h
    exact ⟨fun _ => h.2.1, fun _ _ => h.2.2.2.2.1⟩
  holds m hm := by
    have h := hheld m
    simp only [Machine.held, Prod.mk.injEq] at h
    obtain ⟨-, -, hfeed, hlines, hregistry, hlisteners, hobject, hheap⟩ := h
    exact hm.congr (hm.good.congr hregistry hlisteners hobject fun _ => by rw [hheap]) hfeed hlines

/-- What a quiet change does can be read off the core, which has no trace and no history. -/
theorem of_quiet (hf : Quiet f) : Unseen c feeds f := by
  refine of_change (fun m => ?_) (fun m _ => .quiet hf) fun m trace arguments history => ?_
  · obtain ⟨_, _, _, _, _, _, hm⟩ := hf.frame m
    rw [hm]
  · -- the frames of both runs agree, since what they set is part of the core
    have hcore : ((f { m with trace, history }).1, (f { m with trace, history }).2.core)
        = ((f m).1, (f m).2.core) := (hf.core { m with trace, history }).symm.trans (hf.core m)
    obtain ⟨hosts, heap, namedStacks, namedTapes, text, interruption, hm⟩ := hf.frame m
    obtain ⟨hosts', heap', namedStacks', namedTapes', text', interruption', hm'⟩ :=
      hf.frame { m with trace, history }
    have hsame : f { m with trace, history } = ((f m).1, { (f m).2 with trace, history }) := by
      simp only [hm, hm', Machine.core, Prod.mk.injEq, Machine.mk.injEq] at hcore
      refine Prod.ext hcore.1 ?_
      simp only [hm, hm', hcore]
    rw [show { m with trace, arguments, history }
      = ({ { m with trace, history } with arguments } : Machine) from rfl, hf.arguments, hsame]

end Unseen

/-! ## The parts of a run -/

/-- Turning to the feed is flushing what has been written, asking, and showing the prompt. -/
theorem turnToFeed_of_parts {P : (α : Type) → Action α → Prop} {feed : Feed}
    (hbind : ∀ {α β : Type} {x : Action α} {f : α → Action β}, P α x → (∀ a, P β (f a)) → P β (x >>= f))
    (hpure : P Unit (pure ())) (hhalt : ∀ e, P Unit (halt (.output e)))
    (hsink : ∀ {α : Type} (f : Sink → α × Sink),
      P α (modifyGet fun m => ((f m.sink).1, { m with sink := (f m.sink).2 })))
    (hask : P Unit (recordAsking feed)) (hview : P Unit (checkView feed)) : P Unit (turnToFeed feed) := by
  have hprompt : P Unit (showPrompt feed) := by
    unfold showPrompt
    split
    · exact hpure
    · exact hsink fun sink => ((), (sink.write .text feed.prompt).2.flush.2)
  have hturn := hbind hask fun _ => hbind hprompt fun _ => hview
  refine hbind (hsink Sink.flush) fun e => ?_
  split
  · exact hbind (hhalt _) fun _ => hturn
  · exact hturn

/-- Everything that a run does before its last flush. -/
def unflushed (fuel : Nat) : Action Unit := do
  loadProgram
  modify fun m => { m with running := true, pointer := 0 }
  cycle (exec fuel) fuel fuel
  announceEnd (exec fuel)

/-- The last flush, whose error is that of the run. -/
def lastFlush : Action Unit := do
  if let some e ← flush then throw (.halted (.output e))

theorem after_lastFlush (m : Machine) : lastFlush.after m = { m with sink := m.sink.flush.2 } := by
  have hflush : flush.after m = { m with sink := m.sink.flush.2 } := rfl
  rw [lastFlush, after_bind_ok (result_flush m), hflush]
  split <;> rfl

theorem program_eq (fuel : Nat) : program fuel = unflushed fuel >>= fun _ => lastFlush := by
  have hassoc : (unflushed fuel >>= fun _ => lastFlush) = (do
      loadProgram
      modify fun m => { m with running := true, pointer := 0 }
      cycle (exec fuel) fuel fuel
      announceEnd (exec fuel)
      lastFlush) := by
    simp only [unflushed, bind_assoc]
  exact Eq.trans rfl hassoc.symm

namespace Carries

variable {c : Conduct} {P : (α : Type) → Action α → Prop} {feeds : Feed → Prop} {self : Dispatch}

theorem bind (h : Carries c P feeds) {α β : Type} {x : Action α} {f : α → Action β} (hx : P α x)
    (hf : ∀ a, P β (f a)) : P β (x >>= f) := h.bind_of_result hx fun _ a _ _ => hf a

theorem keep (h : Carries c P feeds) {α : Type} {f : Machine → α × Machine}
    (hheld : ∀ m, (f m).2.held = m.held)
    (haside : ∀ m trace arguments history, f { m with trace, arguments, history }
      = ((f m).1, { (f m).2 with trace, arguments, history })) : P α (modifyGet f) :=
  h.change (.of_held hheld haside)

/-! ## Commands -/

theorem gotoLabel (h : Carries c P feeds) (label : Text) : P Unit (gotoLabel label) := by
  refine h.look (fun _ _ _ _ _ => rfl) fun m _ => ?_
  split
  · refine h.look (fun _ _ _ _ _ => rfl) fun m _ => h.bind (h.note _ _) fun _ => ?_
    exact h.bind (h.keep (fun _ => rfl) fun _ _ _ _ => rfl) fun _ => h.mark trivial
  · exact h.fail _

theorem makeSynonym (h : Carries c P feeds) (name : Text) {existing : Text} (hs : c.builtin .synonym)
    (he : c.token existing) : P Unit (makeSynonym name existing) := by
  refine h.look (fun _ _ _ _ _ => rfl) fun m hm => ?_
  split
  · rename_i registry ha
    -- the new registry is that of the machine that was read, with a name that leads where another does
    obtain ⟨effect, hl, rfl⟩ := Registry.alias?_eq_some ha
    have hgood := hm.good.register name (hm.good.registry _ effect he hl)
    refine h.bind (h.change ⟨fun _ => rfl, fun _ _ _ _ => rfl, fun _ _ => ?_, fun m' hm' => ?_⟩)
      fun _ => h.mark trivial
    · exact ⟨fun _ => rfl, fun _ hno => absurd hs hno⟩
    · exact hm'.congr ⟨hgood.registry, hm'.good.listeners, hm'.good.object, hm'.good.stack⟩ rfl rfl
  · exact h.fail _

theorem defineCommand (h : Carries c P feeds) (name : Text) {ex : Executable} (hd : c.builtin .define)
    (hex : c.Fit ex) : P Unit (defineCommand name ex) := by
  refine h.bind (h.change ⟨fun _ => rfl, fun _ _ _ _ => rfl, fun _ _ => ?_, fun m hm => ?_⟩)
    fun _ => h.mark trivial
  · exact ⟨fun _ => rfl, fun hno _ => absurd hd hno⟩
  · exact hm.congr (hm.good.register name (show c.Sound (.apply ex) from hex)) rfl rfl

theorem pushOnto (h : Carries c P feeds) (ref : StackRef) {v : Value} (hv : c.Harmless v) :
    P Unit (pushOnto ref v) := by
  refine h.bind ?_ fun _ => ?_
  · unfold recordNesting
    split
    · exact h.pure ()
    · exact h.look (fun _ _ _ _ _ => rfl) fun m _ => h.mark trivial
  · refine h.change ⟨fun _ => rfl, fun _ _ _ _ => rfl, fun _ _ => ?_, fun m hm => ?_⟩
    · exact ⟨fun _ => rfl, fun _ _ => rfl⟩
    · exact hm.congr (hm.good.push ref hv) rfl rfl

theorem effectOf (h : Carries c P feeds) (name : Text) : P Effect (effectOf name) := by
  refine h.look (fun _ _ _ _ _ => rfl) fun m _ => ?_
  split
  · exact h.pure _
  · exact h.fail _

/-- What lifts holds of all commands. -/
theorem routine (h : Carries c P feeds) {α : Type} {x : Action α} {post : α → Prop}
    (hx : Routine c x post) : P α x := by
  induction hx with
  | pure ha => exact h.pure _
  | bind hx hf ihx ihf =>
      -- what follows is a routine only for results that meet the postcondition of the first part
      exact h.bind_of_result ihx fun m a good hr => ihf a ((hx.spec m good).2 a hr)
  | @read _ k _ hk ha _ ih =>
      refine h.look (fun m trace arguments history harguments => ?_) fun m hm => ih m hm.good
      have hcore : k { m with trace, arguments, history } = k { m with arguments } := by
        rw [hk, hk { m with arguments }]
        rfl
      rw [hcore]
      rcases ha with harg | ha
      · rw [harguments harg]
      · exact ha m arguments
  | unfinished | panicked => exact h.throw nofun
  | fail fault _ => exact h.fail fault
  | outOfBounds error => exact h.outOfBounds error
  | note mark message => exact h.note mark message
  | indented _ ih => exact h.indented ih
  | record o ho => exact h.mark (Conduct.plain_of_notes ho)
  | calls hself event payload _ ih => exact h.calls event payload hself ih
  | effectOf => exact h.effectOf _
  | write delivery bytes => exact h.write delivery bytes
  | quiet hf => exact h.change (.of_quiet hf)
  | makeSynonym name hs he => exact h.makeSynonym name hs he
  | gotoLabel label _ => exact h.gotoLabel label
  | onStack ref hs _ =>
      exact h.change (.of_change (fun _ => rfl) (fun _ _ => .take ref (hs _)) fun _ _ _ _ => rfl)
  | pushOnto ref _ hv => exact h.pushOnto ref hv
  | setObject key hv =>
      exact h.change (.of_change (fun _ => rfl) (fun _ _ => .setObject key hv) fun _ _ _ _ => rfl)
  | setStorage storage hw =>
      exact h.change (.of_change (fun _ => rfl) (fun _ _ => .setStorage storage hw) fun _ _ _ _ => rfl)
  | defineCommand name hd hex => exact h.defineCommand name hd hex
  | listen event hl hex =>
      exact h.change (.of_change (fun _ => rfl) (fun _ _ => .listen event hl hex) fun _ _ _ _ => rfl)
  | stopRunning | skipLine =>
      exact h.bind (h.keep (fun _ => rfl) fun _ _ _ _ => rfl) fun _ => h.mark trivial

end Carries

namespace Loops

variable {c : Conduct} {P : (α : Type) → Action α → Prop} {feeds : Feed → Prop} {self : Dispatch}

theorem keep (h : Loops c P feeds) {α : Type} {f : Machine → α × Machine}
    (hheld : ∀ m, (f m).2.held = m.held)
    (haside : ∀ m trace arguments history, f { m with trace, arguments, history }
      = ((f m).1, { (f m).2 with trace, arguments, history })) : P α (modifyGet f) := by
  refine h.change (.of_held hheld haside) fun m => ?_
  have hm := hheld m
  simp only [Machine.held, Prod.mk.injEq] at hm
  exact ⟨hm.2.2.2.2.1, hm.2.2.2.2.2.2.2⟩

/-! ## The loop -/

theorem drain (h : Loops c P feeds) (hself : Routine.Dispatches c self) (count : Nat) :
    P Unit (drain self count) := by
  induction count with
  | zero =>
      refine h.look (fun _ _ _ _ _ => rfl) fun m _ => ?_
      split
      · exact h.pure ()
      · exact h.throw nofun
  | succ count ih =>
      refine h.look (fun _ _ _ _ _ => rfl) fun m _ => ?_
      split
      · exact h.pure ()
      · refine h.bind (h.keep (fun _ => rfl) fun _ _ _ _ => rfl) fun _ => ?_
        refine h.bind (h.pace trivial) fun _ => ?_
        exact h.bind (h.commands (Routine.trigger hself "jump" _)) fun _ => ih

theorem inside (h : Loops c P feeds) : P Bool (get >>= fun m => Pure.pure (decide (0 ≤ m.pointer))) :=
  h.look (fun _ _ _ _ _ => rfl) fun _ _ => h.pure _

theorem fetchFrom (h : Loops c P feeds) {feed : Feed} (hfeed : feeds feed) {texts : List Text}
    (htexts : ∀ text ∈ texts, ∀ t ∈ text.words, c.token t) : P Bool (fetchFrom feed texts) := by
  induction texts with
  | nil =>
      refine h.look (fun _ _ _ _ _ => rfl) fun m _ => ?_
      split
      · refine h.bind (h.turn hfeed) fun _ => ?_
        split
        · exact h.halt nofun
        · refine h.bind (h.change ?_ fun _ => ⟨rfl, rfl⟩) fun _ => h.pure false
          refine ⟨fun _ => rfl, fun _ _ _ _ => rfl, fun _ _ => ⟨fun _ => rfl, fun _ _ => rfl⟩, fun m hm => ?_⟩
          refine ⟨hm.good.congr rfl rfl rfl fun _ => rfl, fun tokens htokens => ?_, nofun⟩
          exact hm.admits tokens (List.mem_append_left _ (by simpa [Machine.script] using htokens))
      · exact h.inside
  | cons text rest ih =>
      obtain ⟨htext, hrest⟩ := List.forall_mem_cons.mp htexts
      refine h.look (fun _ _ _ _ _ => rfl) fun m _ => ?_
      split
      · refine h.bind (h.turn hfeed) fun _ => h.bind (h.change ?_ fun _ => ⟨rfl, rfl⟩) fun _ => ih hrest
        refine ⟨fun _ => rfl, fun _ _ _ _ => rfl, fun _ _ => ⟨fun _ => rfl, fun _ _ => rfl⟩, fun m hm => ?_⟩
        refine ⟨hm.good.congr rfl rfl rfl fun _ => rfl, fun tokens htokens => ?_, ?_⟩
        · -- a line that was there, the new one, or one that the feed still holds
          have hmem : tokens ∈ m.lines.toList.map Line.tokens ∨ tokens = text.words ∨
              ∃ other ∈ rest, other.words = tokens := by
            simpa [Machine.script, Machine.addLine, or_assoc] using htokens
          rcases hmem with hold | rfl | ⟨other, hother, rfl⟩
          · exact hm.admits tokens (List.mem_append_left _ hold)
          · exact htext
          · exact hrest other hother
        · rintro _ ⟨⟩
          exact h.rest rest hfeed
      · exact h.inside

theorem fetch (h : Loops c P feeds) : P Bool fetch := by
  refine h.look (fun _ _ _ _ _ => rfl) fun m hm => ?_
  split
  · exact h.pure _
  · rename_i feed hfeed
    refine h.fetchFrom (hm.fed feed hfeed) fun text htext => ?_
    refine hm.admits text.words (List.mem_append_right _ ?_)
    rw [hfeed]
    exact List.mem_map_of_mem htext

theorem step (h : Loops c P feeds) (hself : Routine.Dispatches c self) : P Unit (step self) := by
  refine h.look (fun _ _ _ _ _ => rfl) fun m hm => ?_
  split
  · exact h.pure ()
  · rename_i line hline
    have htokens := hm.admits.of_line hline
    refine h.bind (h.pace trivial) fun _ => ?_
    split
    · exact h.pure ()
    · refine h.bind (h.note _ _) fun _ => ?_
      exact h.bind (h.commands (hself.routine _ htokens)) fun _ => h.pure ()

theorem checkInterruption (h : Loops c P feeds) : P Unit checkInterruption := by
  refine h.look (fun _ _ _ _ _ => rfl) fun m _ => ?_
  split
  · exact h.halt nofun
  · exact h.pure ()

theorem cycle (h : Loops c P feeds) (hself : Routine.Dispatches c self) (jumps count : Nat) :
    P Unit (cycle self jumps count) := by
  induction count with
  | zero => exact h.throw nofun
  | succ count ih =>
      refine h.bind (h.drain hself jumps) fun _ => h.look (fun _ _ _ _ _ => rfl) fun m _ => ?_
      split
      · refine h.bind h.fetch fun found => ?_
        split
        · refine h.look (fun _ _ _ _ _ => rfl) fun m _ => h.bind (h.pace trivial) fun _ => ?_
          refine h.bind h.checkInterruption fun _ => h.bind (h.step hself) fun _ => ?_
          exact h.bind (h.keep (fun _ => rfl) fun _ _ _ _ => rfl) fun _ => ih
        · exact h.pure ()
      · exact h.pure ()

theorem announceEnd (h : Loops c P feeds) (hself : Routine.Dispatches c self) :
    P Unit (announceEnd self) := by
  refine h.bind (h.keep (fun _ => rfl) fun _ _ _ _ => rfl) fun _ => ?_
  refine h.look (fun _ _ _ _ _ => rfl) fun m _ => h.bind (h.note _ _) fun _ => ?_
  exact h.bind (h.pace trivial) fun _ => h.commands (Routine.trigger hself "end" [])

/-! ## Loading

A line that is loaded can have any tokens, so loading keeps to the free conduct only. -/

theorem loadLines (h : Loops .free P feeds) (count : Nat) : P Unit (loadLines count) := by
  induction count with
  | zero => exact h.pure ()
  | succ count ih =>
      refine h.bind (h.keep (fun _ => rfl) fun _ _ _ _ => rfl) fun result => ?_
      split
      · refine h.bind (h.change ?_ fun _ => ⟨rfl, rfl⟩) fun _ => ih
        refine ⟨fun _ => rfl, fun _ _ _ _ => rfl, fun _ _ => ⟨fun _ => rfl, fun _ _ => rfl⟩, ?_⟩
        exact fun m hm => Conduct.free_holds hm.fed
      · exact h.halt nofun
      · exact h.pure ()

theorem loadProgram (h : Loops .free P feeds) : P Unit loadProgram := by
  refine h.look (fun _ _ _ _ _ => rfl) fun m _ => h.bind (h.loadLines _) fun _ => ?_
  refine h.look (fun _ _ _ _ _ => rfl) fun m _ => ?_
  split
  · exact h.emptyProgram
  · exact h.pure ()

/-- What goes through the loop holds of everything that a run does before its last flush. -/
theorem unflushed (h : Loops .free P feeds) (fuel : Nat) : P Unit (unflushed fuel) := by
  have hself : Routine.Dispatches .free (exec fuel) := Routine.exec fuel
  refine h.bind h.loadProgram fun _ => ?_
  refine h.bind (h.keep (fun _ => rfl) fun _ _ _ _ => rfl) fun _ => ?_
  exact h.bind (h.cycle hself fuel fuel) fun _ => h.announceEnd hself

end Loops

namespace Carries

variable {c : Conduct} {P : (α : Type) → Action α → Prop} {feeds : Feed → Prop} {self : Dispatch}

theorem loops (h : Carries c P feeds) : Loops c P feeds where
  pure := h.pure
  bind := h.bind
  look := h.look
  throw := h.throw
  halt := h.halt
  emptyProgram := h.fail .emptyProgram
  note := h.note
  pace ho := h.mark ho.plain
  change hf _ := h.change hf
  turn := h.turn
  rest := h.rest
  commands := h.routine

theorem cycle (h : Carries c P feeds) (hself : Routine.Dispatches c self) (jumps count : Nat) :
    P Unit (cycle self jumps count) := h.loops.cycle hself jumps count

theorem announceEnd (h : Carries c P feeds) (hself : Routine.Dispatches c self) :
    P Unit (announceEnd self) := h.loops.announceEnd hself

theorem unflushed (h : Carries .free P feeds) (fuel : Nat) : P Unit (unflushed fuel) :=
  h.loops.unflushed fuel

end Carries

end Linewise
