import Linewise.Machine.Run

/-!
# Running an action

An action on a machine has a result and leaves a machine behind. Both are read off here for the ways in
which actions are put together; what was done before a stop stays done, so a sequence that stops in its
first part leaves the machine of that part.
-/

namespace Linewise

namespace Action

variable {α β : Type}

/-- The result of an action on a machine. -/
def result (x : Action α) (m : Machine) : Except Stop α := (x.run.run m).1

/-- The machine after an action. -/
def after (x : Action α) (m : Machine) : Machine := (x.run.run m).2

@[simp] theorem result_pure (a : α) (m : Machine) : result (pure a) m = .ok a := rfl

@[simp] theorem after_pure (a : α) (m : Machine) : after (pure a : Action α) m = m := rfl

@[simp] theorem result_throw (e : Stop) (m : Machine) : result (throw e : Action α) m = .error e := rfl

@[simp] theorem after_throw (e : Stop) (m : Machine) : after (throw e : Action α) m = m := rfl

@[simp] theorem result_modifyGet (f : Machine → α × Machine) (m : Machine) :
    result (modifyGet f) m = .ok (f m).1 := rfl

@[simp] theorem after_modifyGet (f : Machine → α × Machine) (m : Machine) :
    after (modifyGet f : Action α) m = (f m).2 := rfl

@[simp] theorem result_modify (f : Machine → Machine) (m : Machine) :
    result (modify f : Action Unit) m = .ok () := rfl

@[simp] theorem after_modify (f : Machine → Machine) (m : Machine) :
    after (modify f : Action Unit) m = f m := rfl

@[simp] theorem result_get_bind (k : Machine → Action α) (m : Machine) :
    result (get >>= k) m = (k m).result m := rfl

@[simp] theorem after_get_bind (k : Machine → Action α) (m : Machine) :
    after (get >>= k) m = (k m).after m := rfl

theorem run_get_bind (k : Machine → Action α) (m : Machine) :
    (get >>= k).run.run m = (k m).run.run m := rfl

theorem run_bind (x : Action α) (f : α → Action β) (m : Machine) :
    (x >>= f).run.run m = match x.result m with
      | .ok a => (f a).run.run (x.after m)
      | .error e => (.error e, x.after m) := by
  rcases h : x.run.run m with ⟨r, m'⟩
  simp only [result, after, h, ExceptT.run_bind, StateT.run_bind]
  cases r <;> rfl

/-- What follows does not see by which action the machine came to be what it is. -/
theorem run_bind_congr {x y : Action α} {m m' : Machine} (h : x.run.run m = y.run.run m')
    (f : α → Action β) : (x >>= f).run.run m = (y >>= f).run.run m' := by
  rw [run_bind, run_bind, result, after, result, after, h]

theorem run_bind_of_ok {x : Action α} {m m' : Machine} {a : α} (h : x.run.run m = (.ok a, m'))
    (f : α → Action β) : (x >>= f).run.run m = (f a).run.run m' := by
  rw [run_bind, result, after, h]

theorem run_bind_of_error {x : Action α} {m m' : Machine} {e : Stop} (h : x.run.run m = (.error e, m'))
    (f : α → Action β) : (x >>= f).run.run m = (.error e, m') := by
  rw [run_bind, result, after, h]

/-- A sequence goes on from the machine that its first part leaves. -/
theorem result_bind_ok {x : Action α} {f : α → Action β} {m : Machine} {a : α}
    (h : x.result m = .ok a) : (x >>= f).result m = (f a).result (x.after m) := by
  show ((x >>= f).run.run m).1 = _
  rw [run_bind, h]
  rfl

theorem after_bind_ok {x : Action α} {f : α → Action β} {m : Machine} {a : α}
    (h : x.result m = .ok a) : (x >>= f).after m = (f a).after (x.after m) := by
  show ((x >>= f).run.run m).2 = _
  rw [run_bind, h]
  rfl

/-- A stop in the first part of a sequence is the end of it. -/
theorem result_bind_error {x : Action α} {f : α → Action β} {m : Machine} {e : Stop}
    (h : x.result m = .error e) : (x >>= f).result m = .error e := by
  show ((x >>= f).run.run m).1 = _
  rw [run_bind, h]

theorem after_bind_error {x : Action α} {f : α → Action β} {m : Machine} {e : Stop}
    (h : x.result m = .error e) : (x >>= f).after m = x.after m := by
  show ((x >>= f).run.run m).2 = _
  rw [run_bind, h]

/-- A result that can be computed tells how an action runs. -/
theorem run_of_toOption {x : Action α} {m : Machine} {a : α}
    (h : (x.result m).toOption = some a) : x.run.run m = (.ok a, x.after m) := by
  cases hr : x.result m with
  | ok b =>
      rw [hr] at h
      cases h
      exact Prod.ext hr rfl
  | error e =>
      rw [hr] at h
      cases h

end Action

namespace Machine

open Linewise.Action

variable {α : Type}

/-! ## Elementary actions -/

@[simp] theorem result_record (o : Occurrence) (m : Machine) : (record o).result m = .ok () := rfl

@[simp] theorem after_record (o : Occurrence) (m : Machine) :
    (record o).after m = { m with history := m.moment o :: m.history } := rfl

theorem result_flush (m : Machine) : flush.result m = .ok m.sink.flush.1 := rfl

theorem after_note (mark : Char) (message : Heap → Option Text) (m : Machine) :
    ∃ trace, (note mark message).after m = { m with trace } := by
  simp only [note, after_get_bind]
  split
  · exact ⟨m.trace, rfl⟩
  · split
    · exact ⟨m.trace, rfl⟩
    · exact ⟨_, rfl⟩

theorem note_of_none {mark : Char} {message : Heap → Option Text} {m : Machine} (h : m.trace = none) :
    (note mark message).run.run m = (.ok (), m) := by
  rw [note, run_get_bind, h]
  rfl

theorem note_of_some {mark : Char} {message : Heap → Option Text} {m : Machine} {t : Trace}
    (h : m.trace = some t) : (note mark message).run.run m = match message m.heap with
      | none => (.error .unfinished, m)
      | some s => (.ok (), { m with trace := some (t.add mark s) }) := by
  rw [note, run_get_bind, h]
  cases message m.heap <;> rfl

/-- Taking a note can only fail over a text that never ends. -/
theorem note_stop {mark : Char} {message : Heap → Option Text} {m : Machine} {e : Stop}
    (h : (note mark message).result m = .error e) : e = .unfinished := by
  simp only [note, result_get_bind] at h
  split at h
  · cases h
  · split at h
    · cases h
      rfl
    · cases h

/-- A message that needs no value can always be noted. -/
theorem result_note_some (mark : Char) (s : Text) (m : Machine) :
    (note mark fun _ => some s).result m = .ok () := by
  simp only [note, result_get_bind]
  split <;> rfl

theorem after_note_some (mark : Char) (s : Text) (m : Machine) :
    (note mark fun _ => some s).after m = { m with trace := m.trace.map fun t => t.add mark s } := by
  simp only [note, after_get_bind]
  split
  · rename_i h
    rw [h, Option.map_none, after_pure, ← h]
  · rename_i t h
    rw [h]
    rfl

/-- What halting leaves behind: everything that was written is flushed, and the failure is noted. -/
def halted (m : Machine) (f : Failure) : Machine :=
  { m with
    sink := m.sink.flush.2
    trace := m.trace.map fun t => t.add '#' (Text.ofString "halt error: " ++ f.message) }

theorem after_halt (f : Failure) (m : Machine) : (halt f : Action α).after m = m.halted f := by
  have hnote := result_note_some '#' (Text.ofString "halt error: " ++ f.message) (flush.after m)
  rw [halt, after_bind_ok (a := m.sink.flush.1) rfl, after_bind_ok hnote]
  exact after_note_some '#' _ (flush.after m)

theorem result_halt (f : Failure) (m : Machine) :
    (halt f : Action α).result m = .error (.halted f) := by
  have hnote := result_note_some '#' (Text.ofString "halt error: " ++ f.message) (flush.after m)
  rw [halt, result_bind_ok (a := m.sink.flush.1) rfl, result_bind_ok hnote]
  rfl

theorem after_fail (fault : Fault) (m : Machine) :
    (fail fault : Action α).after m = m.halted (.fatal (some m.pointer) fault) := by
  rw [fail, after_get_bind]
  exact after_halt _ m

theorem result_fail (fault : Fault) (m : Machine) :
    (fail fault : Action α).result m = .error (.halted (.fatal (some m.pointer) fault)) := by
  rw [fail, result_get_bind]
  exact result_halt _ m

/-- Writing bytes changes the sink; if that fails the machine halts, else it is recorded. -/
theorem write_of_error {delivery : Delivery} {bytes : Text} {m : Machine} {e : WriteError}
    (h : (m.sink.write delivery bytes).1.error = some e) :
    (write delivery bytes).result m = .error (.halted (.output e)) ∧
      (write delivery bytes).after m
        = { m with sink := (m.sink.write delivery bytes).2 }.halted (.output e) := by
  have hw : (write delivery bytes).run.run m
      = (halt (.output e) : Action Unit).run.run { m with sink := (m.sink.write delivery bytes).2 } := by
    rw [write, run_bind]
    simp only [result_modifyGet, after_modifyGet, h]
  exact ⟨(congrArg Prod.fst hw).trans (result_halt _ _), (congrArg Prod.snd hw).trans (after_halt _ _)⟩

theorem write_of_none {delivery : Delivery} {bytes : Text} {m : Machine}
    (h : (m.sink.write delivery bytes).1.error = none) :
    (write delivery bytes).result m = .ok () ∧
      (write delivery bytes).after m = (record (.emitted bytes)).after
        { m with sink := (m.sink.write delivery bytes).2 } := by
  have hw : (write delivery bytes).run.run m
      = (record (.emitted bytes)).run.run { m with sink := (m.sink.write delivery bytes).2 } := by
    rw [write, run_bind]
    simp only [result_modifyGet, after_modifyGet, h]
  exact ⟨congrArg Prod.fst hw, congrArg Prod.snd hw⟩

/-- What a jump leaves behind. -/
def jumped (m : Machine) (label : Text) (target : Nat) : Machine :=
  { m with
    trace := m.trace.map fun t => t.add '^' (Text.ofString "jump " ++ Text.ofInt m.pointer ++
      Text.ofString " -> " ++ Text.ofNat target)
    pointer := (target : Int) - 1
    queue := m.queue ++ [target]
    history := ⟨.jumped label target, (target : Int) - 1, m.running, m.queue ++ [target],
      m.lines.size, m.labels, m.listeners, m.interruption, m.sink⟩ :: m.history }

/-- A jump always succeeds: tracing it needs no value. -/
theorem jump_spec (label : Text) (target : Nat) (m : Machine) :
    (jump label target).result m = .ok () ∧ (jump label target).after m = m.jumped label target := by
  have hresult := result_note_some '^' (Text.ofString "jump " ++
    Text.ofInt m.pointer ++ Text.ofString " -> " ++ Text.ofNat target) m
  refine ⟨?_, ?_⟩
  · rw [jump, result_get_bind, result_bind_ok hresult]
    rfl
  · rw [jump, after_get_bind, after_bind_ok hresult, after_note_some]
    rfl

theorem gotoLabel_of_some {label : Text} {target : Nat} {m : Machine}
    (h : m.labels.get? label = some target) :
    (gotoLabel label).result m = .ok () ∧ (gotoLabel label).after m = m.jumped label target := by
  have hgoto : (gotoLabel label).run.run m = (jump label target).run.run m := by
    simp only [gotoLabel, run_get_bind, h]
  obtain ⟨hresult, hafter⟩ := jump_spec label target m
  exact ⟨(congrArg Prod.fst hgoto).trans hresult, (congrArg Prod.snd hgoto).trans hafter⟩

theorem gotoLabel_of_none {label : Text} {m : Machine} (h : m.labels.get? label = none) :
    (gotoLabel label).result m = .error (.halted (.fatal (some m.pointer) (.unknownLabel label))) ∧
      (gotoLabel label).after m = m.halted (.fatal (some m.pointer) (.unknownLabel label)) := by
  have hgoto : (gotoLabel label).run.run m = (fail (.unknownLabel label) : Action Unit).run.run m := by
    simp only [gotoLabel, run_get_bind, h]
  exact ⟨(congrArg Prod.fst hgoto).trans (result_fail _ m),
    (congrArg Prod.snd hgoto).trans (after_fail _ m)⟩

theorem makeSynonym_of_some {name existing : Text} {m : Machine} {registry : Registry Effect}
    (h : m.registry.alias? name existing = some registry) :
    (makeSynonym name existing).result m = .ok () ∧
      (makeSynonym name existing).after m = { m with
        registry
        history := m.moment (.aliased name existing) :: m.history } := by
  have hs : (makeSynonym name existing).run.run m = (.ok (), { m with
      registry
      history := m.moment (.aliased name existing) :: m.history }) := by
    rw [makeSynonym, run_get_bind, h]
    rfl
  exact ⟨congrArg Prod.fst hs, congrArg Prod.snd hs⟩

theorem makeSynonym_of_none {name existing : Text} {m : Machine}
    (h : m.registry.alias? name existing = none) :
    (makeSynonym name existing).result m
        = .error (.halted (.fatal (some m.pointer) (.unknownCommand existing))) ∧
      (makeSynonym name existing).after m
        = m.halted (.fatal (some m.pointer) (.unknownCommand existing)) := by
  have hs : (makeSynonym name existing).run.run m
      = (fail (.unknownCommand existing) : Action Unit).run.run m := by
    simp only [makeSynonym, run_get_bind, h]
  exact ⟨(congrArg Prod.fst hs).trans (result_fail _ m), (congrArg Prod.snd hs).trans (after_fail _ m)⟩

/-- A value without stacks is pushed, and nothing else happens. -/
theorem pushOnto_of_plain (ref : StackRef) {v : Value} (h : v.stackRefs = []) (m : Machine) :
    (pushOnto ref v).result m = .ok () ∧
      (pushOnto ref v).after m = { m with heap := m.heap.setStack ref ((m.heap.stack ref).push v) } := by
  rw [pushOnto, recordNesting, h]
  exact ⟨rfl, rfl⟩

theorem pushOnto_of_nested (ref : StackRef) {v : Value} (h : v.stackRefs ≠ []) (m : Machine) :
    (pushOnto ref v).result m = .ok () ∧
      (pushOnto ref v).after m = { m with
        heap := m.heap.setStack ref ((m.heap.stack ref).push v)
        history := m.moment (.nested ref v.stackRefs m.heap.links) :: m.history } := by
  rw [pushOnto, recordNesting, if_neg (by simpa using h)]
  exact ⟨rfl, rfl⟩

theorem effectOf_of_some {name : Text} {m : Machine} {effect : Effect}
    (h : m.registry.lookup name = some effect) :
    (effectOf name).result m = .ok effect ∧ (effectOf name).after m = m := by
  have he : (effectOf name).run.run m = (.ok effect, m) := by
    rw [effectOf, run_get_bind, h]
    rfl
  exact ⟨congrArg Prod.fst he, congrArg Prod.snd he⟩

theorem effectOf_of_none {name : Text} {m : Machine} (h : m.registry.lookup name = none) :
    (effectOf name).result m = .error (.halted (.fatal (some m.pointer) (.unknownCommand name))) ∧
      (effectOf name).after m = m.halted (.fatal (some m.pointer) (.unknownCommand name)) := by
  have he : (effectOf name).run.run m = (fail (.unknownCommand name) : Action Effect).run.run m := by
    simp only [effectOf, run_get_bind, h]
  exact ⟨(congrArg Prod.fst he).trans (result_fail _ m), (congrArg Prod.snd he).trans (after_fail _ m)⟩

theorem after_indented (x : Action α) (m : Machine) : ∃ before trace,
    (indented x).result m = x.result { m with trace := before } ∧
      (indented x).after m = { x.after { m with trace := before } with trace } :=
  ⟨_, _, rfl, rfl⟩

end Machine

/-! ## Triggering -/

section Triggering

open Machine Linewise.Action

/-- The texts of a payload; an undefined value is left out. -/
def texts? (heap : Heap) (payload : List Value) : Option (List Text) :=
  (payload.filter fun v => !v matches .undefined).mapM heap.text?

theorem run_mapM_textOf (vs : List Value) (m : Machine) :
    (vs.mapM textOf).run.run m = ((vs.mapM m.heap.text?).elim (.error .unfinished) .ok, m) := by
  have hrun : ∀ v, (textOf v).run.run m = ((m.heap.text? v).elim (.error .unfinished) .ok, m) := by
    intro v
    rw [textOf, run_get_bind]
    cases m.heap.text? v <;> rfl
  induction vs with
  | nil => rfl
  | cons v vs ih =>
      have hv := hrun v
      rw [List.mapM_cons, List.mapM_cons]
      cases ht : m.heap.text? v with
      | none =>
          rw [ht] at hv
          exact run_bind_of_error hv _
      | some s =>
          rw [ht] at hv
          rw [run_bind_of_ok hv]
          cases hts : vs.mapM m.heap.text? with
          | none =>
              rw [hts] at ih
              exact run_bind_of_error ih _
          | some ss =>
              rw [hts] at ih
              exact run_bind_of_ok ih _

theorem run_payload (payload : List Value) (m : Machine) :
    ((payload.filter fun v => !v matches .undefined).mapM textOf).run.run m
      = ((texts? m.heap payload).elim (.error .unfinished) .ok, m) :=
  run_mapM_textOf _ m

/-- Triggering an event that has listeners takes a note, records it, and delivers. -/
theorem run_trigger {self : Dispatch} {event : Text} {payload : List Value} {args : List Text}
    {listeners : List Executable} {m : Machine}
    (hl : m.listeners.get? event = some listeners) (hne : listeners ≠ [])
    (hargs : texts? m.heap payload = some args) :
    ∃ message, (trigger self event payload).run.run m
      = (deliver self event args listeners).run.run { m with
          trace := m.trace.map fun t => t.add '!' message
          history := m.moment (.triggered event args listeners) :: m.history } := by
  let message := Text.ofString "trigger " ++ event ++ (32 :: Quoted.texts args)
  let noted : Machine := { m with trace := m.trace.map fun t => t.add '!' message }
  have htexts := run_payload payload m
  rw [hargs] at htexts
  have hnote : (note '!' fun _ => some message).run.run m = (.ok (), noted) :=
    Prod.ext (result_note_some _ _ m) (after_note_some _ _ m)
  refine ⟨message, ?_⟩
  rw [trigger, run_get_bind, hl]
  cases listeners with
  | nil => exact absurd rfl hne
  | cons ex exs => exact (run_bind_of_ok htexts _).trans (run_bind_of_ok hnote _)

end Triggering

end Linewise
