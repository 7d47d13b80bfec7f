import Linewise.Proofs.Routine
import Mathlib.Logic.Relation

/-!
# What commands can change

A command changes the machine by a sequence of elementary changes (`Routine.spec`), whether it has a
result or stops. A `Change` lists what one of them can do, and what it needs for that; whatever is kept
by each is kept by all commands. In particular nothing that a command stores, defines or gives back
leads out of the conduct (`Routine.keeps`).
-/

namespace Linewise

open Machine Linewise.Action

namespace Conduct

variable {c : Conduct} {m m' : Machine}

/-- What a good state depends on. -/
theorem Good.congr (good : c.Good m) (registry : m'.registry = m.registry)
    (listeners : m'.listeners = m.listeners) (object : m'.object = m.object)
    (stack : ∀ ref, m'.heap.stack ref = m.heap.stack ref) : c.Good m' where
  registry := by rw [registry]; exact good.registry
  listeners := by rw [listeners]; exact good.listeners
  object := by rw [object]; exact good.object
  stack := by
    intro ref v hv
    rw [stack] at hv
    exact good.stack ref v hv

theorem Good.quiet {α : Type} {f : Machine → α × Machine} (hf : Quiet f) (good : c.Good m) :
    c.Good (f m).2 := by
  obtain ⟨_, _, _, _, _, _, h⟩ := hf.frame m
  refine good.congr ?_ ?_ ?_ (hf.stack m) <;> rw [h]

theorem Good.register (good : c.Good m) (name : Text) {effect : Effect} (he : c.Sound effect) :
    c.Good { m with registry := m.registry.register name effect } where
  registry := by
    intro other found htoken h
    rw [Registry.lookup_register] at h
    split at h
    · cases h
      exact he
    · exact good.registry other found htoken h
  listeners := good.listeners
  object := good.object
  stack := good.stack

theorem Good.listen (good : c.Good m) (event : Text) {ex : Executable} (hl : c.listening)
    (hex : c.Fit ex) : c.Good (m.listen event ex) where
  registry := good.registry
  listeners := by
    intro other exs h ex' hmem
    simp only [Machine.listen, Dict.get?_insert] at h
    split at h
    · cases h
      rcases List.mem_append.mp hmem with hold | hnew
      · cases hget : m.listeners.get? event with
        | none => simp [hget] at hold
        | some old =>
            rw [hget] at hold
            exact good.listeners event old hget ex' hold
      · rw [List.mem_singleton.mp hnew]
        exact ⟨hl, hex⟩
    · exact good.listeners other exs h ex' hmem
  object := good.object
  stack := good.stack

theorem Good.setObject (good : c.Good m) (key : Text) {v : Value} (hv : c.Harmless v) :
    c.Good { m with object := m.object.insert key v } where
  registry := good.registry
  listeners := good.listeners
  object := by
    intro other w h
    rw [Dict.get?_insert] at h
    split at h
    · cases h
      exact hv
    · exact good.object other w h
  stack := good.stack

theorem Good.setStack (good : c.Good m) (ref : StackRef) {s : Stack Value}
    (hs : ∀ v ∈ s.items, c.Harmless v) : c.Good { m with heap := m.heap.setStack ref s } where
  registry := good.registry
  listeners := good.listeners
  object := good.object
  stack := by
    intro other v hv
    rcases Heap.mem_setStack hv with hold | ⟨-, hnew⟩
    · exact good.stack other v hold
    · exact hs v hnew

theorem Good.push (good : c.Good m) (ref : StackRef) {v : Value} (hv : c.Harmless v) :
    c.Good { m with heap := m.heap.setStack ref ((m.heap.stack ref).push v) } :=
  good.setStack ref (List.forall_mem_cons.mpr ⟨hv, good.stack ref⟩)

end Conduct

/-- What one elementary step of a command does to the machine. -/
inductive Change (c : Conduct) (m : Machine) : Machine → Prop
  | trace (trace : Option Trace) : Change c m { m with trace }
  | record (o : Occurrence) (h : c.Records o) (he : ¬ o.Enters) :
      Change c m { m with history := m.moment o :: m.history }
  | write (delivery : Delivery) (bytes : Text) :
      Change c m { m with sink := (m.sink.write delivery bytes).2 }
  | flush : Change c m { m with sink := m.sink.flush.2 }
  | quiet {α : Type} {f : Machine → α × Machine} (h : Quiet f) : Change c m (f m).2
  | take (ref : StackRef) {s : Stack Value} (h : s.items ⊆ (m.heap.stack ref).items) :
      Change c m { m with heap := m.heap.setStack ref s }
  | push (ref : StackRef) {v : Value} (hv : c.Harmless v) (hr : v.stackRefs = []) :
      Change c m { m with heap := m.heap.setStack ref ((m.heap.stack ref).push v) }
  | nest (ref : StackRef) {v : Value} (h : c.builtin .push) (hv : c.Harmless v) :
      Change c m { m with
        heap := m.heap.setStack ref ((m.heap.stack ref).push v)
        history := m.moment (.nested ref v.stackRefs m.heap.links) :: m.history }
  | setObject (key : Text) {v : Value} (h : c.Harmless v) :
      Change c m { m with object := m.object.insert key v }
  | setStorage (storage : Storage) (h : c.builtin .write) : Change c m { m with storage }
  | define (name : Text) {ex : Executable} (h : c.builtin .define) (hex : c.Fit ex) :
      Change c m { m with
        registry := m.registry.register name (.apply ex)
        history := m.moment (.defined name ex) :: m.history }
  | synonym (name : Text) {existing : Text} {effect : Effect} (h : c.builtin .synonym)
      (hl : m.registry.lookup existing = some effect) (he : c.Sound effect) :
      Change c m { m with
        registry := m.registry.register name effect
        history := m.moment (.aliased name existing) :: m.history }
  | listen (event : Text) {ex : Executable} (h : c.listening) (hex : c.Fit ex) :
      Change c m (m.listen event ex)
  | stop (h : c.builtin .exit ∨ c.listening) :
      Change c m { m with
        running := false
        history := { m with running := false }.moment .stopped :: m.history }
  | jump (label : Text) (target : Nat) (h : c.builtin .goto) (hl : m.labels.get? label = some target) :
      Change c m { m with
        pointer := (target : Int) - 1
        queue := m.queue ++ [target]
        history := ⟨.jumped label target, (target : Int) - 1, m.running, m.queue ++ [target],
          m.lines.size, m.labels, m.listeners, m.interruption, m.sink⟩ :: m.history }
  | skip (h : c.builtin .branch) :
      Change c m { m with
        pointer := m.pointer + 1
        history := { m with pointer := m.pointer + 1 }.moment .skipped :: m.history }

/-- What a command can do to the machine. -/
abbrev Changes (c : Conduct) : Machine → Machine → Prop := Relation.ReflTransGen (Change c)

/-- Nothing that a command does leads out of the conduct. -/
theorem Change.good {c : Conduct} {m m' : Machine} (h : Change c m m') (good : c.Good m) : c.Good m' := by
  cases h with
  | quiet hf => exact good.quiet hf
  | take ref hs => exact good.setStack ref fun v hv => good.stack ref v (hs hv)
  | push ref hv _ => exact good.push ref hv
  | nest ref _ hv => exact (good.push ref hv).congr rfl rfl rfl fun _ => rfl
  | setObject key hv => exact good.setObject key hv
  | @define name ex _ hex =>
      exact (good.register name (show c.Sound (.apply ex) from hex)).congr rfl rfl rfl fun _ => rfl
  | synonym name _ _ he => exact (good.register name he).congr rfl rfl rfl fun _ => rfl
  | listen event hl hex => exact good.listen event hl hex
  | _ => exact good.congr rfl rfl rfl fun _ => rfl

theorem Changes.good {c : Conduct} {m m' : Machine} (h : Changes c m m') (good : c.Good m) :
    c.Good m' := by
  induction h with
  | refl => exact good
  | tail _ hm ih => exact hm.good ih

theorem changes_halted {c : Conduct} (m : Machine) (f : Failure) : Changes c m (m.halted f) :=
  (Relation.ReflTransGen.single .flush).tail (.trace _)

/-- An action that changes a good machine as commands do. -/
def Abides (c : Conduct) {α : Type} (x : Action α) : Prop := ∀ m, c.Good m → Changes c m (x.after m)

theorem calling_abides (c : Conduct) : Calling c fun _ x => Abides c x where
  pure _ _ _ := .refl
  bind {α β x f} hx hf := by
    intro m good
    cases hr : x.result m with
    | error e =>
        rw [after_bind_error hr]
        exact hx m good
    | ok a =>
        rw [after_bind_ok hr]
        exact (hx m good).trans (hf a _ ((hx m good).good good))
  look _ h m good := h m good m good
  unfinished _ _ := .refl
  note mark message := by
    intro m _
    obtain ⟨trace, h⟩ := after_note mark message m
    rw [h]
    exact .single (.trace trace)
  record ho _ _ := .single (.record _ (c.records_of_calls ho) (c.not_enters_of_calls ho))

namespace Routine

variable {c : Conduct} {α : Type} {x : Action α} {post : α → Prop}

/-- A command is a sequence of elementary changes, whether it has a result or stops, and its result is
as announced. -/
theorem spec (h : Routine c x post) : ∀ m : Machine, c.Good m →
    Changes c m (x.after m) ∧ ∀ a, x.result m = .ok a → post a := by
  induction h with
  | pure ha => exact fun m _ => ⟨.refl, fun _ h => by cases h; exact ha⟩
  | @bind α β x f mid post hx hf ihx ihf =>
      intro m good
      obtain ⟨hchanges, hmid⟩ := ihx m good
      cases hr : x.result m with
      | error e =>
          rw [after_bind_error hr, result_bind_error hr]
          exact ⟨hchanges, nofun⟩
      | ok a =>
          rw [after_bind_ok hr, result_bind_ok hr]
          -- the first part has left a good machine to the second
          obtain ⟨hchanges', hpost⟩ := ihf a (hmid a hr) _ (hchanges.good good)
          exact ⟨hchanges.trans hchanges', hpost⟩
  | read hk _ h ih => exact fun m good => ih m good m good
  | unfinished => exact fun m _ => ⟨.refl, nofun⟩
  | panicked value => exact fun m _ => ⟨.refl, nofun⟩
  | fail fault _ =>
      intro m _
      rw [after_fail, result_fail]
      exact ⟨changes_halted m _, nofun⟩
  | outOfBounds error =>
      intro m _
      rw [after_halt, result_halt]
      exact ⟨changes_halted m _, nofun⟩
  | note mark message =>
      intro m _
      obtain ⟨trace, h⟩ := after_note mark message m
      rw [h]
      exact ⟨.single (.trace trace), fun _ _ => trivial⟩
  | indented h ih =>
      intro m good
      obtain ⟨before, after, hr, ha⟩ := after_indented _ m
      obtain ⟨hchanges, hpost⟩ := ih { m with trace := before } (good.congr rfl rfl rfl fun _ => rfl)
      rw [ha, hr]
      exact ⟨((Relation.ReflTransGen.single (.trace before)).trans hchanges).tail (.trace after), hpost⟩
  | record o h =>
      intro m _
      exact ⟨.single (.record o (c.records_of_notes h) (c.not_enters_of_notes h)), fun _ _ => trivial⟩
  | @effectOf name h =>
      intro m good
      cases hl : m.registry.lookup name with
      | none =>
          obtain ⟨hresult, hafter⟩ := effectOf_of_none hl
          rw [hresult, hafter]
          exact ⟨changes_halted m _, nofun⟩
      | some effect =>
          obtain ⟨hresult, hafter⟩ := effectOf_of_some hl
          rw [hresult, hafter]
          refine ⟨.refl, ?_⟩
          rintro _ ⟨⟩
          exact good.registry name effect h hl
  | calls _ event payload _ ih =>
      intro m good
      refine ⟨(calling_abides c).trigger event payload ?_ m good, fun _ _ => trivial⟩
      exact fun ex args hl hex m good => (ih ex args hl hex m good).1
  | write delivery bytes =>
      intro m _
      refine ⟨?_, fun _ _ => trivial⟩
      cases he : (m.sink.write delivery bytes).1.error with
      | some e =>
          rw [(write_of_error he).2]
          exact (Relation.ReflTransGen.single (.write delivery bytes)).trans (changes_halted _ _)
      | none =>
          rw [(write_of_none he).2]
          exact (Relation.ReflTransGen.single (.write delivery bytes)).tail
            (.record (.emitted bytes) trivial id)
  | @quiet _ f hf => exact fun m _ => ⟨.single (.quiet (f := f) hf), fun _ _ => trivial⟩
  | onStack ref hs h =>
      intro m good
      refine ⟨.single (.take ref (hs _)), ?_⟩
      rintro _ ⟨⟩
      exact h (m.heap.stack ref) (good.stack ref)
  | @pushOnto ref v h hv =>
      refine fun m _ => ⟨?_, fun _ _ => trivial⟩
      by_cases hr : v.stackRefs = []
      · rw [(pushOnto_of_plain ref hr m).2]
        exact .single (.push ref hv hr)
      · rw [(pushOnto_of_nested ref hr m).2]
        exact .single (.nest ref h hv)
  | setObject key hv => exact fun m _ => ⟨.single (.setObject key hv), fun _ _ => trivial⟩
  | setStorage storage h => exact fun m _ => ⟨.single (.setStorage storage h), fun _ _ => trivial⟩
  | defineCommand name h hex => exact fun m _ => ⟨.single (.define name h hex), fun _ _ => trivial⟩
  | makeSynonym name h he =>
      intro m good
      refine ⟨?_, fun _ _ => trivial⟩
      cases ha : m.registry.alias? name _ with
      | none =>
          rw [(makeSynonym_of_none ha).2]
          exact changes_halted m _
      | some registry =>
          -- the new name leads where a permitted token already does
          obtain ⟨effect, hl, rfl⟩ := Registry.alias?_eq_some ha
          rw [(makeSynonym_of_some ha).2]
          exact .single (.synonym name h hl (good.registry _ effect he hl))
  | listen event hl hex => exact fun m _ => ⟨.single (.listen event hl hex), fun _ _ => trivial⟩
  | stopRunning h => exact fun m _ => ⟨.single (.stop h), fun _ _ => trivial⟩
  | gotoLabel label h =>
      intro m _
      refine ⟨?_, fun _ _ => trivial⟩
      cases hl : m.labels.get? label with
      | none =>
          rw [(gotoLabel_of_none hl).2]
          exact changes_halted m _
      | some target =>
          rw [(gotoLabel_of_some hl).2]
          exact (Relation.ReflTransGen.single (.jump label target h hl)).tail (.trace _)
  | skipLine h => exact fun m _ => ⟨.single (.skip h), fun _ _ => trivial⟩

/-- Commands stay inside the conduct, and their results are as announced. -/
theorem keeps (h : Routine c x post) (m : Machine) (good : c.Good m) :
    c.Good (x.after m) ∧ ∀ a, x.result m = .ok a → post a :=
  ⟨(h.spec m good).1.good good, (h.spec m good).2⟩

end Routine

/-- Whatever tokens are run as a command, from whatever state. -/
theorem exec_changes (depth : Nat) (tokens : List Text) (m : Machine) :
    Changes .free m ((exec depth tokens).after m) := by
  have hroutine : Routine .free (exec depth tokens) Conduct.free.Harmless :=
    (Routine.exec depth).routine tokens fun _ _ => trivial
  exact (hroutine.spec m (Conduct.free_good m)).1

/-! ## What commands leave alone -/

namespace Sink

/-- A sink that keeps what is written in memory, at once and without ever failing. -/
def InMemory (s : Sink) : Prop :=
  ∃ received, s = .one { Writer.direct .memory with receivedBackwards := received }

theorem InMemory.write {s : Sink} (h : s.InMemory) (delivery : Delivery) (bytes : Text) :
    (s.write delivery bytes).2.InMemory := by
  obtain ⟨received, rfl⟩ := h
  exact ⟨_, rfl⟩

theorem InMemory.flush {s : Sink} (h : s.InMemory) : s.flush = (.none, s) := by
  obtain ⟨received, rfl⟩ := h
  rfl

end Sink

/-- The program of a machine is that of another, and the output is kept in memory if it was. -/
structure SameProgram (m m' : Machine) : Prop where
  feed : m'.feed = m.feed
  lines : m'.lines = m.lines
  labels : m'.labels = m.labels
  sink : m.sink.InMemory → m'.sink.InMemory

theorem SameProgram.refl (m : Machine) : SameProgram m m := ⟨rfl, rfl, rfl, id⟩

theorem Change.sameProgram {c : Conduct} {m m' : Machine} (h : Change c m m') : SameProgram m m' := by
  cases h with
  | write delivery bytes => exact ⟨rfl, rfl, rfl, fun h => h.write delivery bytes⟩
  | flush =>
      refine ⟨rfl, rfl, rfl, fun h => ?_⟩
      show m.sink.flush.2.InMemory
      rw [h.flush]
      exact h
  | quiet hf =>
      obtain ⟨_, _, _, _, _, _, h⟩ := hf.frame m
      rw [h]
      exact ⟨rfl, rfl, rfl, id⟩
  | _ => exact ⟨rfl, rfl, rfl, id⟩

theorem Changes.sameProgram {c : Conduct} {m m' : Machine} (h : Changes c m m') : SameProgram m m' := by
  induction h with
  | refl => exact .refl m
  | tail _ hm ih =>
      have hlast := hm.sameProgram
      exact ⟨hlast.feed.trans ih.feed, hlast.lines.trans ih.lines, hlast.labels.trans ih.labels,
        hlast.sink ∘ ih.sink⟩

end Linewise
