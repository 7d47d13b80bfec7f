import Linewise.Proofs.Action

/-!
# What commands are made of

Every command, however deeply it nests others, is put together from a few elementary steps. A `Routine`
is an action that is, and `Routine.exec` says that running tokens as a command is one. What holds of the
elementary steps and is kept by sequences therefore holds of all commands, by induction on `Routine`.

Routines are relative to a `Conduct`: which tokens a command may be given, which builtins may be
performed, and whether anything may listen. A conduct is respected as long as the state is `Good`, that
is as long as nothing stored in it leads to tokens outside. In the free conduct everything goes.
-/

namespace Linewise

open Machine

/-- What commands may do. -/
structure Conduct where
  /-- The tokens that commands may be given. -/
  token : Text → Prop
  /-- The builtins that may be performed. -/
  builtin : Builtin → Prop
  /-- Whether events may have listeners, those of the host included. -/
  listening : Prop
  blank : token []
  /-- The arguments of a listener are rendered values, which can be any text. -/
  any_token : listening → ∀ t, token t
  listening_of_listen : builtin .listen → listening

/-- An occurrence that tells of an entry in the registry or on a stack. -/
def Occurrence.Enters : Occurrence → Prop
  | .defined _ _ => True
  | .aliased _ _ => True
  | .nested _ _ _ => True
  | _ => False

namespace Conduct

/-- The conduct that permits everything. -/
def free : Conduct := ⟨fun _ => True, fun _ => True, True, trivial, fun _ _ => trivial, fun _ => trivial⟩

variable (c : Conduct)

/-- An executable that leads to permitted tokens only. -/
def Fit : Executable → Prop
  | .closure _ params => ∀ t ∈ params, c.token t
  | .operator _ => True
  | .host _ => c.listening

/-- A value is harmless if it is not an unfit executable. Nothing takes executables out of a list, so
what a list holds does not matter. -/
def Harmless (v : Value) : Prop := ∀ ex, v = .executable ex → c.Fit ex

/-- Only executables can do harm. -/
theorem harmless_plain {v : Value} (h : ∀ ex, v ≠ .executable ex := by nofun) : c.Harmless v :=
  fun ex hv => absurd hv (h ex)

/-- An effect that a permitted name may have. -/
def Sound : Effect → Prop
  | .builtin b => c.builtin b
  | .apply ex => c.Fit ex
  | .constant v => c.Harmless v

/-- The occurrences that commands record and that do not change the control of the run. -/
def Records : Occurrence → Prop
  | .performed b => c.builtin b
  | .triggered _ _ _ => c.listening
  | .delivered _ _ _ => c.listening
  | .heard _ _ _ _ _ => c.listening
  | .sought _ => True
  | .emitted _ => True
  | .defined _ _ => c.builtin .define
  | .aliased _ _ => c.builtin .synonym
  | .nested _ _ _ => c.builtin .push
  | _ => False

/-- The occurrences that calling listeners records. -/
def Calls : Occurrence → Prop
  | .triggered _ _ _ => c.listening
  | .delivered _ _ _ => c.listening
  | _ => False

/-- The occurrences that commands record by themselves, and not as a part of writing, of calling
listeners, or of an entry in the registry or on a stack. -/
def Notes : Occurrence → Prop
  | .emitted _ => False
  | .triggered _ _ _ => False
  | .delivered _ _ _ => False
  | .defined _ _ => False
  | .aliased _ _ => False
  | .nested _ _ _ => False
  | o => c.Records o

theorem records_of_calls {o : Occurrence} (h : c.Calls o) : c.Records o := by
  cases o with
  | triggered | delivered => exact h
  | _ => exact h.elim

theorem not_enters_of_calls {o : Occurrence} (h : c.Calls o) : ¬ o.Enters := by
  cases o with
  | defined | aliased | nested => exact h.elim
  | _ => exact id

theorem not_enters_of_notes {o : Occurrence} (h : c.Notes o) : ¬ o.Enters := by
  cases o with
  | defined | aliased | nested => exact h.elim
  | _ => exact id

theorem records_of_notes {o : Occurrence} (h : c.Notes o) : c.Records o := by
  cases o with
  | emitted | triggered | delivered | defined | aliased | nested => exact h.elim
  | _ => exact h

/-- Nothing in the machine leads out of the conduct. -/
structure Good (m : Machine) : Prop where
  registry : ∀ name effect, c.token name → m.registry.lookup name = some effect → c.Sound effect
  listeners : ∀ event exs, m.listeners.get? event = some exs → ∀ ex ∈ exs, c.listening ∧ c.Fit ex
  object : ∀ key v, m.object.get? key = some v → c.Harmless v
  stack : ∀ ref, ∀ v ∈ (m.heap.stack ref).items, c.Harmless v

theorem free_fit (ex : Executable) : free.Fit ex := by
  cases ex with
  | closure via params => intro t _; trivial
  | operator op => trivial
  | host id => trivial

theorem free_harmless (v : Value) : free.Harmless v := fun ex _ => free_fit ex

theorem free_sound (effect : Effect) : free.Sound effect := by
  cases effect with
  | builtin b => trivial
  | apply ex => exact free_fit ex
  | constant v => exact free_harmless v

theorem free_good (m : Machine) : free.Good m where
  registry _ effect _ _ := free_sound effect
  listeners _ _ _ ex _ := ⟨trivial, free_fit ex⟩
  object _ v _ := free_harmless v
  stack _ v _ := free_harmless v

end Conduct

namespace Machine

/-- The machine without its program, its trace and its history: what commands work on. -/
def core (m : Machine) : Machine :=
  { m with
    sources := .ofSources [], feed := none, lines := #[], labels := .empty, trace := none
    history := [] }

/-- The core without the arguments of the invocation. -/
def bare (m : Machine) : Machine := { m.core with arguments := [] }

/-- A change that touches only tapes, the names of stacks, the accumulated text and the bookkeeping of
the host, and does not look at more than the core, nor at the arguments of the invocation. A new stack is
empty, as is a place without one, and an interruption stays. -/
structure Quiet {α : Type} (f : Machine → α × Machine) : Prop where
  frame : ∀ m, ∃ hosts heap namedStacks namedTapes text interruption,
    (f m).2 = { m with hosts, heap, namedStacks, namedTapes, text, interruption }
  stack : ∀ m ref, (f m).2.heap.stack ref = m.heap.stack ref
  interruption : ∀ m i, m.interruption = some i → (f m).2.interruption = some i
  core : ∀ m, f m.core = ((f m).1, (f m).2.core)
  arguments : ∀ m arguments, f { m with arguments } = ((f m).1, { (f m).2 with arguments })

end Machine

/-- The actions that are put together from elementary steps, with what is known of their results. -/
inductive Routine (c : Conduct) : {α : Type} → Action α → (α → Prop) → Prop
  | pure {α : Type} {post : α → Prop} {a : α} (h : post a) : Routine c (pure a) post
  | bind {α β : Type} {x : Action α} {f : α → Action β} {mid : α → Prop} {post : β → Prop}
      (hx : Routine c x mid) (hf : ∀ a, mid a → Routine c (f a) post) : Routine c (x >>= f) post
  /-- Reading the machine, or rather its core. The arguments of the invocation are for `arg` only. -/
  | read {α : Type} {k : Machine → Action α} {post : α → Prop} (hk : ∀ m, k m = k m.core)
      (ha : c.builtin .arg ∨ ∀ m arguments, k { m with arguments } = k m)
      (h : ∀ m, c.Good m → Routine c (k m) post) : Routine c (get >>= k) post
  | unfinished {α : Type} {post : α → Prop} : Routine c (throw .unfinished) post
  | panicked {α : Type} {post : α → Prop} (value : PanicValue) :
      Routine c (throw (.panicked value)) post
  /-- An unknown command is for `effectOf` and `makeSynonym` to find. -/
  | fail {α : Type} {post : α → Prop} (fault : Fault) (h : ∀ name, fault ≠ .unknownCommand name) :
      Routine c (fail fault) post
  /-- The one fault that names no line. -/
  | outOfBounds {α : Type} {post : α → Prop} (error : TapeError Number) :
      Routine c (halt (.fatal none (.outOfBounds error))) post
  | note (mark : Char) (message : Heap → Option Text) :
      Routine c (note mark message) fun _ => True
  | indented {α : Type} {x : Action α} {post : α → Prop} (h : Routine c x post) :
      Routine c (indented x) post
  | record (o : Occurrence) (h : c.Notes o) : Routine c (record o) fun _ => True
  /-- Calling the listeners of an event, all of which are applied by routines. -/
  | calls {self : Dispatch} (hself : ∃ depth, self = exec depth) (event : Text) (payload : List Value)
      (h : ∀ ex args, c.listening → c.Fit ex → Routine c (apply self ex args) c.Harmless) :
      Routine c (trigger self event payload) fun _ => True
  | effectOf {name : Text} (h : c.token name) : Routine c (effectOf name) c.Sound
  | write (delivery : Delivery) (bytes : Text) : Routine c (write delivery bytes) fun _ => True
  | quiet {α : Type} {f : Machine → α × Machine} (h : Quiet f) :
      Routine c (modifyGet f) fun _ => True
  /-- Taking items off a stack. -/
  | onStack {α : Type} {post : α → Prop} (ref : StackRef) {change : Stack Value → α × Stack Value}
      (hs : ∀ s : Stack Value, (change s).2.items ⊆ s.items)
      (h : ∀ s : Stack Value, (∀ v ∈ s.items, c.Harmless v) → post (change s).1) :
      Routine c (onStack ref change) post
  | pushOnto (ref : StackRef) {v : Value} (h : c.builtin .push) (hv : c.Harmless v) :
      Routine c (pushOnto ref v) fun _ => True
  | setObject (key : Text) {v : Value} (h : c.Harmless v) :
      Routine c (modify fun m => { m with object := m.object.insert key v }) fun _ => True
  | setStorage (storage : Storage) (h : c.builtin .write) :
      Routine c (modify fun m => { m with storage }) fun _ => True
  | defineCommand (name : Text) {ex : Executable} (h : c.builtin .define) (hex : c.Fit ex) :
      Routine c (defineCommand name ex) fun _ => True
  | makeSynonym (name : Text) {existing : Text} (h : c.builtin .synonym) (he : c.token existing) :
      Routine c (makeSynonym name existing) fun _ => True
  | listen (event : Text) {ex : Executable} (h : c.listening) (hex : c.Fit ex) :
      Routine c (modify fun m => m.listen event ex) fun _ => True
  | stopRunning (h : c.builtin .exit ∨ c.listening) : Routine c stopRunning fun _ => True
  | gotoLabel (label : Text) (h : c.builtin .goto) : Routine c (gotoLabel label) fun _ => True
  | skipLine (h : c.builtin .branch) : Routine c skipLine fun _ => True

/-- A property that calling listeners has because its parts have it. -/
structure Calling (c : Conduct) (P : (α : Type) → Action α → Prop) : Prop where
  pure : ∀ {α : Type} (a : α), P α (pure a)
  bind : ∀ {α β : Type} {x : Action α} {f : α → Action β}, P α x → (∀ a, P β (f a)) → P β (x >>= f)
  look : ∀ {α : Type} {k : Machine → Action α}, (∀ m, k m = k m.bare) →
    (∀ m, c.Good m → P α (k m)) → P α (get >>= k)
  unfinished : ∀ {α : Type}, P α (throw .unfinished)
  note : ∀ (mark : Char) (message : Heap → Option Text), P Unit (note mark message)
  record : ∀ {o : Occurrence}, c.Calls o → P Unit (record o)

namespace Calling

variable {c : Conduct} {P : (α : Type) → Action α → Prop} {self : Dispatch}

theorem mapM_textOf (h : Calling c P) (vs : List Value) : P (List Text) (vs.mapM Machine.textOf) := by
  have htext : ∀ v, P Text (textOf v) := by
    refine fun v => h.look (fun _ => rfl) fun m _ => ?_
    cases m.heap.text? v with
    | none => exact h.unfinished
    | some s => exact h.pure s
  induction vs with
  | nil => exact h.pure []
  | cons v vs ih =>
      rw [List.mapM_cons]
      exact h.bind (htext v) fun _ => h.bind ih fun _ => h.pure _

theorem deliver (h : Calling c P) (event : Text) (args : List Text) {exs : List Executable}
    (hexs : ∀ ex ∈ exs, c.listening ∧ c.Fit ex)
    (happly : ∀ ex args, c.listening → c.Fit ex → P Value (apply self ex args)) :
    P Unit (deliver self event args exs) := by
  induction exs with
  | nil => exact h.pure ()
  | cons ex rest ih =>
      obtain ⟨hl, hex⟩ := hexs ex List.mem_cons_self
      refine h.bind (h.record hl) fun _ => h.bind (happly ex args hl hex) fun _ => ?_
      exact ih fun ex' hex' => hexs ex' (List.mem_cons_of_mem _ hex')

theorem trigger (h : Calling c P) (event : Text) (payload : List Value)
    (happly : ∀ ex args, c.listening → c.Fit ex → P Value (apply self ex args)) :
    P Unit (trigger self event payload) := by
  refine h.look (fun _ => rfl) fun m good => ?_
  split
  · exact h.pure ()
  · exact h.pure ()
  · rename_i exs hne hexs
    have hfit := good.listeners event exs hexs
    -- the list is not empty, so something listens
    have hl : c.listening := by
      cases exs with
      | nil => exact absurd rfl hne
      | cons ex rest => exact (hfit ex List.mem_cons_self).1
    refine h.bind (h.mapM_textOf _) fun args => h.bind (h.note _ _) fun _ => ?_
    exact h.bind (h.record hl) fun _ => h.deliver event args hfit happly

end Calling

/-- What is left of a stack was on it. -/
theorem Stack.pop_subset {α : Type} (ground : α) (s : Stack α) : (s.pop ground).2.items ⊆ s.items := by
  unfold Stack.pop
  split
  · exact List.Subset.refl _
  · rename_i x rest hitems
    rw [hitems]
    exact List.subset_cons_self x rest

/-! ## Quiet changes -/

/-- The stack at a place that holds none is empty. -/
theorem Heap.stack_of_le {h : Heap} {ref : StackRef} (hle : h.stackSlots.size ≤ ref.index) :
    h.stack ref = .empty := by
  rw [stack, Array.getD_eq_getD_getElem?, Array.getElem?_eq_none hle]
  rfl

/-- A new stack is empty, and so is the stack at a place that holds none. -/
theorem Heap.stack_addStack_empty (h : Heap) (ref : StackRef) :
    (h.addStack .empty).2.stack ref = h.stack ref := by
  simp only [Heap.stack, Heap.addStack, Array.getD_eq_getD_getElem?, Array.getElem?_push]
  split
  · rename_i hlast
    rw [hlast, Array.getElem?_eq_none (Nat.le_refl _)]
    rfl
  · rfl

/-- A place that holds no stack gets none. -/
theorem Heap.stack_setStack (h : Heap) (ref other : StackRef) (s : Stack Value) :
    (h.setStack ref s).stack other
      = if other = ref ∧ ref.index < h.stackSlots.size then s else h.stack other := by
  obtain ⟨i⟩ := ref
  obtain ⟨j⟩ := other
  simp only [stack, setStack, Array.getD_eq_getD_getElem?, Array.getElem?_setIfInBounds,
    StackRef.mk.injEq]
  by_cases hij : j = i
  · subst hij
    by_cases hj : j < h.stackSlots.size
    · simp [hj]
    · simp [hj]
  · simp [hij, Ne.symm hij]

theorem Heap.mem_setStack {h : Heap} {ref other : StackRef} {s : Stack Value} {v : Value}
    (hv : v ∈ ((h.setStack ref s).stack other).items) :
    v ∈ (h.stack other).items ∨ other = ref ∧ v ∈ s.items := by
  rw [stack_setStack] at hv
  split at hv
  · rename_i hplace
    exact .inr ⟨hplace.1, hv⟩
  · exact .inl hv

namespace Machine

theorem quiet_stackRef (name : Text) : Quiet fun m : Machine =>
    match m.namedStacks.get? name with
    | some ref => (ref, m)
    | none =>
      let (ref, heap) := m.heap.addStack .empty
      (ref, { m with heap, namedStacks := m.namedStacks.insert name ref }) where
  frame m := by
    cases h : m.namedStacks.get? name with
    | some ref => exact ⟨_, _, _, _, _, _, rfl⟩
    | none => exact ⟨_, _, _, _, _, _, rfl⟩
  stack m ref := by
    cases h : m.namedStacks.get? name with
    | some ref => rfl
    | none => exact m.heap.stack_addStack_empty ref
  interruption m i hi := by
    cases h : m.namedStacks.get? name with
    | some ref => exact hi
    | none => exact hi
  core m := by
    have hc : m.core.namedStacks.get? name = m.namedStacks.get? name := rfl
    cases h : m.namedStacks.get? name with
    | some ref => simp only [hc, h]
    | none => simp only [hc, h]; rfl
  arguments m arguments := by
    cases h : m.namedStacks.get? name with
    | some ref => rfl
    | none => rfl

theorem quiet_newStack (name : Text) : Quiet fun m : Machine =>
    let (ref, heap) := m.heap.addStack .empty
    (ref, { m with heap, namedStacks := m.namedStacks.insert name ref }) where
  frame _ := ⟨_, _, _, _, _, _, rfl⟩
  stack m ref := m.heap.stack_addStack_empty ref
  interruption _ _ hi := hi
  core _ := rfl
  arguments _ _ := rfl

theorem quiet_newTape (name : Text) (bounds : List Number) : Quiet fun m : Machine =>
    let (ref, heap) := m.heap.addTape (.ofBounds m.pageSize bounds)
    (ref, { m with heap, namedTapes := m.namedTapes.insert name ref }) where
  frame _ := ⟨_, _, _, _, _, _, rfl⟩
  stack _ _ := rfl
  interruption _ _ hi := hi
  core _ := rfl
  arguments _ _ := rfl

theorem quiet_onTape {α : Type} (ref : TapeRef) (change : Tape Number → α × Tape Number) :
    Quiet fun m : Machine =>
      let (a, t) := change (m.heap.tape ref)
      (a, { m with heap := m.heap.setTape ref t }) where
  frame _ := ⟨_, _, _, _, _, _, rfl⟩
  stack _ _ := rfl
  interruption _ _ hi := hi
  core _ := rfl
  arguments _ _ := rfl

theorem quiet_setText (f : Text → Text) :
    Quiet fun m : Machine => ((), { m with text := f m.text }) where
  frame _ := ⟨_, _, _, _, _, _, rfl⟩
  stack _ _ := rfl
  interruption _ _ hi := hi
  core _ := rfl
  arguments _ _ := rfl

theorem quiet_setHost (id : Nat) (host : HostListener) :
    Quiet fun m : Machine => ((), { m with hosts := m.hosts.setIfInBounds id host }) where
  frame _ := ⟨_, _, _, _, _, _, rfl⟩
  stack _ _ := rfl
  interruption _ _ hi := hi
  core _ := rfl
  arguments _ _ := rfl

theorem quiet_interrupt (i : Interruption) :
    Quiet fun m : Machine => ((), { m with interruption := m.interruption.or (some i) }) where
  frame _ := ⟨_, _, _, _, _, _, rfl⟩
  stack _ _ := rfl
  interruption _ _ hi := by simp [hi]
  core _ := rfl
  arguments _ _ := rfl

end Machine

/-! ## Operators

Operators compute texts, numbers, truth values and lists, never executables. -/

namespace Heap

variable (h : Heap) (ex : Executable)

theorem plus_ne_executable (a b : Value) : h.plus a b ≠ some (.executable ex) := by
  unfold plus
  split <;> simp [Option.bind_eq_some_iff]

theorem numeric_ne_executable (f : Number → Number → Number) (a b : Value) :
    h.numeric f a b ≠ some (.executable ex) := by
  simp [numeric, Option.bind_eq_some_iff]

theorem replace_ne_executable (subject pattern replacement : Value) :
    h.replace subject pattern replacement ≠ some (.executable ex) := by
  intro hv
  simp only [replace, Option.bind_eq_bind, Option.bind_eq_some_iff] at hv
  obtain ⟨s, -, r, -, hv⟩ := hv
  split at hv <;> simp [Option.bind_eq_some_iff] at hv

theorem charAt_ne_executable (v : Value) : h.charAt v ≠ some (.executable ex) := by
  intro hv
  simp only [charAt, Option.bind_eq_bind, Option.bind_eq_some_iff] at hv
  obtain ⟨s, -, hv⟩ := hv
  split at hv <;> simp at hv

theorem toChar_ne_executable (v : Value) : h.toChar v ≠ some (.executable ex) := by
  intro hv
  simp only [toChar, Option.bind_eq_bind, Option.bind_eq_some_iff] at hv
  obtain ⟨i, -, hv⟩ := hv
  split at hv <;> simp at hv

theorem repeated_ne_executable (v count : Value) : h.repeated v count ≠ .ok (.executable ex) := by
  intro hv
  unfold repeated at hv
  split at hv
  · split at hv
    · split at hv
      · dsimp only at hv
        split at hv <;> cases hv
      · cases hv
    · cases hv
  · cases hv

theorem orEndless_eq_ok {α : Type} {x : Option α} {a : α} : orEndless x = .ok a ↔ x = some a := by
  cases x <;> simp [orEndless]

theorem bind_ne_executable {α : Type} {x : Except OperatorError α} {f : α → Except OperatorError Value}
    (h : ∀ a, f a ≠ .ok (.executable ex)) : (x >>= f) ≠ .ok (.executable ex) := by
  cases x with
  | error e => exact nofun
  | ok a => exact h a

theorem slice_ne_executable (v position : Value) : h.slice v position ≠ .ok (.executable ex) := by
  refine bind_ne_executable ex fun index => ?_
  unfold sliceFrom
  split
  · exact bind_ne_executable ex fun _ => nofun
  · exact bind_ne_executable ex fun _ => nofun
  · exact bind_ne_executable ex fun _ => nofun
  · exact bind_ne_executable ex fun _ => bind_ne_executable ex fun _ => nofun

theorem operate_ne_executable (op : Operator) (operands : List Value) :
    h.operate op operands ≠ .ok (.executable ex) := by
  cases op with
  | add =>
      exact bind_ne_executable ex fun _ => bind_ne_executable ex fun _ hv =>
        h.plus_ne_executable ex _ _ (orEndless_eq_ok.mp hv)
  | inc =>
      exact bind_ne_executable ex fun _ hv => h.plus_ne_executable ex _ _ (orEndless_eq_ok.mp hv)
  | dec =>
      exact bind_ne_executable ex fun _ hv => h.numeric_ne_executable ex _ _ _ (orEndless_eq_ok.mp hv)
  | pow | mul | div | sub =>
      exact bind_ne_executable ex fun _ => bind_ne_executable ex fun _ hv =>
        h.numeric_ne_executable ex _ _ _ (orEndless_eq_ok.mp hv)
  | replace =>
      exact bind_ne_executable ex fun _ => bind_ne_executable ex fun _ => bind_ne_executable ex
        fun _ hv => h.replace_ne_executable ex _ _ _ (orEndless_eq_ok.mp hv)
  | less | more | same =>
      refine bind_ne_executable ex fun _ => bind_ne_executable ex fun _ hv => ?_
      simpa using orEndless_eq_ok.mp hv
  | repeats =>
      exact bind_ne_executable ex fun _ => bind_ne_executable ex fun _ =>
        h.repeated_ne_executable ex _ _
  | slice =>
      exact bind_ne_executable ex fun _ => bind_ne_executable ex fun _ => h.slice_ne_executable ex _ _
  | charAt =>
      exact bind_ne_executable ex fun _ hv => h.charAt_ne_executable ex _ (orEndless_eq_ok.mp hv)
  | toChar =>
      exact bind_ne_executable ex fun _ hv => h.toChar_ne_executable ex _ (orEndless_eq_ok.mp hv)

end Heap

/-! ## Actions of commands -/

namespace Routine

variable {c : Conduct}

/-- Reading what every command may read. -/
theorem look {α : Type} {k : Machine → Action α} {post : α → Prop} (hk : ∀ m, k m = k m.bare)
    (h : ∀ m, c.Good m → Routine c (k m) post) : Routine c (get >>= k) post := by
  refine .read (fun m => ?_) (.inr fun m arguments => ?_) h
  · rw [hk m, hk m.core]
    rfl
  · rw [hk m, hk { m with arguments }]
    rfl

theorem finished {α : Type} (a : Option α) : Routine c (finished a) fun _ => True := by
  cases a with
  | none => exact .unfinished
  | some a => exact .pure trivial

theorem textOf (v : Value) : Routine c (textOf v) fun _ => True :=
  .look (fun _ => rfl) fun m _ => finished (m.heap.text? v)

theorem numberOf (v : Value) : Routine c (numberOf v) fun _ => True :=
  .look (fun _ => rfl) fun m _ => finished (m.heap.number? v)

theorem executableOf {v : Value} (h : c.Harmless v) : Routine c (executableOf v) c.Fit := by
  cases v with
  | executable ex => exact .pure (h ex rfl)
  | _ => exact .bind (textOf _) fun _ _ => .fail _ nofun

theorem patternOf (source flags : Text) : Routine c (patternOf source flags) c.Harmless := by
  unfold Machine.patternOf
  split
  · exact .pure c.harmless_plain
  · exact .fail _ nofun

theorem emit (text : Text) : Routine c (emit text) fun _ => True := .write _ _

theorem emitLine (text : Text) : Routine c (emitLine text) fun _ => True :=
  .bind (emit text) fun _ _ => .write _ _

theorem stackRef (name : Text) : Routine c (stackRef name) fun _ => True :=
  .quiet (quiet_stackRef name)

theorem newStack (name : Text) : Routine c (newStack name) fun _ => True :=
  .quiet (quiet_newStack name)

theorem newTape (name : Text) (bounds : List Number) :
    Routine c (newTape name bounds) fun _ => True :=
  .quiet (quiet_newTape name bounds)

theorem tapeRef (name : Text) : Routine c (tapeRef name) fun _ => True := by
  refine .look (fun _ => rfl) fun m _ => ?_
  split
  · exact .pure trivial
  · exact newTape name []

theorem onTape {α : Type} (ref : TapeRef) (change : Tape Number → α × Tape Number) :
    Routine c (onTape ref change) fun _ => True :=
  .quiet (quiet_onTape ref change)

theorem hear (h : c.listening) (id : Nat) (args : List Text) :
    Routine c (hear id args) fun _ => True := by
  refine .look (fun _ => rfl) fun m _ => ?_
  split
  · exact .pure trivial
  · refine .bind (.record _ h) fun _ _ => .bind (.quiet (quiet_setHost id _)) fun _ _ => ?_
    split
    · split
      · exact .pure trivial
      · exact .stopRunning (.inr h)
      · exact .quiet (quiet_interrupt .canceled)
    · exact .pure trivial

theorem harmless_of_operate {h : Heap} {op : Operator} {operands : List Value} {v : Value}
    (hv : h.operate op operands = .ok v) : c.Harmless v := by
  rintro ex rfl
  exact absurd hv (h.operate_ne_executable ex op operands)

theorem operate (op : Operator) (args : List Text) : Routine c (operate op args) c.Harmless := by
  refine .bind (stackRef (operandStack args)) fun ref _ => ?_
  refine .bind (show Routine c _ (fun _ => True) from .onStack ref ?_ ?_) fun operands _ => ?_
  · exact fun s => s.items_popMany Value.zero op.arity ▸ List.drop_subset _ s.items
  · exact fun _ _ => trivial
  · refine .bind (.note _ _) fun _ _ => .look (fun _ => rfl) fun m _ => ?_
    split
    · rename_i v hv
      exact .pure (harmless_of_operate hv)
    · rename_i e _
      cases e with
      | endless => exact .unfinished
      | tooLong => exact .panicked _
      | missing => exact .panicked _
      | outside => exact .panicked _

/-- What dispatches nested commands does so to some depth, and is a routine on permitted tokens. -/
structure Dispatches (c : Conduct) (d : Dispatch) : Prop where
  depth : ∃ depth, d = exec depth
  routine : ∀ tokens, (∀ t ∈ tokens, c.token t) → Routine c (d tokens) c.Harmless

variable {self : Dispatch}

theorem apply (hself : Dispatches c self) {ex : Executable} (hex : c.Fit ex) {args : List Text}
    (hargs : ∀ t ∈ args, c.token t) : Routine c (apply self ex args) c.Harmless := by
  cases ex with
  | closure via params =>
      refine .bind (.note _ _) fun _ _ => hself.routine _ fun t ht => ?_
      rcases List.mem_append.mp ht with h | h
      · exact hex t h
      · exact hargs t h
  | operator op => exact .bind (.note _ _) fun _ _ => operate op _
  | host id =>
      exact .bind (.note _ _) fun _ _ => .bind (hear hex id args) fun _ _ => .pure c.harmless_plain

theorem trigger (hself : Dispatches c self) (event : Text) (payload : List Value) :
    Routine c (trigger self event payload) fun _ => True :=
  .calls hself.depth event payload fun _ _ hl hex => apply hself hex fun t _ => c.any_token hl t

/-! ## Builtins -/

theorem persist (h : c.builtin .write) (path text : Text) :
    Routine c (persist path text) fun _ => True := by
  refine .bind (.record _ trivial) fun _ _ => .look (fun _ => rfl) fun m _ => ?_
  split
  · exact .setStorage _ h
  · exact .fail _ nofun

theorem load (path : Text) : Routine c (load path) fun _ => True := by
  refine .bind (.record _ trivial) fun _ _ => .look (fun _ => rfl) fun m _ => ?_
  split
  · exact .pure trivial
  · exact .fail _ nofun

theorem argumentAt (h : c.builtin .arg) (index : Option Int) :
    Routine c (argumentAt index) c.Harmless := by
  unfold Machine.argumentAt
  split
  · rename_i i
    refine .read (fun _ => rfl) (.inl h) fun m _ => .pure ?_
    cases m.arguments[i]? <;> exact c.harmless_plain
  · exact .pure c.harmless_plain

theorem convert (cast : Cast) (v : Value) : Routine c (convert cast v) c.Harmless := by
  unfold Machine.convert
  split
  · exact .bind (textOf _) fun _ _ => .pure c.harmless_plain
  · exact .bind (numberOf _) fun _ _ => .pure c.harmless_plain
  · exact .pure c.harmless_plain
  · exact .bind (textOf _) fun _ _ => patternOf _ _

theorem readTape (ref : TapeRef) : Routine c (readTape ref) c.Harmless := by
  refine .look (fun _ => rfl) fun m _ => ?_
  split
  · exact .bind (onTape ref fun _ => ((), _)) fun _ _ => .pure c.harmless_plain
  · exact .outOfBounds _

/-- The token that takes the place of a missing first parameter is the empty one. -/
theorem token_headD {params : List Text} (hp : ∀ t ∈ params, c.token t) :
    c.token (params.headD []) := by
  cases params with
  | nil => exact c.blank
  | cons t rest => exact hp t List.mem_cons_self

theorem token_tail {params : List Text} (hp : ∀ t ∈ params, c.token t) :
    ∀ t ∈ params.tail, c.token t :=
  fun t ht => hp t (List.mem_of_mem_tail ht)

/-- Both parts of split arguments are parts of the parameters. -/
theorem token_splitArguments {params : List Text} (hp : ∀ t ∈ params, c.token t) :
    (∀ t ∈ (splitArguments params).1, c.token t) ∧ ∀ t ∈ (splitArguments params).2, c.token t := by
  unfold Machine.splitArguments
  dsimp only
  split
  · constructor
    · exact fun t ht => hp t (List.takeWhile_subset _ ht)
    · exact fun t ht => hp t (List.dropWhile_subset _ (List.mem_of_mem_tail ht))
  · exact ⟨nofun, hp⟩

theorem perform (hself : Dispatches c self) {b : Builtin} (hb : c.builtin b) {params : List Text}
    (hp : ∀ t ∈ params, c.token t) : Routine c (perform self b params) c.Harmless := by
  have hrest := hself.routine params.tail (token_tail hp)
  refine .bind (.record _ hb) fun _ _ => ?_
  cases b with
  | number | numlist | string | space | tab | newline | label | rem | semicolon =>
      exact .pure c.harmless_plain
  | empty =>
      refine .pure ?_
      unfold emptyOf
      split
      · exact c.harmless_plain
      · split <;> exact c.harmless_plain
  | regex => exact .bind hrest fun v _ => .bind (textOf v) fun s _ => patternOf s _
  | print =>
      exact .bind (hself.routine params hp) fun v hv => .bind (textOf v) fun s _ =>
        .bind (emitLine s) fun _ _ => .pure hv
  | put =>
      exact .bind (hself.routine params hp) fun v hv => .bind (textOf v) fun s _ =>
        .bind (emit s) fun _ _ => .pure hv
  | write =>
      exact .bind hrest fun v _ => .bind (textOf v) fun s _ =>
        .bind (persist hb _ s) fun _ _ => .pure c.harmless_plain
  | read => exact .bind (load _) fun _ _ => .pure c.harmless_plain
  | init => exact .bind (newStack _) fun _ _ => .pure c.harmless_plain
  | push =>
      exact .bind hrest fun v hv => .bind (stackRef _) fun ref _ =>
        .bind (.pushOnto ref hb hv) fun _ _ => .pure hv
  | pop =>
      refine .bind (stackRef _) fun ref _ => .onStack ref (Stack.pop_subset _) fun s hs => ?_
      unfold Stack.pop
      split
      · exact c.harmless_plain
      · rename_i x rest hitems
        exact hs x (by simp [hitems])
  | stack => exact .bind (stackRef _) fun _ _ => .pure c.harmless_plain
  | func =>
      refine .pure ?_
      cases Operator.named? (.join [32] params) with
      | none => exact c.harmless_plain
      | some op => rintro ex ⟨⟩; trivial
  | eval | curry =>
      -- the closure will run nothing but the tokens it has been made from
      refine .pure ?_
      rintro ex ⟨⟩
      exact hp
  | exec =>
      obtain ⟨hargs, hcommand⟩ := token_splitArguments hp
      exact .bind (hself.routine _ hcommand) fun v hv => .bind (executableOf hv) fun ex hex =>
        apply hself hex hargs
  | set => exact .bind hrest fun v hv => .bind (.setObject _ hv) fun _ _ => .pure hv
  | get =>
      refine .look (fun _ => rfl) fun m good => .pure ?_
      cases h : m.object.get? (params.headD []) with
      | none => exact c.harmless_plain
      | some v => exact good.object _ v h
  | goto => exact .bind (.gotoLabel _ hb) fun _ _ => .pure c.harmless_plain
  | arg =>
      dsimp only
      split
      · exact .read (fun _ => rfl) (.inl hb) fun m _ => .pure c.harmless_plain
      · exact .bind (hself.routine params hp) fun v _ => .look (fun _ => rfl) fun m _ =>
          .bind (finished _) fun i _ => argumentAt hb i
  | listen =>
      exact .bind hrest fun v hv => .bind (executableOf hv) fun ex hex =>
        .bind (.listen _ (c.listening_of_listen hb) hex) fun _ _ => .pure c.harmless_plain
  | cast =>
      dsimp only
      split
      · exact .fail _ nofun
      · exact .bind hrest fun v _ => convert _ v
  | exit => exact .bind (.stopRunning (.inl hb)) fun _ _ => .pure c.harmless_plain
  | branch =>
      refine .bind (hself.routine params hp) fun v _ => ?_
      split
      · exact .pure c.harmless_plain
      · exact .bind (.skipLine hb) fun _ _ => .pure c.harmless_plain
  | define =>
      exact .bind hrest fun v hv => .bind (executableOf hv) fun ex hex =>
        .bind (.defineCommand _ hb hex) fun _ _ => .pure c.harmless_plain
  | synonym =>
      exact .bind (.makeSynonym _ hb (token_headD (token_tail hp))) fun _ _ => .pure c.harmless_plain
  | strap =>
      dsimp only
      split
      · exact .look (fun _ => rfl) fun m _ => .pure c.harmless_plain
      · exact .bind (hself.routine params hp) fun v _ => .bind (textOf v) fun s _ =>
          .bind (.quiet (quiet_setText (· ++ s))) fun _ _ =>
            .look (fun _ => rfl) fun m _ => .pure c.harmless_plain
  | strcl =>
      exact .bind (.quiet (quiet_setText fun _ => [])) fun _ _ => .pure c.harmless_plain
  | v => exact .bind (emitLine _) fun _ _ => .pure c.harmless_plain
  | initape =>
      dsimp only
      split
      · exact .bind (show Routine c _ (fun _ => True) from .pure trivial) fun bounds _ =>
          .bind (newTape _ bounds) fun _ _ => .pure c.harmless_plain
      · exact .bind hrest fun v _ => .look (fun _ => rfl) fun m _ => .bind (finished _) fun bounds _ =>
          .bind (newTape _ bounds) fun _ _ => .pure c.harmless_plain
  | tape => exact .bind (tapeRef _) fun _ _ => .pure c.harmless_plain
  | setape =>
      exact .bind (tapeRef _) fun ref _ => .bind hrest fun v _ => .bind (numberOf v) fun x _ =>
        .bind (onTape ref fun t => t.set x) fun _ _ => .pure c.harmless_plain
  | getape => exact .bind (tapeRef _) fun ref _ => readTape ref
  | setptr =>
      exact .bind (tapeRef _) fun ref _ => .bind hrest fun v _ => .bind (numberOf v) fun x _ =>
        .bind (onTape ref fun t => ((), { t with pointer := x })) fun _ _ => .pure c.harmless_plain
  | getptr =>
      exact .bind (tapeRef _) fun ref _ => .look (fun _ => rfl) fun m _ => .pure c.harmless_plain

/-! ## Dispatch -/

theorem enact (hself : Dispatches c self) {effect : Effect} (he : c.Sound effect)
    {params : List Text} (hp : ∀ t ∈ params, c.token t) :
    Routine c (enact self effect params) c.Harmless := by
  cases effect with
  | builtin b => exact perform hself he hp
  | apply ex => exact apply hself he hp
  | constant v => exact .pure he

theorem dispatch (hself : Dispatches c self) : Dispatches c (dispatch self) := by
  obtain ⟨depth, hdepth⟩ := hself.depth
  refine ⟨⟨depth + 1, by rw [hdepth]; rfl⟩, fun tokens ht => ?_⟩
  -- the name is a permitted token, so it leads to nothing that is not permitted
  refine .indented (.bind (.effectOf (token_headD ht)) fun effect hs => ?_)
  exact .bind (enact hself hs (token_tail ht)) fun v hv => .bind (.note _ _) fun _ _ =>
    .bind (trigger hself _ [v]) fun _ _ => .pure hv

/-- Running tokens as a command is a routine, to any depth of nesting. -/
theorem exec (depth : Nat) : Dispatches c (exec depth) := by
  -- the conduct is the same at every depth, so the hypothesis serves all nested commands at once
  induction depth with
  | zero => exact ⟨⟨0, rfl⟩, fun _ _ => .unfinished⟩
  | succ depth ih => exact dispatch ih

end Routine

end Linewise
