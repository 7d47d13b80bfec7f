import Linewise.Proofs.Change

/-!
# Machines that a command cannot tell apart

A command does not look at the program, except for the label of a jump, and of the trace it notices only
whether there is one. Two machines that agree on the rest are twins: a command has the same result on both
and leaves twins behind (`Routine.twin`). The second machine may know more labels than the first, as long
as the first does not miss one.
-/

namespace Linewise

open Machine Linewise.Action

/-- Two machines that differ only in the program, the trace and the history, of which a command notices
no more than whether there is a trace, and the labels. The second one may know more labels. -/
inductive Twin (m : Machine) : Machine → Prop
  | mk (sources : SourceReader) (feed : Option Feed) (lines : Array Line) (labels : Dict Nat)
      (trace : Option Trace) (history : List Moment) (ht : trace.isSome = m.trace.isSome)
      (hl : ∀ name target, m.labels.get? name = some target → labels.get? name = some target) :
      Twin m { m with sources, feed, lines, labels, trace, history }

/-- A result that says that a label was looked for in vain. -/
def Lost {α : Type} (r : Except Stop α) : Prop :=
  ∃ line label, r = .error (.halted (.fatal line (.unknownLabel label)))

namespace Twin

variable {m m' : Machine}

theorem core_eq (h : Twin m m') : m.core = m'.core := by
  cases h with
  | mk => rfl

theorem tracing (h : Twin m m') : m'.trace.isSome = m.trace.isSome := by
  cases h with
  | mk _ _ _ _ _ _ ht _ => exact ht

theorem labels (h : Twin m m') (name : Text) (target : Nat) (hm : m.labels.get? name = some target) :
    m'.labels.get? name = some target := by
  cases h with
  | mk _ _ _ _ _ _ _ hl => exact hl name target hm

/-- Machines with the same core are twins if they know the same labels, or the second one more. -/
theorem of_core (hcore : m.core = m'.core) (ht : m'.trace.isSome = m.trace.isSome)
    (hl : ∀ name target, m.labels.get? name = some target → m'.labels.get? name = some target) :
    Twin m m' := by
  have heq : m' = { m with
      sources := m'.sources, feed := m'.feed, lines := m'.lines, labels := m'.labels, trace := m'.trace
      history := m'.history } := by
    cases m
    cases m'
    simp only [core, mk.injEq] at hcore
    simp [hcore]
  rw [heq]
  exact .mk _ _ _ _ _ _ ht hl

theorem mapTrace (h : Twin m m') (f g : Trace → Trace) :
    Twin { m with trace := m.trace.map f } { m' with trace := m'.trace.map g } := by
  cases h with
  | mk sources feed lines labels trace history ht hl =>
      refine .mk _ _ _ _ _ _ ?_ hl
      rw [Option.isSome_map, Option.isSome_map, ht]

/-- A change of the sink that depends on nothing but the sink. -/
theorem setSink (h : Twin m m') (f : Sink → Sink) :
    Twin { m with sink := f m.sink } { m' with sink := f m'.sink } := by
  cases h with
  | mk sources feed lines labels trace history ht hl => exact .mk _ _ _ _ _ _ ht hl

theorem halted (h : Twin m m') (f : Failure) : Twin (m.halted f) (m'.halted f) :=
  (h.setSink fun s => s.flush.2).mapTrace _ _

theorem setHistory (h : Twin m m') (past past' : List Moment) :
    Twin { m with history := past } { m' with history := past' } := by
  cases h with
  | mk sources feed lines labels trace history ht hl => exact .mk _ _ _ _ _ _ ht hl

theorem push (h : Twin m m') (ref : StackRef) (v : Value) :
    Twin { m with heap := m.heap.setStack ref ((m.heap.stack ref).push v) }
      { m' with heap := m'.heap.setStack ref ((m'.heap.stack ref).push v) } := by
  cases h with
  | mk sources feed lines labels trace history ht hl => exact .mk _ _ _ _ _ _ ht hl

theorem jumped (h : Twin m m') (label : Text) (target : Nat) :
    Twin (m.jumped label target) (m'.jumped label target) := by
  cases h with
  | mk sources feed lines labels trace history ht hl =>
      refine .mk _ _ _ _ _ _ ?_ hl
      show (trace.map _).isSome = (m.trace.map _).isSome
      rw [Option.isSome_map, Option.isSome_map, ht]

/-- A note can be made on both machines or on none, as it depends on nothing but the memories. -/
theorem note (h : Twin m m') (mark : Char) (message : Heap → Option Text) :
    (note mark message).result m = (note mark message).result m' ∧
      Twin ((note mark message).after m) ((note mark message).after m') := by
  show ((Machine.note mark message).run.run m).1 = ((Machine.note mark message).run.run m').1 ∧
    Twin ((Machine.note mark message).run.run m).2 ((Machine.note mark message).run.run m').2
  have htracing := h.tracing
  cases hm : m.trace with
  | none =>
      have hm' : m'.trace = none := by simpa [hm] using htracing
      rw [note_of_none hm, note_of_none hm']
      exact ⟨rfl, h⟩
  | some t =>
      rw [hm] at htracing
      obtain ⟨t', hm'⟩ := Option.isSome_iff_exists.mp htracing
      have hheap : m'.heap = m.heap := by cases h with | mk => rfl
      rw [note_of_some hm, note_of_some hm', hheap]
      cases message m.heap with
      | none => exact ⟨rfl, h⟩
      | some s =>
          have hnoted := h.mapTrace (fun t => t.add mark s) fun t => t.add mark s
          rw [hm, hm', hheap] at hnoted
          exact ⟨rfl, hnoted⟩

end Twin

variable {α : Type} {x : Action α} {post : α → Prop}

/-- An action that does the same on twins, and leaves twins behind, unless the first misses a label. -/
def Twins (x : Action α) : Prop := ∀ {m m' : Machine}, Twin m m' →
  Lost (x.result m) ∨ x.result m = x.result m' ∧ Twin (x.after m) (x.after m')

theorem Twins.bind {β : Type} {f : α → Action β} (hx : Twins x)
    (hf : ∀ m a, x.result m = .ok a → Twins (f a)) : Twins (x >>= f) := by
  intro m m' h
  rcases hx h with ⟨line, label, hlost⟩ | ⟨hresult, htwin⟩
  · exact .inl ⟨line, label, result_bind_error hlost⟩
  · cases hr : x.result m with
    | error e =>
        rw [hr] at hresult
        rw [result_bind_error hr, after_bind_error hr, result_bind_error hresult.symm,
          after_bind_error hresult.symm]
        exact .inr ⟨rfl, htwin⟩
    | ok a =>
        rw [hr] at hresult
        rw [result_bind_ok hr, after_bind_ok hr, result_bind_ok hresult.symm,
          after_bind_ok hresult.symm]
        exact hf m a hr htwin

theorem Twins.look {k : Machine → Action α} (hk : ∀ m, k m = k m.core) (h : ∀ m, Twins (k m)) :
    Twins (get >>= k) := by
  intro m m' htwin
  rw [result_get_bind, after_get_bind, result_get_bind, after_get_bind]
  have hsame : k m' = k m := by rw [hk m, hk m', htwin.core_eq]
  rw [hsame]
  exact h m htwin

theorem calling_twins : Calling .free fun _ x => Twins x where
  pure _ := fun h => .inr ⟨rfl, h⟩
  bind hx hf := hx.bind fun _ a _ => hf a
  look {_ k} hk h := by
    refine Twins.look (fun m => ?_) fun m => h m (Conduct.free_good m)
    rw [hk m, hk m.core]
    rfl
  unfinished := fun h => .inr ⟨rfl, h⟩
  note mark message := fun h => .inr (h.note mark message)
  record _ := fun h => .inr ⟨rfl, h.setHistory _ _⟩

/-- A command does the same on twins, and leaves twins behind, unless the first misses a label. -/
theorem Routine.twin (h : Routine .free x post) : Twins x := by
  induction h with
  | pure | unfinished | panicked => exact fun h => .inr ⟨rfl, h⟩
  | bind hx hf ihx ihf =>
      exact ihx.bind fun m a hr => ihf a ((hx.spec m (Conduct.free_good m)).2 a hr)
  | read hk _ h ih => exact Twins.look hk fun m => ih m (Conduct.free_good m)
  | calls _ event payload _ ih => exact calling_twins.trigger event payload ih
  | fail fault _ =>
      intro m m' h
      have hpointer : m'.pointer = m.pointer := by cases h with | mk => rfl
      rw [result_fail, result_fail, after_fail, after_fail, hpointer]
      exact .inr ⟨rfl, h.halted _⟩
  | outOfBounds error =>
      intro m m' h
      rw [result_halt, result_halt, after_halt, after_halt]
      exact .inr ⟨rfl, h.halted _⟩
  | note mark message => exact fun h => .inr (h.note mark message)
  | indented h ih =>
      intro m m' htwin
      have hdeeper := htwin.mapTrace (fun t => { t with depth := t.depth + 1 })
        fun t => { t with depth := t.depth + 1 }
      rcases ih hdeeper with hlost | ⟨hresult, hafter⟩
      · exact .inl hlost
      · exact .inr ⟨hresult, hafter.mapTrace _ _⟩
  | record o h => exact fun h => .inr ⟨rfl, h.setHistory _ _⟩
  | @effectOf name _ =>
      intro m m' h
      have hregistry : m'.registry = m.registry := by cases h with | mk => rfl
      have hpointer : m'.pointer = m.pointer := by cases h with | mk => rfl
      cases hl : m.registry.lookup name with
      | none =>
          obtain ⟨hresult, hafter⟩ := effectOf_of_none hl
          obtain ⟨hresult', hafter'⟩ := effectOf_of_none (m := m') (by rw [hregistry]; exact hl)
          rw [hresult, hafter, hresult', hafter', hpointer]
          exact .inr ⟨rfl, h.halted _⟩
      | some effect =>
          obtain ⟨hresult, hafter⟩ := effectOf_of_some hl
          obtain ⟨hresult', hafter'⟩ := effectOf_of_some (m := m') (by rw [hregistry]; exact hl)
          rw [hresult, hafter, hresult', hafter']
          exact .inr ⟨rfl, h⟩
  | write delivery bytes =>
      intro m m' h
      have hsink : m'.sink = m.sink := by cases h with | mk => rfl
      have hwritten := h.setSink fun s => (s.write delivery bytes).2
      cases he : (m.sink.write delivery bytes).1.error with
      | some e =>
          obtain ⟨hresult, hafter⟩ := write_of_error he
          obtain ⟨hresult', hafter'⟩ := write_of_error (m := m') (by rw [hsink]; exact he)
          rw [hresult, hafter, hresult', hafter']
          exact .inr ⟨rfl, hwritten.halted _⟩
      | none =>
          obtain ⟨hresult, hafter⟩ := write_of_none he
          obtain ⟨hresult', hafter'⟩ := write_of_none (m := m') (by rw [hsink]; exact he)
          rw [hresult, hafter, hresult', hafter']
          exact .inr ⟨rfl, hwritten.setHistory _ _⟩
  | @quiet _ f hf =>
      intro m m' h
      -- what a quiet change does can be read off the core, and that is the same for both
      have hcore := hf.core m
      rw [h.core_eq, hf.core m'] at hcore
      obtain ⟨hresult, hafter⟩ := Prod.mk.inj hcore
      obtain ⟨_, _, _, _, _, _, hm⟩ := hf.frame m
      obtain ⟨_, _, _, _, _, _, hm'⟩ := hf.frame m'
      refine .inr ⟨congrArg Except.ok hresult.symm, .of_core hafter.symm ?_ ?_⟩
      · show (f m').2.trace.isSome = (f m).2.trace.isSome
        rw [hm, hm']
        exact h.tracing
      · show ∀ name target, (f m).2.labels.get? name = some target → (f m').2.labels.get? name = some target
        rw [hm, hm']
        exact h.labels
  | @makeSynonym name existing _ _ =>
      intro m m' h
      cases ha : m.registry.alias? name existing with
      | none =>
          have ha' : m'.registry.alias? name existing = none := by cases h with | mk => exact ha
          have hpointer : m'.pointer = m.pointer := by cases h with | mk => rfl
          obtain ⟨hresult, hafter⟩ := makeSynonym_of_none ha
          obtain ⟨hresult', hafter'⟩ := makeSynonym_of_none ha'
          rw [hresult, hafter, hresult', hafter', hpointer]
          exact .inr ⟨rfl, h.halted _⟩
      | some registry =>
          have ha' : m'.registry.alias? name existing = some registry := by cases h with | mk => exact ha
          obtain ⟨hresult, hafter⟩ := makeSynonym_of_some ha
          obtain ⟨hresult', hafter'⟩ := makeSynonym_of_some ha'
          rw [hresult, hafter, hresult', hafter']
          refine .inr ⟨rfl, ?_⟩
          cases h with
          | mk sources feed lines labels trace history ht hl => exact .mk _ _ _ _ _ _ ht hl
  | gotoLabel label h =>
      intro m m' htwin
      -- the only place where a command looks at the program
      cases hl : m.labels.get? label with
      | none => exact .inl ⟨_, label, (gotoLabel_of_none hl).1⟩
      | some target =>
          obtain ⟨hresult, hafter⟩ := gotoLabel_of_some hl
          obtain ⟨hresult', hafter'⟩ := gotoLabel_of_some (htwin.labels label target hl)
          rw [hresult, hafter, hresult', hafter']
          exact .inr ⟨rfl, htwin.jumped label target⟩
  | @pushOnto ref v =>
      intro m m' h
      by_cases hr : v.stackRefs = []
      · obtain ⟨hresult, hafter⟩ := pushOnto_of_plain ref hr m
        obtain ⟨hresult', hafter'⟩ := pushOnto_of_plain ref hr m'
        rw [hresult, hafter, hresult', hafter']
        exact .inr ⟨rfl, h.push ref v⟩
      · obtain ⟨hresult, hafter⟩ := pushOnto_of_nested ref hr m
        obtain ⟨hresult', hafter'⟩ := pushOnto_of_nested ref hr m'
        rw [hresult, hafter, hresult', hafter']
        exact .inr ⟨rfl, (h.push ref v).setHistory _ _⟩
  | onStack | setObject | setStorage | defineCommand | listen | stopRunning | skipLine =>
      intro m m' h
      cases h with
      | mk sources feed lines labels trace history ht hl => exact .inr ⟨rfl, .mk _ _ _ _ _ _ ht hl⟩

end Linewise
