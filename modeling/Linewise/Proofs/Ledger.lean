import Linewise.Proofs.Lifting

/-!
# What a run enters into registry and stacks

Commands enter effects into the registry and values on stacks. Here registry and memories stand on their
own, with the occurrences so far, as a transition system whose moves are the entries that commands can
make. `run_entries` says that a run of any length and with any outcome is a sequence of entries. What is
claimed about registries and stacks across runs is then an invariant of entries.
-/

namespace Linewise

open Machine Linewise.Action

/-- What commands enter things into, and what has occurred, the latest first. -/
structure Ledger where
  registry : Registry Effect
  heap : Heap
  history : List Occurrence

def Machine.ledger (m : Machine) : Ledger := ⟨m.registry, m.heap, m.history.map Moment.occurrence⟩

namespace Ledger

/-- One thing that a run does to a ledger. -/
inductive Entry : Ledger → Ledger → Prop
  | note {l : Ledger} (o : Occurrence) (h : ¬ o.Enters) : Entry l { l with history := o :: l.history }
  /-- No stack is changed. -/
  | still {l : Ledger} (heap : Heap) (h : ∀ ref, heap.stack ref = l.heap.stack ref) :
      Entry l { l with heap }
  | take {l : Ledger} (ref : StackRef) (s : Stack Value) (h : s.items ⊆ (l.heap.stack ref).items) :
      Entry l { l with heap := l.heap.setStack ref s }
  | push {l : Ledger} (ref : StackRef) (v : Value) (h : v.stackRefs = []) :
      Entry l { l with heap := l.heap.setStack ref ((l.heap.stack ref).push v) }
  | nest {l : Ledger} (ref : StackRef) (v : Value) :
      Entry l { l with
        heap := l.heap.setStack ref ((l.heap.stack ref).push v)
        history := .nested ref v.stackRefs l.heap.links :: l.history }
  | define {l : Ledger} (name : Text) (ex : Executable) :
      Entry l { l with
        registry := l.registry.register name (.apply ex)
        history := .defined name ex :: l.history }
  | synonym {l : Ledger} (name existing : Text) (effect : Effect)
      (h : l.registry.lookup existing = some effect) :
      Entry l { l with
        registry := l.registry.register name effect
        history := .aliased name existing :: l.history }

/-- A sequence of entries. -/
abbrev Entries : Ledger → Ledger → Prop := Relation.ReflTransGen Entry

/-- The occurrences between two ledgers tell something about them, if they do for each entry and what they
tell adds up. -/
structure Tells (R : Ledger → List Occurrence → Ledger → Prop) : Prop where
  nothing : ∀ l, R l [] l
  append : ∀ {l l' l'' : Ledger} {first second : List Occurrence},
    R l first l' → R l' second l'' → R l (first ++ second) l''
  entry : ∀ {l l' : Ledger}, Entry l l' → ∃ new, l'.history = new.reverse ++ l.history ∧ R l new l'

theorem Tells.entries {R : Ledger → List Occurrence → Ledger → Prop} (hR : Tells R) {l l' : Ledger}
    (h : Entries l l') : ∃ new, l'.history = new.reverse ++ l.history ∧ R l new l' := by
  induction h with
  | refl => exact ⟨[], rfl, hR.nothing l⟩
  | tail _ he ih =>
      obtain ⟨first, hfirst, hto⟩ := ih
      obtain ⟨second, hsecond, hon⟩ := hR.entry he
      refine ⟨first ++ second, ?_, hR.append hto hon⟩
      rw [hsecond, hfirst, List.reverse_append, List.append_assoc]

end Ledger

open Ledger

/-- What a command changes is at most one entry. -/
theorem Change.entries {c : Conduct} {m m' : Machine} (h : Change c m m') :
    Entries m.ledger m'.ledger := by
  cases h with
  | record o _ he => exact .single (.note (l := m.ledger) o he)
  | stop => exact .single (.note (l := m.ledger) .stopped id)
  | jump label target => exact .single (.note (l := m.ledger) (.jumped label target) id)
  | skip => exact .single (.note (l := m.ledger) .skipped id)
  | @quiet _ f hf =>
      have hstill : Entry m.ledger _ := .still (l := m.ledger) (f m).2.heap (hf.stack m)
      obtain ⟨_, _, _, _, _, _, hframe⟩ := hf.frame m
      rw [hframe] at hstill ⊢
      exact .single hstill
  | take ref hs => exact .single (.take (l := m.ledger) ref _ hs)
  | push ref _ hr => exact .single (.push (l := m.ledger) ref _ hr)
  | nest ref => exact .single (.nest (l := m.ledger) ref _)
  | define name => exact .single (.define (l := m.ledger) name _)
  | synonym name _ hl => exact .single (.synonym (l := m.ledger) name _ _ hl)
  | trace | write | flush | setObject | setStorage | listen => exact .refl

theorem Changes.entries {c : Conduct} {m m' : Machine} (h : Changes c m m') :
    Entries m.ledger m'.ledger := by
  induction h with
  | refl => exact .refl
  | tail _ hm ih => exact ih.trans hm.entries

theorem Occurrence.Paces.not_enters {o : Occurrence} (h : o.Paces) : ¬ o.Enters := by
  cases o with
  | defined | aliased | nested => exact h.elim
  | _ => exact id

/-- An action that makes entries only. -/
def MakesEntries {α : Type} (x : Action α) : Prop := ∀ m, Entries m.ledger (x.after m).ledger

namespace MakesEntries

variable {α β : Type} {x : Action α}

theorem bind {f : α → Action β} (hx : MakesEntries x) (hf : ∀ a, MakesEntries (f a)) :
    MakesEntries (x >>= f) := by
  intro m
  cases hr : x.result m with
  | error e =>
      rw [after_bind_error hr]
      exact hx m
  | ok a =>
      rw [after_bind_ok hr]
      exact (hx m).trans (hf a _)

theorem look {k : Machine → Action α} (h : ∀ m, MakesEntries (k m)) : MakesEntries (get >>= k) :=
  fun m => h m m

/-- An action that leaves the ledger alone. -/
theorem of_ledger (h : ∀ m, (x.after m).ledger = m.ledger) : MakesEntries x := by
  intro m
  rw [h]

theorem halt (f : Failure) : MakesEntries (halt f : Action α) := by
  refine of_ledger fun m => ?_
  rw [after_halt]
  rfl

theorem record {o : Occurrence} (h : ¬ o.Enters) : MakesEntries (record o) :=
  fun m => .single (.note (l := m.ledger) o h)

theorem turnToFeed (feed : Feed) : MakesEntries (turnToFeed feed) :=
  turnToFeed_of_parts (P := fun _ x => MakesEntries x) bind (of_ledger fun _ => rfl) (fun _ => halt _)
    (fun _ => of_ledger fun _ => rfl) (look fun _ => record id) <| look fun m => by
      split <;> exact of_ledger fun _ => rfl

end MakesEntries

theorem loops_makesEntries : Loops .free (fun _ x => MakesEntries x) fun _ => True where
  pure _ := .of_ledger fun _ => rfl
  bind := .bind
  look _ h := .look fun m => h m (Conduct.free_holds fun _ _ => trivial)
  throw _ := .of_ledger fun _ => rfl
  halt _ := .halt _
  emptyProgram := by
    refine .of_ledger fun m => ?_
    rw [after_fail]
    rfl
  note mark message := by
    refine .of_ledger fun m => ?_
    obtain ⟨trace, h⟩ := after_note mark message m
    rw [h]
    rfl
  pace ho := .record ho.not_enters
  change hf hkept := by
    refine .of_ledger fun m => ?_
    obtain ⟨hregistry, hheap⟩ := hkept m
    rw [after_modifyGet, Machine.ledger, hregistry, hheap, hf.history]
    rfl
  turn _ := .turnToFeed _
  rest _ _ := trivial
  commands hx := fun m => (hx.spec m (Conduct.free_good m)).1.entries

theorem makesEntries_program (fuel : Nat) : MakesEntries (program fuel) := by
  rw [program_eq]
  refine (loops_makesEntries.unflushed fuel).bind fun _ => .of_ledger fun m => ?_
  rw [after_lastFlush]
  rfl

/-- A run makes entries only, however it ends. -/
theorem run_entries (fuel : Nat) (m : Machine) : Entries m.ledger (run fuel m).2.ledger :=
  makesEntries_program fuel m

namespace Machine

/-- What has occurred since a state, in order. -/
def since (m m' : Machine) : List Occurrence := m'.occurrences.drop m.occurrences.length

/-- What occurs in a run. -/
def doings (fuel : Nat) (m : Machine) : List Occurrence := m.since (run fuel m).2

theorem occurrences_eq (m : Machine) : m.occurrences = m.ledger.history.reverse := by
  simp [occurrences, moments, ledger]

theorem since_eq {m m' : Machine} {new : List Occurrence}
    (h : m'.ledger.history = new.reverse ++ m.ledger.history) : m.since m' = new := by
  simp [since, occurrences_eq, h]

end Machine

theorem Ledger.Tells.since {R : Ledger → List Occurrence → Ledger → Prop} (hR : Tells R) {m m' : Machine}
    (h : Entries m.ledger m'.ledger) : R m.ledger (m.since m') m'.ledger := by
  obtain ⟨new, hnew, htold⟩ := hR.entries h
  rw [since_eq hnew]
  exact htold

end Linewise
