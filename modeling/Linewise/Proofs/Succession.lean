import Linewise.Proofs.Faulting
import Linewise.Proofs.Ledger
import Linewise.Proofs.Registering

/-!
# Runs on one registry

A registry outlasts the runs on it: the host hands it from one to the next, in whatever state the last one
has left it. What a run does to it are the definitions and aliases in its history, one after the other
(`run_books`), so names are never lost. A command that a run does not know is missing in the registry as
the run leaves it (`run_unknown`), hence it was missing in all runs before.
-/

namespace Linewise

open Machine Linewise.Action

namespace Registry

variable {ε : Type} {r : Registry ε}

/-- The name that an operation gives an effect. -/
def Operation.name : Operation ε → Text
  | .register name _ => name
  | .synonym name _ => name

theorem perform_eq (r : Registry ε) (op : Operation ε) :
    r.perform op = r ∨ ∃ effect, r.perform op = r.register op.name effect := by
  cases op with
  | register name effect => exact .inr ⟨effect, rfl⟩
  | synonym name existing =>
      simp only [perform, alias?]
      cases r.lookup existing with
      | none => exact .inl rfl
      | some effect => exact .inr ⟨effect, rfl⟩

/-- Names keep their places. -/
theorem prefix_register (r : Registry ε) (name : Text) (effect : ε) :
    r.names <+: (r.register name effect).names := by
  rw [names_register]
  split
  · exact List.prefix_rfl
  · exact List.prefix_append _ _

theorem prefix_performAll (r : Registry ε) (ops : List (Operation ε)) :
    r.names <+: (ops.foldl perform r).names := by
  induction ops generalizing r with
  | nil => exact List.prefix_rfl
  | cons op ops ih =>
      refine List.IsPrefix.trans ?_ (ih (r.perform op))
      rcases r.perform_eq op with h | ⟨effect, h⟩
      · simp only [h, List.prefix_rfl]
      · rw [h]
        exact r.prefix_register op.name effect

/-- A name keeps its effect through operations on other names. -/
theorem lookup_performAll {ops : List (Operation ε)} {name : Text} (h : ∀ op ∈ ops, op.name ≠ name) :
    (ops.foldl perform r).lookup name = r.lookup name := by
  induction ops generalizing r with
  | nil => rfl
  | cons op ops ih =>
      obtain ⟨hop, hops⟩ := List.forall_mem_cons.mp h
      rw [List.foldl_cons, ih hops]
      rcases r.perform_eq op with h | ⟨effect, h⟩
      · rw [h]
      · rw [h, lookup_register, if_neg hop.symm]

end Registry

/-! ## What a run has done to the registry -/

namespace Occurrence

/-- The operation on the registry that an occurrence tells of. -/
def operation? : Occurrence → Option (Registry.Operation Effect)
  | .defined name ex => some (.register name (.apply ex))
  | .aliased name existing => some (.synonym name existing)
  | _ => none

/-- The name that was defined, or made an alias. -/
def installed? : Occurrence → Option Text
  | .defined name _ => some name
  | .aliased name _ => some name
  | _ => none

theorem installed?_eq (o : Occurrence) : o.installed? = o.operation?.map Registry.Operation.name := by
  cases o <;> rfl

theorem operation?_of_not_enters {o : Occurrence} (h : ¬ o.Enters) : o.operation? = none := by
  cases o with
  | defined | aliased => exact absurd trivial h
  | _ => rfl

end Occurrence

namespace Ledger

variable {l l' l'' : Ledger}

/-- What occurrences between two ledgers tell about the registry. -/
structure Books (l : Ledger) (new : List Occurrence) (l' : Ledger) : Prop where
  registry : l'.registry = (new.filterMap Occurrence.operation?).foldl Registry.perform l.registry
  installed : ∀ o ∈ new, ∀ name, o.installed? = some name → name ∈ l'.registry.names

theorem Books.names {new : List Occurrence} (h : Books l new l') :
    l.registry.names <+: l'.registry.names := by
  rw [h.registry]
  exact Registry.prefix_performAll _ _

theorem Books.append {first second : List Occurrence} (h : Books l first l') (h' : Books l' second l'') :
    Books l (first ++ second) l'' where
  registry := by rw [h'.registry, h.registry, List.filterMap_append, List.foldl_append]
  installed o ho name hname := by
    rcases List.mem_append.mp ho with ho | ho
    · exact h'.names.subset (h.installed o ho name hname)
    · exact h'.installed o ho name hname

/-- An occurrence without an operation leaves the registry alone. -/
theorem books_of_none {o : Occurrence} (hr : l'.registry = l.registry) (ho : o.operation? = none) :
    Books l [o] l' where
  registry := by simp [ho, hr]
  installed := by simp [Occurrence.installed?_eq, ho]

theorem books_of_some {o : Occurrence} {op : Registry.Operation Effect} {effect : Effect}
    (ho : o.operation? = some op) (hr : l'.registry = l.registry.perform op)
    (hs : l'.registry = l.registry.register op.name effect) : Books l [o] l' where
  registry := by simp [ho, hr]
  installed := by
    simp only [List.mem_singleton, forall_eq, Occurrence.installed?_eq, ho, Option.map_some]
    rintro _ ⟨⟩
    rw [hs, Registry.mem_names_iff_lookup, Registry.lookup_register, if_pos rfl]
    rfl

theorem Entry.books (h : Entry l l') : ∃ new, l'.history = new.reverse ++ l.history ∧ Books l new l' := by
  cases h with
  | note o ho => exact ⟨[o], rfl, books_of_none rfl (Occurrence.operation?_of_not_enters ho)⟩
  | still | take | push => exact ⟨[], rfl, rfl, by simp⟩
  | nest ref v => exact ⟨[.nested ref v.stackRefs l.heap.links], rfl, books_of_none rfl rfl⟩
  | define name ex => exact ⟨[.defined name ex], rfl, books_of_some rfl rfl rfl⟩
  | synonym name existing effect hl =>
      -- the alias has been made, as the other name has an effect
      have hmade : l.registry.register name effect = l.registry.perform (.synonym name existing) := by
        simp [Registry.perform, Registry.alias?, hl]
      exact ⟨[.aliased name existing], rfl, books_of_some rfl hmade rfl⟩

theorem tells_books : Tells Books where
  nothing _ := ⟨rfl, by simp⟩
  append := .append
  entry := Entry.books

end Ledger

open Ledger

/-- What a run does to the registry is what its history tells. -/
theorem run_books (fuel : Nat) (m : Machine) : Books m.ledger (doings fuel m) (run fuel m).2.ledger :=
  tells_books.since (run_entries fuel m)

/-! ## Unknown commands -/

/-- An unknown command is not in the registry. -/
def Unlisted (_ : Option Int) (fault : Fault) (m : Machine) : Prop :=
  ∀ name, fault = .unknownCommand name → m.registry.lookup name = none

namespace Unlisted

variable {α : Type} {x : Action α} {post : α → Prop}

theorem fail {fault : Fault} (h : ∀ name, fault ≠ .unknownCommand name) :
    Faults Unlisted (fail fault : Action α) := by
  intro m line fault' hresult name hname
  rw [result_fail] at hresult
  cases hresult
  exact absurd hname (h name)

theorem calling : Calling .free fun _ x => Faults Unlisted x where
  pure := .pure
  bind := .bind
  look _ h := .look fun m => h m (Conduct.free_good m)
  unfinished := .throw nofun
  note := .note
  record _ := .record _

theorem effectOf (name : Text) : Faults Unlisted (effectOf name) := by
  intro m line fault hresult
  cases hl : m.registry.lookup name with
  | none =>
      obtain ⟨hr, hafter⟩ := effectOf_of_none hl
      rw [hr] at hresult
      cases hresult
      rw [hafter]
      rintro _ ⟨⟩
      exact hl
  | some effect =>
      rw [(effectOf_of_some hl).1] at hresult
      cases hresult

theorem makeSynonym (name existing : Text) : Faults Unlisted (makeSynonym name existing) := by
  intro m line fault hresult
  cases ha : m.registry.alias? name existing with
  | none =>
      obtain ⟨hr, hafter⟩ := makeSynonym_of_none ha
      rw [hr] at hresult
      cases hresult
      rw [hafter]
      rintro _ ⟨⟩
      exact Option.map_eq_none_iff.mp ha
  | some registry =>
      rw [(makeSynonym_of_some ha).1] at hresult
      cases hresult

theorem gotoLabel (label : Text) : Faults Unlisted (gotoLabel label) := by
  refine .look fun m => ?_
  split
  · exact .look fun m => (Faults.note _ _).bind fun _ => (Faults.modifyGet _).bind fun _ => .record _
  · refine fail fun name hname => ?_
    cases hname

/-- A command can only be unknown where it is looked up. -/
theorem routine (h : Routine .free x post) : Faults Unlisted x := by
  induction h with
  | pure => exact .pure _
  | bind hx _ ihx ihf =>
      exact ihx.bind_of_result fun m a hr => ihf a ((hx.spec m (Conduct.free_good m)).2 a hr)
  | read _ _ _ ih => exact .look fun m => ih m (Conduct.free_good m)
  | unfinished | panicked => exact .throw nofun
  | fail fault h => exact fail h
  | outOfBounds error =>
      intro m line fault hresult
      rw [result_halt] at hresult
      cases hresult
      nofun
  | note mark message => exact .note mark message
  | indented _ ih => exact .indented (fun _ _ _ _ => id) ih
  | calls _ event payload _ ih => exact calling.trigger event payload ih
  | effectOf => exact effectOf _
  | makeSynonym name => exact makeSynonym name _
  | write delivery bytes => exact .write delivery bytes
  | gotoLabel label => exact gotoLabel label
  | pushOnto ref =>
      refine Faults.bind ?_ fun _ => .modifyGet _
      unfold Machine.recordNesting
      split
      · exact .pure _
      · exact .look fun m => .record _
  | stopRunning | skipLine | defineCommand => exact (Faults.modifyGet _).bind fun _ => .record _
  | record | quiet | onStack | setObject | setStorage | listen => exact .modifyGet _

theorem loops : Loops .free (fun _ x => Faults Unlisted x) fun _ => True where
  pure := .pure
  bind := .bind
  look _ h := .look fun m => h m (Conduct.free_holds fun _ _ => trivial)
  throw h := .throw fun ⟨_, _, he⟩ => h _ he
  halt := .halt
  emptyProgram := fail nofun
  note := .note
  pace _ := .record _
  change _ _ := .modifyGet _
  turn _ := .turnToFeed _
  rest _ _ := trivial
  commands := routine

theorem program (fuel : Nat) : Faults Unlisted (program fuel) := by
  rw [program_eq]
  refine (loops.unflushed fuel).bind fun _ => Faults.flush.bind fun e => ?_
  split
  · exact .throw nofun
  · exact .pure ()

end Unlisted

/-- A run that fails over an unknown command has not registered it. -/
theorem run_unknown {fuel : Nat} {m : Machine} {line : Option Int} {name : Text}
    (h : (run fuel m).1 = .failed (.fatal line (.unknownCommand name))) :
    name ∉ (run fuel m).2.registry.names := by
  have hlookup : (run fuel m).2.registry.lookup name = none :=
    Unlisted.program fuel m line _ (result_of_fatal h) name rfl
  simp [Registry.mem_names_iff_lookup, hlookup]

/-! ## One run after the other -/

/-- The machine on another registry. -/
def Machine.withRegistry (m : Machine) (registry : Registry Effect) : Machine := { m with registry }

/-- The registry after runs on it, each given by its fuel and by a machine that finds it as the run before
has left it. -/
def registryAfter (r : Registry Effect) (runs : List (Nat × Machine)) : Registry Effect :=
  runs.foldl (fun r next => (run next.1 (next.2.withRegistry r)).2.registry) r

theorem registryAfter_append (r : Registry Effect) (past later : List (Nat × Machine)) :
    registryAfter r (past ++ later) = registryAfter (registryAfter r past) later :=
  List.foldl_append

/-- No run loses a name. -/
theorem prefix_registryAfter (r : Registry Effect) (runs : List (Nat × Machine)) :
    r.names <+: (registryAfter r runs).names := by
  induction runs generalizing r with
  | nil => exact List.prefix_rfl
  | cons next rest ih => exact (run_books next.1 (next.2.withRegistry r)).names.trans (ih _)

/-- A run on a registry, whatever becomes of it, leaves all names that it finds, in their places and with
something to stand for, and a name stands for something else only if the run has defined it or made it an
alias. So a run fails over an unknown command only if no run before it has registered the name. -/
theorem registry_outlasts_runs :
    (∀ fuel (m : Machine),
      m.registry.names <+: (run fuel m).2.registry.names ∧
      (∀ name, (m.registry.lookup name).isSome → ((run fuel m).2.registry.lookup name).isSome) ∧
      (run fuel m).2.registry
        = ((doings fuel m).filterMap Occurrence.operation?).foldl Registry.perform m.registry ∧
      ∀ name, (run fuel m).2.registry.lookup name ≠ m.registry.lookup name →
        ∃ o ∈ doings fuel m, o.installed? = some name) ∧
    ∀ (r : Registry Effect) (earlier : List (Nat × Machine)) (fuel : Nat) (m : Machine) line name,
      (run fuel (m.withRegistry (registryAfter r earlier))).1
        = .failed (.fatal line (.unknownCommand name)) →
      name ∉ r.names ∧
      ∀ past fuel' (m' : Machine) later, earlier = past ++ (fuel', m') :: later →
        name ∉ (run fuel' (m'.withRegistry (registryAfter r past))).2.registry.names ∧
        ∀ o ∈ doings fuel' (m'.withRegistry (registryAfter r past)), o.installed? ≠ some name := by
  refine ⟨fun fuel m => ?_, fun r earlier fuel m line name hfail => ?_⟩
  · have hbooks := run_books fuel m
    refine ⟨hbooks.names, fun name => ?_, hbooks.registry, fun name hne => ?_⟩
    · rw [← Registry.mem_names_iff_lookup, ← Registry.mem_names_iff_lookup]
      exact fun hname => hbooks.names.subset hname
    · by_contra hno
      refine hne ?_
      rw [show (run fuel m).2.registry = _ from hbooks.registry]
      refine Registry.lookup_performAll fun op hop heq => hno ?_
      obtain ⟨o, ho, hop⟩ := List.mem_filterMap.mp hop
      exact ⟨o, ho, by rw [Occurrence.installed?_eq, hop, ← heq]; rfl⟩
  · -- what is missing in the end has been missing all the time
    have hmissing : name ∉ (registryAfter r earlier).names := fun hname =>
      run_unknown hfail ((run_books fuel _).names.subset hname)
    refine ⟨fun hname => hmissing ((prefix_registryAfter r earlier).subset hname), ?_⟩
    rintro past fuel' m' later rfl
    have hlater : name ∉ (run fuel' (m'.withRegistry (registryAfter r past))).2.registry.names := by
      rw [registryAfter_append] at hmissing
      exact fun hname => hmissing ((prefix_registryAfter _ later).subset hname)
    exact ⟨hlater, fun o ho hname => hlater ((run_books fuel' _).installed o ho name hname)⟩

/-- A machine with a program that makes a command and fails. -/
def greeting : Machine :=
  { initial .standard with
    sources := .ofSources [.ofText "p" "define greet eval string hi\nalias hail greet\nnone\n"] }

/-- A machine with a program that uses the commands of another one and fails. -/
def greeted : Machine :=
  { initial .standard with sources := .ofSources [.ofText "p" "print hail\nlater\n"] }

/-- The second run knows what the first one has made, and misses what the first one has not. -/
theorem greeted_misses :
    (run 5 (greeted.withRegistry (registryAfter .standard [(5, greeting)]))).1
        = .failed (.fatal (some 1) (.unknownCommand "later")) ∧
      Text.ofString "hail" ∈ (registryAfter .standard [(5, greeting)]).names ∧
      Text.ofString "later" ∉
        (run 5 (greeting.withRegistry (registryAfter .standard []))).2.registry.names := by
  have hfail : (run 5 (greeted.withRegistry (registryAfter .standard [(5, greeting)]))).1
      = .failed (.fatal (some 1) (.unknownCommand "later")) := by decide +kernel
  refine ⟨hfail, by decide +kernel, ?_⟩
  have hmisses := registry_outlasts_runs.2 .standard [(5, greeting)] 5 greeted (some 1) "later" hfail
  exact (hmisses.2 [] 5 greeting [] rfl).1

end Linewise
