import Linewise.Proofs.Confinement
import Linewise.Proofs.StraightLine

/-!
# Programs cannot do what they do not mention

A fresh machine knows each builtin under its name only. Definitions, aliases, closures and values carry
effects and tokens around, but all of them come from tokens of the program, and so a program performs no
builtin whose name is not among them. Without `on` nothing listens either; a listener would be given
rendered values for tokens, which can be any text. `run_mentioned` draws the conclusions for the storage,
the registry and the arguments of the invocation.
-/

namespace Linewise

open Machine Linewise.Action Control

/-- A word is a token of a line of the script. -/
def Mentions (script : List (List Text)) (word : Text) : Prop := ∃ tokens ∈ script, word ∈ tokens

instance (script : List (List Text)) (word : Text) : Decidable (Mentions script word) :=
  inferInstanceAs (Decidable (∃ tokens ∈ script, word ∈ tokens))

/-- The conduct of a script: what it mentions. -/
def Conduct.mentioned (script : List (List Text)) (h : ¬ Mentions script "on") : Conduct where
  token t := t = [] ∨ Mentions script t
  builtin b := Mentions script b.name
  listening := False
  blank := .inl rfl
  any_token := nofun
  listening_of_listen := h

theorem Builtin.name_ne_nil (b : Builtin) : b.name ≠ [] := by
  cases b <;> decide

/-- A fresh machine leads a script to the builtins that it mentions, and to no others. -/
theorem Machine.Fresh.good_mentioned {m : Machine} (fresh : m.Fresh) {script : List (List Text)}
    (hon : ¬ Mentions script "on") : (Conduct.mentioned script hon).Good m := by
  refine fresh.good_of_names fun b hname => ?_
  rcases hname with hnil | hmentioned
  · exact absurd hnil b.name_ne_nil
  · exact hmentioned

theorem Conduct.mentioned_admits {script : List (List Text)} (hon : ¬ Mentions script "on") :
    (Conduct.mentioned script hon).Admits script :=
  fun tokens htokens _ ht => .inr ⟨tokens, htokens, ht⟩

/-! ## Builtins in the history -/

/-- The builtins that have been performed are permitted. -/
def Permitted (c : Conduct) (history : List Moment) : Prop :=
  ∀ moment ∈ history, ∀ b, moment.occurrence = .performed b → c.builtin b

variable {c : Conduct}

theorem permitted_nil : Permitted c [] := List.forall_mem_nil _

theorem Permitted.cons {moment : Moment} {past : List Moment} (hpast : Permitted c past)
    (h : ∀ b, moment.occurrence = .performed b → c.builtin b) : Permitted c (moment :: past) := by
  intro other hother
  rcases List.mem_cons.mp hother with rfl | hother
  · exact h
  · exact hpast other hother

/-- Only commands perform builtins, and they keep to their conduct. -/
theorem Permitted.move {s t : Control} (hs : Permitted c s.history) (hm : Move c s t) :
    Permitted c t.history := by
  cases hm with
  | note o hp ho =>
      refine hs.cons ?_
      rintro b rfl
      exact ho
  | call | conclude =>
      refine Permitted.cons (hs.cons ?_) ?_
      · nofun
      · nofun
  | jump | skip | stop | announce | ask | fetch | step | finish =>
      refine hs.cons ?_
      nofun
  | listen | interrupt | settle | grow | close | advance => exact hs

theorem Permitted.path {s t : Control} (hs : Permitted c s.history) (h : Path c s t) :
    Permitted c t.history := by
  induction h with
  | refl => exact hs
  | tail _ hm ih => exact ih.move hm

/-! ## The run -/

theorem program_permitted (fuel : Nat) {m : Machine} (good : c.Good m)
    (admitted : c.Admits (loadProgram.after m).script) (h : Permitted c m.history) :
    Permitted c ((program fuel).after m).history := by
  have hloaded : (loadProgram.after m).history = m.history := (untouched_of_start (.inl rfl)).history
  cases hload : loadProgram.result m with
  | error e =>
      rw [(program_of_load_error fuel hload).2, hloaded]
      exact h
  | ok u =>
      obtain ⟨phase, hpath, -⟩ := program_path fuel good admitted hload
      refine Permitted.path (s := m.started.control .between) ?_ hpath
      show Permitted c (loadProgram.after m).history
      rw [hloaded]
      exact h

/-- A program performs only builtins whose names it mentions. Without `write` it leaves the storage as it
is, without `define` and `alias` the registry, and without `arg` the arguments of the invocation make no
difference but to themselves and to the history, which may hold views of them. -/
theorem run_mentioned (fuel : Nat) {m : Machine} (fresh : m.Fresh)
    (hon : ¬ Mentions (loadProgram.after m).script "on") :
    (∀ b, .performed b ∈ (run fuel m).2.occurrences → Mentions (loadProgram.after m).script b.name) ∧
    (¬ Mentions (loadProgram.after m).script "write" → (run fuel m).2.storage = m.storage) ∧
    (¬ Mentions (loadProgram.after m).script "define" → ¬ Mentions (loadProgram.after m).script "alias" →
      (run fuel m).2.registry = m.registry) ∧
    (¬ Mentions (loadProgram.after m).script "arg" → ∀ arguments,
      (run fuel { m with arguments }).1 = (run fuel m).1 ∧
      ∃ history, (run fuel { m with arguments }).2 = { (run fuel m).2 with arguments, history }) := by
  let c := Conduct.mentioned (loadProgram.after m).script hon
  have good : c.Good m := fresh.good_mentioned hon
  have admitted : c.Admits (loadProgram.after m).script := Conduct.mentioned_admits hon
  have hleaves : c.Leaves m (run fuel m).2 := program_leaves fuel good admitted
  refine ⟨fun b hb => ?_, hleaves.storage, hleaves.registry, fun harg arguments => ?_⟩
  · have hnone : Permitted c m.history := by
      rw [fresh.history]
      exact permitted_nil
    obtain ⟨moment, hmoment, hperformed⟩ := List.mem_map.mp hb
    exact program_permitted fuel good admitted hnone moment (List.mem_reverse.mp hmoment) b hperformed
  · obtain ⟨hresult, history, hafter⟩ := program_arguments fuel good admitted harg arguments
    refine ⟨?_, history, hafter⟩
    rw [run_outcome, run_outcome, hresult, hafter]
    rfl

/-- A machine with a program that prints through a closure, from where it keeps it. -/
def lending : Machine :=
  { initial .standard with
    sources := .ofSources [.ofText "p" "set f eval print string\nexec x -- get f\n"] }

theorem lending_mentioned :
    Mentions (loadProgram.after lending).script "print" ∧
      (run 9 lending).2.storage = lending.storage ∧ (run 9 lending).2.registry = .standard ∧
      ∀ arguments, (run 9 { lending with arguments }).1 = .finished := by
  obtain ⟨hperformed, hstorage, hregistry, harguments⟩ :=
    run_mentioned 9 (m := lending) (fresh_initial _ _ _ _ _ _ _ _) (by decide)
  refine ⟨?_, hstorage (by decide), hregistry (by decide) (by decide), fun arguments => ?_⟩
  · exact hperformed .print (by decide +kernel)
  · rw [(harguments (by decide) arguments).1]
    decide +kernel

end Linewise
