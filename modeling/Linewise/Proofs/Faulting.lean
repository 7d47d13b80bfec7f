import Linewise.Proofs.Lifting

/-!
# Faults

A fault stops a run from the inside of a command, and nothing happens after it. So what is true of a fault
and the machine at the place where it comes up is true of the fault and the machine that the run leaves:
`Faults` says that it is, and is kept by putting actions together.
-/

namespace Linewise

open Machine Linewise.Action

/-- An action whose faults, if it has one, fit the machine that it leaves. -/
def Faults (fits : Option Int → Fault → Machine → Prop) {α : Type} (x : Action α) : Prop :=
  ∀ m line fault, x.result m = .error (.halted (.fatal line fault)) → fits line fault (x.after m)

namespace Faults

variable {fits : Option Int → Fault → Machine → Prop} {α β : Type} {x : Action α}

/-- An action that finds no fault. -/
theorem of_faultless (h : ∀ m e, x.result m = .error e → ¬ e.Fatal) : Faults fits x := by
  intro m line fault hresult
  exact absurd ⟨line, fault, rfl⟩ (h m _ hresult)

theorem pure (a : α) : Faults fits (pure a) := of_faultless fun _ _ h => by cases h

theorem throw {e : Stop} (h : ¬ e.Fatal) : Faults fits (throw e : Action α) := by
  refine of_faultless fun m e' he => ?_
  cases he
  exact h

theorem bind_of_result {f : α → Action β} (hx : Faults fits x)
    (hf : ∀ m a, x.result m = .ok a → Faults fits (f a)) : Faults fits (x >>= f) := by
  intro m line fault h
  cases hr : x.result m with
  | error e =>
      rw [result_bind_error hr] at h
      rw [after_bind_error hr]
      cases h
      exact hx m line fault hr
  | ok a =>
      rw [result_bind_ok hr] at h
      rw [after_bind_ok hr]
      exact hf m a hr _ line fault h

theorem bind {f : α → Action β} (hx : Faults fits x) (hf : ∀ a, Faults fits (f a)) :
    Faults fits (x >>= f) := hx.bind_of_result fun _ a _ => hf a

theorem look {k : Machine → Action α} (h : ∀ m, Faults fits (k m)) : Faults fits (get >>= k) :=
  fun m => h m m

theorem modifyGet (f : Machine → α × Machine) : Faults fits (modifyGet f) := by
  refine of_faultless fun m e he => ?_
  rw [result_modifyGet] at he
  cases he

theorem halt {f : Failure} (h : ∀ line fault, f ≠ .fatal line fault) :
    Faults fits (halt f : Action α) := by
  refine of_faultless fun m e he => ?_
  rw [result_halt] at he
  cases he
  rintro ⟨line, fault, hf⟩
  exact h line fault (Stop.halted.inj hf)

theorem note (mark : Char) (message : Heap → Option Text) : Faults fits (note mark message) := by
  refine of_faultless fun m e he => ?_
  rw [note_stop he]
  nofun

/-- The trace is indented back after a fault, which must not matter to it. -/
theorem indented (htrace : ∀ line fault m trace, fits line fault m → fits line fault { m with trace })
    (hx : Faults fits x) : Faults fits (indented x) := by
  intro m line fault h
  obtain ⟨before, trace, hresult, hafter⟩ := after_indented x m
  rw [hresult] at h
  rw [hafter]
  exact htrace line fault _ trace (hx _ line fault h)

theorem record (o : Occurrence) : Faults fits (record o) := modifyGet _

theorem flush : Faults fits flush := modifyGet _

theorem write (delivery : Delivery) (bytes : Text) : Faults fits (write delivery bytes) := by
  refine (modifyGet _).bind fun error => ?_
  cases error with
  | some e => exact halt nofun
  | none => exact record _

/-- The feed is asked without a fault. -/
theorem turnToFeed (feed : Feed) : Faults fits (turnToFeed feed) := by
  refine turnToFeed_of_parts (P := fun _ x => Faults fits x) bind (pure ()) (fun _ => halt nofun)
    (fun _ => modifyGet _) (look fun _ => record _) (look fun m => ?_)
  split
  · exact throw nofun
  · exact pure ()

end Faults

/-- A run that has failed over a fault has stopped with it. -/
theorem result_of_fatal {fuel : Nat} {m : Machine} {line : Option Int} {fault : Fault}
    (h : (run fuel m).1 = .failed (.fatal line fault)) :
    (program fuel).result m = .error (.halted (.fatal line fault)) := by
  rw [run_outcome] at h
  cases hr : (program fuel).result m with
  | ok u =>
      rw [hr] at h
      unfold outcome at h
      cases hclose : ((program fuel).after m).closeError with
      | none =>
          rw [hclose] at h
          cases h
      | some e =>
          rw [hclose] at h
          cases h
  | error e =>
      rw [hr] at h
      cases e with
      | halted f =>
          cases h
          rfl
      | panicked value => cases h
      | unfinished => cases h

end Linewise
