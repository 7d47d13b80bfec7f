import Linewise.Proofs.PartialApplication

/-!
# What is seen of an action

Trace and history are written by all actions and read by none. What an action does is therefore said of
the machine without the two (`Action.seen`), and it does the same on two machines that differ in nothing
else (`Unaware.seen_unobserved`), except that a trace can keep it from coming to an end over the text of a
value that contains itself. So actions can be followed one after the other without a mention of what they
write down.
-/

namespace Linewise

open Machine Linewise.Action

variable {α β : Type} {m p : Machine}

/-- The machine without what is only written down about it. -/
def Machine.unobserved (m : Machine) : Machine := { m with trace := none, history := [] }

namespace Action

/-- The result of an action, and what it leaves behind but for the observations. -/
def seen (x : Action α) (m : Machine) : Except Stop α × Machine := (x.result m, (x.after m).unobserved)

/-- No trace keeps an action from coming to an end. -/
def Ends (x : Action α) (m : Machine) : Prop := m.trace = none ∨ x.result m ≠ .error .unfinished

/-- An action has this result and leaves this machine behind, but for the observations, unless a trace
keeps it from coming to an end. -/
def ComesTo (x : Action α) (m : Machine) (result : Except Stop α) (m' : Machine) : Prop :=
  x.Ends m → x.seen m = (result, m'.unobserved)

end Action

/-- An action that takes no notice of the history, nor of the trace unless that keeps it from coming to an
end. -/
structure Unaware (x : Action α) : Prop where
  transparent : Transparent x
  confined : Confined .free x

namespace Unaware

variable {x : Action α} {f : α → Action β}

theorem routine {post : α → Prop} (h : Routine .free x post) : Unaware x :=
  ⟨lifts_transparent.routine h, lifts_confined.routine h⟩

theorem bind (hx : Unaware x) (hf : ∀ a, Unaware (f a)) : Unaware (x >>= f) :=
  ⟨hx.transparent.bind fun a => (hf a).transparent, hx.confined.bind fun a => (hf a).confined⟩

theorem pure (a : α) : Unaware (pure a : Action α) := ⟨.pure a, .pure a⟩

theorem record (o : Occurrence) : Unaware (record o) := ⟨.record o, .record o⟩

theorem exec (depth : Nat) (tokens : List Text) : Unaware (exec depth tokens) :=
  routine ((Routine.exec depth).routine tokens fun _ _ => trivial)

theorem executableOf (v : Value) : Unaware (executableOf v) :=
  routine (Routine.executableOf (Conduct.free_harmless v))

theorem apply (depth : Nat) (ex : Executable) (args : List Text) : Unaware (apply (Machine.exec depth) ex args) :=
  routine (Routine.apply (Routine.exec depth) (Conduct.free_fit ex) fun _ _ => trivial)

theorem trigger (depth : Nat) (event : Text) (payload : List Value) :
    Unaware (trigger (Machine.exec depth) event payload) :=
  routine (Routine.trigger (Routine.exec depth) event payload)

theorem deliver (depth : Nat) (event : Text) (args : List Text) (listeners : List Executable) :
    Unaware (deliver (Machine.exec depth) event args listeners) := by
  induction listeners with
  | nil => exact pure ()
  | cons ex rest ih => exact (record _).bind fun _ => (apply depth ex args).bind fun _ => ih

/-! ## Looking at results without observations -/

theorem trace_after (hx : Unaware x) (h : m.trace = none) : (x.after m).trace = none := by
  obtain ⟨added, hadded⟩ := hx.transparent.trace m
  rw [hadded, h]
  rfl

/-- Without a trace there is nothing that keeps an action from doing the same without a history. -/
theorem seen_untraced (hx : Unaware x) (m : Machine) : x.seen m.unobserved = x.seen m.untraced := by
  have hdouble : Alike .free m.arguments m.untraced m.unobserved := .mk [] fun _ => rfl
  obtain ⟨hresult, halike⟩ :=
    (hx.confined m.untraced (Conduct.free_holds fun _ _ => trivial)).alike m.arguments _ hdouble
  refine Prod.ext hresult ?_
  show (x.after m.unobserved).unobserved = (x.after m.untraced).unobserved
  generalize x.after m.unobserved = m' at halike
  cases halike with
  | mk history harguments =>
      rw [harguments trivial]
      rfl

/-- An action that comes to an end does the same on the machine without observations. -/
theorem seen_unobserved (hx : Unaware x) (h : x.Ends m) : x.seen m.unobserved = x.seen m := by
  rw [hx.seen_untraced]
  rcases h with ht | hne
  · have hsame : m.untraced = m := by
      rw [Machine.untraced, ← ht]
    rw [hsame]
  · obtain ⟨hresult, hafter⟩ := hx.transparent.untraced m hne
    rw [seen, seen, hresult, hafter]
    rfl

theorem comesTo (hx : Unaware x) {result : Except Stop α} {m' : Machine}
    (h : x.seen m.unobserved = (result, m'.unobserved)) : x.ComesTo m result m' :=
  fun hends => (hx.seen_unobserved hends).symm.trans h

/-- What follows goes on from what is seen. -/
theorem seen_bind_of_ok {a : α} (hx : Unaware x) (hf : Unaware (f a)) (ht : m.trace = none)
    (h : x.seen m = (.ok a, p)) : (x >>= f).seen m = (f a).seen p := by
  obtain ⟨hresult, hafter⟩ := Prod.mk.inj h
  have hsame : (f a).seen (x.after m).unobserved = (f a).seen (x.after m) :=
    hf.seen_unobserved (.inl (hx.trace_after ht))
  rw [← hafter, hsame, seen, seen, result_bind_ok hresult, after_bind_ok hresult]

/-- What an action records is not seen by what follows. -/
theorem seen_record_bind {y : Action β} (hy : Unaware y) (ht : m.trace = none) (o : Occurrence) :
    (Machine.record o >>= fun _ => y).seen m = y.seen m.unobserved :=
  (record o).seen_bind_of_ok hy ht rfl

end Unaware

theorem Action.ends_of_ok {x : Action α} {a : α} (h : x.result m = .ok a) : x.Ends m := by
  refine .inr fun hunfinished => ?_
  rw [h] at hunfinished
  cases hunfinished

theorem Action.seen_of_run {x : Action α} {result : Except Stop α} (h : x.run.run m = (result, p)) :
    x.seen m = (result, p.unobserved) := by
  rw [seen, Action.result, after, h]

theorem Action.seen_bind_of_error {x : Action α} {f : α → Action β} {e : Stop}
    (h : x.seen m = (.error e, p)) : (x >>= f).seen m = (.error e, p) := by
  obtain ⟨hresult, hafter⟩ := Prod.mk.inj h
  rw [seen, result_bind_error hresult, after_bind_error hresult, hafter]

/-- A command to which nobody listens does what its name stands for. -/
theorem seen_exec_of_unheard {depth : Nat} {name : Text} {params : List Text} {effect : Effect}
    {result : Except Stop Value} (ht : m.trace = none) (hl : m.registry.lookup name = some effect)
    (h : (enact (exec depth) effect params).seen m = (result, p)) (hu : p.Unheard name) :
    (exec (depth + 1) (name :: params)).seen m = (result, p) := by
  obtain ⟨hresult, hafter⟩ := Prod.mk.inj h
  have hunheard : ((enact (exec depth) effect params).after m).Unheard name := by
    rw [← hafter] at hu
    exact hu
  have hrun := exec_of_unheard ht hl (Prod.ext hresult rfl) hunheard
  rw [seen, Action.result, Action.after, hrun]
  exact Prod.ext rfl hafter

end Linewise
