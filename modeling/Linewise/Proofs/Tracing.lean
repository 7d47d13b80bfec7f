import Linewise.Proofs.Lifting

/-!
# Tracing changes nothing

A trace takes notes of a run and is read by nobody. An action that is `Transparent` does the same on the
machine without its trace, and leaves the trace at the depth at which it was, with lines added, however
the action ends. All commands and all parts of the loop are; `run_untraced` says so of runs. The one thing
that only a traced run can do is to go on for ever, over the text of a value that contains itself.
-/

namespace Linewise

open Machine Linewise.Action

/-- The trace with lines added, the latest first. -/
def Trace.extend (t : Trace) (added : List Text) : Trace :=
  { t with linesBackwards := added ++ t.linesBackwards }

theorem Trace.extend_extend (t : Trace) (first second : List Text) :
    (t.extend first).extend second = t.extend (second ++ first) := by
  rw [extend, extend, extend, List.append_assoc]

theorem Trace.map_extend_nil (t : Option Trace) : (t.map fun t => t.extend []) = t := by
  cases t <;> rfl

/-- An action that does the same without a trace, unless it goes on for ever, and only adds lines to a
trace. -/
structure Transparent {α : Type} (x : Action α) : Prop where
  trace : ∀ m, ∃ added, (x.after m).trace = m.trace.map fun t => t.extend added
  untraced : ∀ m, x.result m ≠ .error .unfinished →
    x.result m.untraced = x.result m ∧ x.after m.untraced = (x.after m).untraced

namespace Transparent

variable {α β : Type} {x : Action α}

/-! ## Putting actions together -/

/-- An action that does not look at the trace and leaves it alone. -/
theorem modifyGet {f : Machine → α × Machine} (htrace : ∀ m, (f m).2.trace = m.trace)
    (h : ∀ m, f m.untraced = ((f m).1, (f m).2.untraced)) : Transparent (modifyGet f) where
  trace m := ⟨[], (htrace m).trans (Trace.map_extend_nil _).symm⟩
  untraced m _ := by
    rw [result_modifyGet, after_modifyGet, h]
    exact ⟨rfl, rfl⟩

theorem pure (a : α) : Transparent (pure a) where
  trace _ := ⟨[], (Trace.map_extend_nil _).symm⟩
  untraced _ _ := ⟨rfl, rfl⟩

theorem throw (e : Stop) : Transparent (throw e : Action α) where
  trace _ := ⟨[], (Trace.map_extend_nil _).symm⟩
  untraced _ _ := ⟨rfl, rfl⟩

/-- What follows an action has to be transparent for the results that the action can have. -/
theorem bind_of_result {f : α → Action β} (hx : Transparent x)
    (hf : ∀ m a, x.result m = .ok a → Transparent (f a)) : Transparent (x >>= f) where
  trace m := by
    obtain ⟨first, hfirst⟩ := hx.trace m
    cases hr : x.result m with
    | error e =>
        rw [after_bind_error hr]
        exact ⟨first, hfirst⟩
    | ok a =>
        obtain ⟨second, hsecond⟩ := (hf m a hr).trace (x.after m)
        rw [after_bind_ok hr, hsecond, hfirst, Option.map_map]
        exact ⟨second ++ first, by simp only [Function.comp_def, Trace.extend_extend]⟩
  untraced m hne := by
    cases hr : x.result m with
    | error e =>
        rw [result_bind_error hr] at hne
        obtain ⟨hresult, hafter⟩ := hx.untraced m (by rw [hr]; rintro ⟨⟩; exact hne rfl)
        rw [hr] at hresult
        rw [result_bind_error hr, after_bind_error hr, result_bind_error hresult,
          after_bind_error hresult]
        exact ⟨rfl, hafter⟩
    | ok a =>
        rw [result_bind_ok hr] at hne
        obtain ⟨hresult, hafter⟩ := hx.untraced m (by rw [hr]; nofun)
        rw [hr] at hresult
        rw [result_bind_ok hr, after_bind_ok hr, result_bind_ok hresult, after_bind_ok hresult, hafter]
        exact (hf m a hr).untraced (x.after m) hne

theorem bind {f : α → Action β} (hx : Transparent x) (hf : ∀ a, Transparent (f a)) :
    Transparent (x >>= f) := hx.bind_of_result fun _ a _ => hf a

theorem look {k : Machine → Action α} (hk : ∀ m, k m.untraced = k m) (h : ∀ m, Transparent (k m)) :
    Transparent (get >>= k) where
  trace m := (h m).trace m
  untraced m hne := by
    rw [result_get_bind, after_get_bind, hk]
    exact (h m).untraced m hne

/-! ## Writing and indenting the trace -/

theorem note (mark : Char) (message : Heap → Option Text) : Transparent (note mark message) := by
  have huntraced : ∀ m : Machine, (Machine.note mark message).run.run m.untraced = (.ok (), m.untraced) :=
    fun m => note_of_none rfl
  refine ⟨fun m => ?_, fun m hne => ?_⟩
  · show ∃ added, ((Machine.note mark message).run.run m).2.trace = _
    cases ht : m.trace with
    | none =>
        rw [note_of_none ht]
        exact ⟨[], ht⟩
    | some t =>
        rw [note_of_some ht]
        cases message m.heap with
        | none => exact ⟨[], ht⟩
        | some s => exact ⟨[_], rfl⟩
  · show ((Machine.note mark message).run.run m.untraced).1 = ((Machine.note mark message).run.run m).1 ∧
      ((Machine.note mark message).run.run m.untraced).2 = ((Machine.note mark message).run.run m).2.untraced
    have hne : ((Machine.note mark message).run.run m).1 ≠ .error .unfinished := hne
    rw [huntraced]
    cases ht : m.trace with
    | none =>
        rw [note_of_none ht]
        exact ⟨rfl, rfl⟩
    | some t =>
        rw [note_of_some ht] at hne ⊢
        cases hs : message m.heap with
        | none =>
            -- the text never ends: only a machine with a trace asks for it
            rw [hs] at hne
            exact absurd rfl hne
        | some s => exact ⟨rfl, rfl⟩

/-- The indentation is taken back, also when the action stops. -/
theorem indented (hx : Transparent x) : Transparent (indented x) where
  trace m := by
    obtain ⟨added, h⟩ := hx.trace { m with
      trace := m.trace.map fun t => { t with depth := t.depth + 1 } }
    refine ⟨added, ?_⟩
    show (x.after _).trace.map (fun t : Trace => { t with depth := t.depth - 1 }) = _
    rw [h]
    cases m.trace <;> rfl
  untraced m hne := by
    obtain ⟨hresult, hafter⟩ := hx.untraced { m with
      trace := m.trace.map fun t => { t with depth := t.depth + 1 } } hne
    refine ⟨hresult, ?_⟩
    have hdeep : x.after m.untraced = _ := hafter
    show { x.after m.untraced with
      trace := (x.after m.untraced).trace.map fun t : Trace => { t with depth := t.depth - 1 } } = _
    rw [hdeep]
    rfl

/-! ## Elementary actions -/

theorem record (o : Occurrence) : Transparent (record o) := modifyGet (fun _ => rfl) fun _ => rfl

theorem flush : Transparent flush := modifyGet (fun _ => rfl) fun _ => rfl

theorem halt (f : Failure) : Transparent (halt f : Action α) :=
  flush.bind fun _ => (note _ _).bind fun _ => throw _

theorem write (delivery : Delivery) (bytes : Text) : Transparent (write delivery bytes) := by
  refine bind (modifyGet (fun _ => rfl) fun _ => rfl) fun error => ?_
  cases error with
  | some e => exact halt _
  | none => exact record _

end Transparent

/-! ## Runs -/

/-- What is seen of the machine when the feed is asked is not the trace. -/
theorem transparent_turnToFeed (feed : Feed) : Transparent (turnToFeed feed) := by
  refine turnToFeed_of_parts (P := fun _ x => Transparent x) .bind (.pure ()) (fun _ => .halt _)
    (fun f => .modifyGet (fun _ => rfl) fun _ => rfl) (.look (fun _ => rfl) fun _ => .record _)
    (.look (fun _ => rfl) fun m => ?_)
  split
  · exact .throw _
  · exact .pure ()

theorem lifts_transparent : Lifts .free (fun _ x => Transparent x) fun _ => True where
  pure := .pure
  bind_of_result hx hf := .bind_of_result hx fun m a => hf m a (Conduct.free_good m)
  look hk h := .look (fun m => hk m none m.arguments m.history fun _ => rfl) fun m =>
    h m (Conduct.free_holds fun _ _ => trivial)
  throw _ := .throw _
  halt _ := .halt _
  fail _ := .look (fun _ => rfl) fun _ => .halt _
  outOfBounds _ := .halt _
  note := .note
  indented := .indented
  record _ := .record _
  write := .write
  change hf := .modifyGet hf.trace hf.untraced
  turn _ := transparent_turnToFeed _
  rest _ _ := trivial

theorem transparent_program (fuel : Nat) : Transparent (program fuel) := by
  rw [program_eq]
  refine (lifts_transparent.unflushed fuel).bind fun _ => Transparent.flush.bind fun e => ?_
  split
  · exact .throw _
  · exact .pure ()

/-- A run leaves its trace at the depth at which it was, with lines added; and a run that comes to an end
has the same outcome without a trace, and leaves the same machine behind, up to the trace. -/
theorem run_untraced (fuel : Nat) (m : Machine) :
    (∃ added, (run fuel m).2.trace = m.trace.map fun t => t.extend added) ∧
      ((run fuel m).1 ≠ .unfinished →
        run fuel m.untraced = ((run fuel m).1, (run fuel m).2.untraced)) := by
  have htransparent := transparent_program fuel
  refine ⟨htransparent.trace m, fun hended => ?_⟩
  have hne : (program fuel).result m ≠ .error .unfinished := by
    intro h
    rw [run_outcome, h] at hended
    exact hended rfl
  obtain ⟨hresult, hafter⟩ := htransparent.untraced m hne
  refine Prod.ext ?_ hafter
  rw [run_outcome, hresult, hafter]
  rfl

/-- A traced machine whose second line fails three commands deep. -/
def failingDeep : Machine :=
  { initial .standard with
    sources := .ofSources [.ofText "p" "print string x\nprint put push s nonsense\n"]
    sink := .one (.withBuffer .memory)
    trace := some .empty }

theorem failingDeep_untraced :
    run 9 failingDeep.untraced = (.failed (.fatal (some 1) (.unknownCommand "nonsense")),
        (run 9 failingDeep).2.untraced) ∧
      (run 9 failingDeep).2.trace.map Trace.depth = some 0 := by
  have hfailed : (run 9 failingDeep).1 = .failed (.fatal (some 1) (.unknownCommand "nonsense")) := by
    decide +kernel
  obtain ⟨⟨added, htrace⟩, huntraced⟩ := run_untraced 9 failingDeep
  rw [hfailed] at huntraced
  refine ⟨huntraced nofun, ?_⟩
  rw [htrace]
  rfl

end Linewise
