import Linewise.Proofs.Lifting

/-!
# What keeping to a conduct means

An action that is `Confined` to a conduct leaves behind a machine on which the conduct is still kept, does
not touch the storage or the registry without the builtins for it, and takes no notice of the history,
nor of the arguments of the invocation if `arg` is not among the builtins. The last is a statement about
two machines that are `Alike`. All commands are confined (`Confined.exec`), and so is the loop of a run
(`Confined.body`).
-/

namespace Linewise

open Machine Linewise.Action

/-- A machine and its double, which has a history of its own, and arguments of its own if there is
nothing to read them. -/
inductive Alike (c : Conduct) (arguments : List Text) (m : Machine) : Machine → Prop
  | mk (history : List Moment) (h : c.builtin .arg → arguments = m.arguments) :
      Alike c arguments m { m with arguments, history }

theorem Alike.eq {c : Conduct} {arguments : List Text} {m m' : Machine} (h : Alike c arguments m m') :
    ∃ history, m' = { m with arguments, history } := by
  cases h with
  | mk history _ => exact ⟨history, rfl⟩

/-- Any feed will do. -/
def anyFeed (_ : Feed) : Prop := True

/-- What an action does to a machine on which a conduct is kept. -/
structure ConfinedOn (c : Conduct) {α : Type} (x : Action α) (m : Machine) : Prop where
  holds : c.Holds anyFeed (x.after m)
  leaves : c.Leaves m (x.after m)
  alike : ∀ arguments m', Alike c arguments m m' →
    x.result m' = x.result m ∧ Alike c arguments (x.after m) (x.after m')

/-- An action that keeps to a conduct. -/
def Confined (c : Conduct) {α : Type} (x : Action α) : Prop :=
  ∀ m, c.Holds anyFeed m → ConfinedOn c x m

namespace Confined

variable {c : Conduct} {α β : Type} {x : Action α}

/-! ## Putting actions together -/

/-- An action that does nothing to the machine but to its sink, its trace and its history. -/
theorem of_outer
    (hafter : ∀ m, ∃ sink trace history, x.after m = { m with sink, trace, history })
    (halike : ∀ arguments m m', Alike c arguments m m' →
      x.result m' = x.result m ∧ Alike c arguments (x.after m) (x.after m')) : Confined c x := by
  intro m hm
  obtain ⟨sink, trace, history, h⟩ := hafter m
  refine ⟨?_, ?_, fun arguments => halike arguments m⟩
  · rw [h]
    exact hm.congr (hm.good.congr rfl rfl rfl fun _ => rfl) rfl rfl
  · rw [h]
    exact ⟨fun _ => rfl, fun _ _ => rfl⟩

theorem pure (a : α) : Confined c (pure a) :=
  of_outer (fun _ => ⟨_, _, _, rfl⟩) fun _ _ _ h => ⟨rfl, h⟩

theorem throw (e : Stop) : Confined c (throw e : Action α) :=
  of_outer (fun _ => ⟨_, _, _, rfl⟩) fun _ _ _ h => ⟨rfl, h⟩

theorem bind_of_result {f : α → Action β} (hx : Confined c x)
    (hf : ∀ m a, c.Good m → x.result m = .ok a → Confined c (f a)) : Confined c (x >>= f) := by
  intro m hm
  have hfirst := hx m hm
  cases hr : x.result m with
  | error e =>
      refine ⟨?_, ?_, fun arguments m' h => ?_⟩
      · rw [after_bind_error hr]
        exact hfirst.holds
      · rw [after_bind_error hr]
        exact hfirst.leaves
      · obtain ⟨hresult, halike⟩ := hfirst.alike arguments m' h
        rw [hr] at hresult
        rw [result_bind_error hr, after_bind_error hr, result_bind_error hresult,
          after_bind_error hresult]
        exact ⟨rfl, halike⟩
  | ok a =>
      have hsecond := hf m a hm.good hr _ hfirst.holds
      refine ⟨?_, ?_, fun arguments m' h => ?_⟩
      · rw [after_bind_ok hr]
        exact hsecond.holds
      · rw [after_bind_ok hr]
        exact hfirst.leaves.trans hsecond.leaves
      · obtain ⟨hresult, halike⟩ := hfirst.alike arguments m' h
        rw [hr] at hresult
        rw [result_bind_ok hr, after_bind_ok hr, result_bind_ok hresult, after_bind_ok hresult]
        exact hsecond.alike arguments _ halike

theorem bind {f : α → Action β} (hx : Confined c x) (hf : ∀ a, Confined c (f a)) :
    Confined c (x >>= f) := hx.bind_of_result fun _ a _ _ => hf a

theorem look {k : Machine → Action α} (hk : c.Overlooks k)
    (h : ∀ m, c.Holds anyFeed m → Confined c (k m)) : Confined c (get >>= k) := by
  intro m hm
  have hkm := h m hm m hm
  refine ⟨hkm.holds, hkm.leaves, fun arguments m' hlike => ?_⟩
  have hsame : k m' = k m := by
    cases hlike with
    | mk history harguments => exact hk m m.trace arguments history harguments
  rw [result_get_bind, after_get_bind, result_get_bind, after_get_bind, hsame]
  exact hkm.alike arguments m' hlike

/-- The two machines of a pair that is alike are changed in the same way. -/
theorem change {f : Machine → α × Machine} (hf : Unseen c anyFeed f) : Confined c (modifyGet f) := by
  intro m hm
  refine ⟨hf.holds m hm, hf.leaves m hm.good, fun arguments m' hlike => ?_⟩
  cases hlike with
  | mk history harguments =>
      have haside := hf.aside m m.trace arguments history
      have htrace : { (f m).2 with trace := m.trace, arguments, history }
          = { (f m).2 with arguments, history } := by
        rw [← hf.trace m]
      rw [htrace] at haside
      rw [result_modifyGet, after_modifyGet, result_modifyGet, after_modifyGet, haside]
      refine ⟨rfl, .mk history fun harg => ?_⟩
      rw [hf.arguments m]
      exact harguments harg

/-! ## Elementary actions -/

theorem record (o : Occurrence) : Confined c (record o) := by
  refine of_outer (fun _ => ⟨_, _, _, rfl⟩) fun arguments m m' hlike => ⟨rfl, ?_⟩
  cases hlike with
  | mk history h => exact .mk _ h

/-- A change of the sink that depends on nothing else. -/
theorem onSink (f : Sink → α × Sink) :
    Confined c (modifyGet fun m => ((f m.sink).1, { m with sink := (f m.sink).2 })) := by
  refine of_outer (fun m => ⟨(f m.sink).2, m.trace, m.history, rfl⟩) fun arguments m m' hlike => ?_
  cases hlike with
  | mk history h => exact ⟨rfl, .mk history h⟩

theorem halt (f : Failure) : Confined c (halt f : Action α) := by
  refine of_outer (fun m => ?_) fun arguments m m' hlike => ?_
  · rw [after_halt]
    exact ⟨_, _, _, rfl⟩
  · rw [result_halt, result_halt, after_halt, after_halt]
    cases hlike with
    | mk history h => exact ⟨rfl, .mk history h⟩

theorem fail (fault : Fault) : Confined c (fail fault : Action α) :=
  look (fun _ _ _ _ _ => rfl) fun _ _ => halt _

theorem note (mark : Char) (message : Heap → Option Text) : Confined c (note mark message) := by
  refine of_outer (fun m => ?_) fun arguments m m' hlike => ?_
  · obtain ⟨trace, h⟩ := after_note mark message m
    exact ⟨m.sink, trace, m.history, h⟩
  · show ((Machine.note mark message).run.run m').1 = ((Machine.note mark message).run.run m).1 ∧
      Alike c arguments ((Machine.note mark message).run.run m).2 ((Machine.note mark message).run.run m').2
    cases hlike with
    | mk history h =>
        rcases Option.eq_none_or_eq_some m.trace with ht | ⟨t, ht⟩
        · rw [note_of_none ht,
            note_of_none (show ({ m with arguments, history } : Machine).trace = none from ht)]
          exact ⟨rfl, .mk history h⟩
        · rw [note_of_some ht,
            note_of_some (show ({ m with arguments, history } : Machine).trace = some t from ht)]
          dsimp only
          cases message m.heap with
          | none => exact ⟨rfl, .mk history h⟩
          | some s => exact ⟨rfl, .mk history h⟩

theorem indented (hx : Confined c x) : Confined c (indented x) := by
  intro m hm
  let deeper : Machine → Machine := fun m =>
    { m with trace := m.trace.map fun t => { t with depth := t.depth + 1 } }
  have hinner := hx (deeper m) (hm.congr (hm.good.congr rfl rfl rfl fun _ => rfl) rfl rfl)
  refine ⟨?_, ⟨hinner.leaves.storage, hinner.leaves.registry⟩, fun arguments m' hlike => ?_⟩
  · exact hinner.holds.congr (hinner.holds.good.congr rfl rfl rfl fun _ => rfl) rfl rfl
  · have hdeeper : Alike c arguments (deeper m) (deeper m') := by
      cases hlike with
      | mk history h => exact .mk history h
    obtain ⟨hresult, halike⟩ := hinner.alike arguments _ hdeeper
    refine ⟨hresult, ?_⟩
    show Alike c arguments
      { x.after (deeper m) with
        trace := (x.after (deeper m)).trace.map fun t => { t with depth := t.depth - 1 } }
      { x.after (deeper m') with
        trace := (x.after (deeper m')).trace.map fun t => { t with depth := t.depth - 1 } }
    generalize x.after (deeper m) = n at halike
    generalize x.after (deeper m') = n' at halike
    cases halike with
    | mk history h => exact .mk history h

theorem write (delivery : Delivery) (bytes : Text) : Confined c (write delivery bytes) := by
  refine bind (onSink fun sink => ((sink.write delivery bytes).1.error, (sink.write delivery bytes).2))
    fun error => ?_
  cases error with
  | some e => exact halt _
  | none => exact record _

theorem flush : Confined c flush := onSink Sink.flush

end Confined

/-! ## Turning to the feed -/

/-- Whether a machine has a dump hangs on its values only. -/
theorem Machine.isSome_dump? (m : Machine) (brief : Bool) :
    (m.dump? brief).isSome = (m.dumpStacks.isSome && m.dumpObject.isSome) := by
  unfold dump?
  cases m.dumpStacks <;> cases m.dumpObject <;> rfl

variable {c : Conduct}

/-- A dump shows the arguments, but it goes into the history and nowhere else. -/
theorem confined_recordAsking (feed : Feed) : Confined c (recordAsking feed) := by
  refine .of_outer (fun m => ⟨m.sink, m.trace, _, rfl⟩) fun arguments m m' hlike => ⟨rfl, ?_⟩
  cases hlike with
  | mk history h => exact .mk _ h

/-- Whether there is an end to the dump does not hang on the arguments. -/
theorem confined_checkView (feed : Feed) : Confined c (checkView feed) := by
  have hrun : ∀ m, (checkView feed).run.run m
      = (if feed.watched && (m.dump? true).isNone then .error .unfinished else .ok (), m) := by
    intro m
    rw [checkView, run_get_bind, view?, Option.isNone_map]
    split <;> rfl
  have hresult : ∀ m, (checkView feed).result m = _ := fun m => congrArg Prod.fst (hrun m)
  have hafter : ∀ m, (checkView feed).after m = m := fun m => congrArg Prod.snd (hrun m)
  refine .of_outer (fun m => ⟨m.sink, m.trace, m.history, hafter m⟩) fun arguments m m' hlike => ?_
  have hnone : (m'.dump? true).isNone = (m.dump? true).isNone := by
    rw [← Option.not_isSome, ← Option.not_isSome, isSome_dump?, isSome_dump?]
    cases hlike with
    | mk history h => rfl
  rw [hresult, hresult, hafter, hafter, hnone]
  exact ⟨rfl, hlike⟩

theorem confined_turnToFeed (feed : Feed) : Confined c (turnToFeed feed) :=
  turnToFeed_of_parts (P := fun _ x => Confined c x) .bind (.pure ()) (fun _ => .halt _) .onSink
    (confined_recordAsking feed) (confined_checkView feed)

theorem lifts_confined : Lifts c (fun _ x => Confined c x) anyFeed where
  pure := .pure
  bind_of_result := .bind_of_result
  look := .look
  throw _ := .throw _
  halt _ := .halt _
  fail := .fail
  outOfBounds _ := .halt _
  note := .note
  indented := .indented
  record _ := .record _
  write := .write
  change := .change
  turn _ := confined_turnToFeed _
  rest _ _ := trivial

/-- The loop of a run, and all that follows it, keeps to every conduct. -/
theorem Confined.body (fuel : Nat) : Confined c (body fuel) := by
  have hself : Routine.Dispatches c (exec fuel) := Routine.exec fuel
  refine (lifts_confined.cycle hself fuel fuel).bind fun _ => ?_
  refine (lifts_confined.announceEnd hself).bind fun _ => flush.bind fun e => ?_
  split
  · exact throw _
  · exact pure ()

/-- Running permitted tokens as a command keeps to the conduct. -/
theorem Confined.exec (depth : Nat) {tokens : List Text} (h : ∀ t ∈ tokens, c.token t) :
    Confined c (exec depth tokens) :=
  lifts_confined.routine ((Routine.exec depth).routine tokens h)

/-- No command looks at the history. -/
theorem exec_history (depth : Nat) (tokens : List Text) (m : Machine) (history : List Moment) :
    (exec depth tokens).result { m with history } = (exec depth tokens).result m ∧
      ∃ history', (exec depth tokens).after { m with history }
        = { (exec depth tokens).after m with history := history' } := by
  have hconfined : Confined .free (exec depth tokens) := .exec depth fun _ _ => trivial
  have hdouble : Alike .free m.arguments m { m with history } := .mk history fun _ => rfl
  obtain ⟨hresult, halike⟩ :=
    (hconfined m (Conduct.free_holds fun _ _ => trivial)).alike m.arguments _ hdouble
  refine ⟨hresult, ?_⟩
  generalize (exec depth tokens).after { m with history } = m' at halike
  cases halike with
  | mk history' harguments =>
      rw [harguments trivial]
      exact ⟨history', rfl⟩

/-! ## Whole runs -/

/-- Loading does not look at the arguments of the invocation. -/
theorem loadLines_arguments (count : Nat) (m : Machine) (arguments : List Text) :
    (loadLines count).result { m with arguments } = (loadLines count).result m ∧
      (loadLines count).after { m with arguments } = { (loadLines count).after m with arguments } := by
  induction count generalizing m with
  | zero => exact ⟨rfl, rfl⟩
  | succ count ih =>
      obtain ⟨answer, sources, hr⟩ : ∃ answer sources, m.sources.readLine = (answer, sources) := ⟨_, _, rfl⟩
      have hrun := loadLines_succ count hr
      have hrun' := loadLines_succ count (m := { m with arguments }) hr
      rw [show (loadLines (count + 1)).result m = _ from congrArg Prod.fst hrun,
        show (loadLines (count + 1)).after m = _ from congrArg Prod.snd hrun,
        show (loadLines (count + 1)).result { m with arguments } = _ from congrArg Prod.fst hrun',
        show (loadLines (count + 1)).after { m with arguments } = _ from congrArg Prod.snd hrun']
      cases answer with
      | line l => exact ih ({ m with sources }.addLine l.location l.text)
      | failed l message =>
          show (halt (.input message)).result _ = (halt (.input message)).result _ ∧
            (halt (.input message)).after _ = { (halt (.input message)).after _ with arguments }
          rw [result_halt, result_halt, after_halt, after_halt]
          exact ⟨rfl, rfl⟩
      | ended => exact ⟨rfl, rfl⟩

theorem loadProgram_arguments (m : Machine) (arguments : List Text) :
    loadProgram.result { m with arguments } = loadProgram.result m ∧
      loadProgram.after { m with arguments } = { loadProgram.after m with arguments } := by
  obtain ⟨hresult, hafter⟩ := loadLines_arguments (m.sources.remaining + 1) m arguments
  obtain ⟨hload, hloaded⟩ := loadProgram_eq m
  obtain ⟨hload', hloaded'⟩ := loadProgram_eq { m with arguments }
  rw [hload, hload', hloaded, hloaded']
  cases hr : (loadLines (m.sources.remaining + 1)).result m with
  | error e =>
      rw [hr] at hresult
      rw [result_bind_error hr, result_bind_error hresult, after_bind_error hr, after_bind_error hresult]
      exact ⟨rfl, hafter⟩
  | ok u =>
      rw [hr] at hresult
      rw [result_bind_ok hr, result_bind_ok hresult, after_bind_ok hr, after_bind_ok hresult, hafter]
      simp only [refuseEmpty, result_get_bind, after_get_bind]
      split
      · rw [result_fail, result_fail, after_fail, after_fail]
        exact ⟨rfl, rfl⟩
      · exact ⟨rfl, rfl⟩

variable {m : Machine}

/-- The loop starts on a machine that is as good as the one that was started. -/
theorem holds_started (good : c.Good m) (admitted : c.Admits (loadProgram.after m).script) :
    c.Holds anyFeed m.started where
  good := by
    obtain ⟨_, _, _, _, _, hloaded, _⟩ := loadProgram_after m
    rw [started, hloaded]
    exact good.congr rfl rfl rfl fun _ => rfl
  admits := admitted
  fed _ _ := trivial

theorem program_leaves (fuel : Nat) (good : c.Good m)
    (admitted : c.Admits (loadProgram.after m).script) : c.Leaves m ((program fuel).after m) := by
  have hloading : c.Leaves m (loadProgram.after m) := by
    obtain ⟨_, _, _, _, _, hloaded, _⟩ := loadProgram_after m
    rw [hloaded]
    exact ⟨fun _ => rfl, fun _ _ => rfl⟩
  cases hload : loadProgram.result m with
  | error e =>
      rw [(program_of_load_error fuel hload).2]
      exact hloading
  | ok u =>
      have hbody := (Confined.body fuel m.started (holds_started good admitted)).leaves
      rw [(program_of_load_ok fuel hload).2]
      exact hloading.trans ⟨hbody.storage, hbody.registry⟩

/-- Without `arg` the arguments of the invocation go through a run untouched. -/
theorem program_arguments (fuel : Nat) (good : c.Good m)
    (admitted : c.Admits (loadProgram.after m).script) (harg : ¬ c.builtin .arg)
    (arguments : List Text) :
    (program fuel).result { m with arguments } = (program fuel).result m ∧
      ∃ history, (program fuel).after { m with arguments }
        = { (program fuel).after m with arguments, history } := by
  obtain ⟨hresult, hafter⟩ := loadProgram_arguments m arguments
  cases hload : loadProgram.result m with
  | error e =>
      rw [hload] at hresult
      obtain ⟨hstop, hstopped⟩ := program_of_load_error fuel hload
      obtain ⟨hstop', hstopped'⟩ := program_of_load_error fuel hresult
      rw [hstop, hstop', hstopped, hstopped', hafter]
      exact ⟨rfl, _, rfl⟩
  | ok u =>
      rw [hload] at hresult
      obtain ⟨hgo, hgone⟩ := program_of_load_ok fuel hload
      obtain ⟨hgo', hgone'⟩ := program_of_load_ok fuel hresult
      have hstart : Alike c arguments m.started ({ m with arguments } : Machine).started := by
        rw [started, started, hafter]
        exact .mk _ fun h => absurd h harg
      have hbody := Confined.body fuel m.started (holds_started good admitted)
      obtain ⟨hsame, halike⟩ := hbody.alike arguments _ hstart
      rw [hgo, hgo', hgone, hgone']
      exact ⟨hsame, halike.eq⟩

end Linewise
