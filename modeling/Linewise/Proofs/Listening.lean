import Linewise.Proofs.JumpQueue
import Linewise.Proofs.Lifting
import Mathlib.Data.List.Forall2

/-!
# How events reach their listeners

Listeners are commands like all others: while an event is delivered they can listen to it as well, or
trigger it again. Triggering applies the listeners that the event has when it begins (`trigger_spec`). A
`Whole` stretch of history says what comes of that: each trigger names the listeners that its event had
then, and right after it each of these is applied, in order and to the same arguments (`Applied`), and what
a listener does is whole before the next one is called. Every action of a run leaves a whole stretch
behind, or one that ends inside of a call that an error has cut short (`Answers`). The lists of listeners
themselves only grow (`lasting_grows`).
-/

namespace Linewise

open Machine Linewise.Action Control

/-! ## Stretches of history -/

/-- Whether an occurrence is part of calling listeners. -/
def Occurrence.isCall : Occurrence → Bool
  | .triggered _ _ _ => true
  | .delivered _ _ _ => true
  | _ => false

/-- The call of a listener, and what it did, in order. -/
structure Call where
  call : Moment
  doings : List Moment

/-- Calls one after the other. -/
def unfoldCalls (calls : List Call) : List Moment := calls.flatMap fun c => c.call :: c.doings

theorem unfoldCalls_cons_append (c : Call) (calls : List Call) (tail : List Moment) :
    unfoldCalls (c :: calls) ++ tail = c.call :: (c.doings ++ (unfoldCalls calls ++ tail)) := by
  simp [unfoldCalls]

/-- A listener has been applied right after its call was recorded, to the arguments of the event; these
are its doings, and it has come to its end or been stopped by an error. -/
structure Applied (event : Text) (args : List Text) (listener : Executable) (finished : Bool)
    (c : Call) : Prop where
  occurrence : c.call.occurrence = .delivered event args listener
  application : ∃ depth m, m.history.head? = some c.call ∧
    ((apply (exec depth) listener args).result m).isOk = finished ∧
    ((apply (exec depth) listener args).after m).history = c.doings.reverse ++ m.history

/-- The calls are those of these listeners, in order, and each listener has come to its end. -/
def CallsOf (event : Text) (args : List Text) (listeners : List Executable) (calls : List Call) : Prop :=
  List.Forall₂ (fun listener c => Applied event args listener true c) listeners calls

/-- Some moments, in order, in which every trigger is followed by the calls of its listeners, and there
are no other calls. -/
inductive Whole : List Moment → Prop
  | nil : Whole []
  | other {moment : Moment} {rest : List Moment} (h : moment.occurrence.isCall = false)
      (hrest : Whole rest) : Whole (moment :: rest)
  | trigger {moment : Moment} {rest : List Moment} {event : Text} {args : List Text}
      {listeners : List Executable} (calls : List Call)
      (ht : moment.occurrence = .triggered event args listeners)
      (hl : moment.listeners.get? event = some listeners) (hcalls : CallsOf event args listeners calls)
      (hdoings : ∀ c ∈ calls, Whole c.doings) (hrest : Whole rest) :
      Whole (moment :: (unfoldCalls calls ++ rest))

/-- Some moments, in order, that are whole up to a trigger one of whose listeners has not come to its
end; what this listener did is of the same kind. -/
inductive Cut : List Moment → Prop
  | whole {new : List Moment} (h : Whole new) : Cut new
  | within {front rest : List Moment} {moment last : Moment} {event : Text} {args : List Text}
      {listener : Executable} {served skipped : List Executable} (calls : List Call)
      (hfront : Whole front)
      (ht : moment.occurrence = .triggered event args (served ++ listener :: skipped))
      (hl : moment.listeners.get? event = some (served ++ listener :: skipped))
      (hcalls : CallsOf event args served calls) (hdoings : ∀ c ∈ calls, Whole c.doings)
      (hlast : Applied event args listener false ⟨last, rest⟩) (hrest : Cut rest) :
      Cut (front ++ moment :: (unfoldCalls calls ++ last :: rest))

theorem Whole.append {front back : List Moment} (h : Whole front) (h' : Whole back) :
    Whole (front ++ back) := by
  induction h with
  | nil => exact h'
  | other ho _ ih => exact .other ho ih
  | trigger calls ht hl hcalls hdoings _ _ ih =>
      rw [List.cons_append, List.append_assoc]
      exact .trigger calls ht hl hcalls hdoings ih

theorem Cut.prepend {front back : List Moment} (h : Whole front) (h' : Cut back) :
    Cut (front ++ back) := by
  cases h' with
  | whole hback => exact .whole (h.append hback)
  | within calls hfront ht hl hcalls hdoings hlast hrest =>
      rw [← List.append_assoc]
      exact .within calls (h.append hfront) ht hl hcalls hdoings hlast hrest

theorem whole_singleton {moment : Moment} (h : moment.occurrence.isCall = false) : Whole [moment] :=
  .other h .nil

/-! ## Actions -/

/-- What an action adds to the history of a machine is whole, or cut if the action stops. -/
def AnswersAt {α : Type} (x : Action α) (m : Machine) : Prop := ∃ new,
  (x.after m).history = new.reverse ++ m.history ∧ (∀ a, x.result m = .ok a → Whole new) ∧ Cut new

theorem AnswersAt.bind {α β : Type} {x : Action α} {f : α → Action β} {m : Machine} (hx : AnswersAt x m)
    (hf : ∀ a, x.result m = .ok a → AnswersAt (f a) (x.after m)) : AnswersAt (x >>= f) m := by
  obtain ⟨new, hnew, hwhole, hcut⟩ := hx
  cases hr : x.result m with
  | error e =>
      rw [AnswersAt, after_bind_error hr, result_bind_error hr]
      exact ⟨new, hnew, nofun, hcut⟩
  | ok a =>
      rw [AnswersAt, after_bind_ok hr, result_bind_ok hr]
      obtain ⟨new', hnew', hwhole', hcut'⟩ := hf a hr
      have hfront := hwhole a hr
      refine ⟨new ++ new', ?_, fun b hb => hfront.append (hwhole' b hb), hcut'.prepend hfront⟩
      rw [hnew', hnew, List.reverse_append, List.append_assoc]

theorem AnswersAt.of_history {α : Type} {x : Action α} {m : Machine} (h : (x.after m).history = m.history) :
    AnswersAt x m :=
  ⟨[], h, fun _ _ => .nil, .whole .nil⟩

/-- An action that does so on every machine. -/
def Answers {α : Type} (x : Action α) : Prop := ∀ m, AnswersAt x m

namespace Answers

variable {α β : Type} {x : Action α}

theorem bind {f : α → Action β} (hx : Answers x) (hf : ∀ a, Answers (f a)) : Answers (x >>= f) :=
  fun m => (hx m).bind fun a _ => hf a _

/-- An action that leaves the history alone. -/
theorem of_history (h : ∀ m, (x.after m).history = m.history) : Answers x := fun m => .of_history (h m)

theorem pure (a : α) : Answers (pure a) := of_history fun _ => rfl

theorem throw (e : Stop) : Answers (throw e : Action α) := of_history fun _ => rfl

theorem look {k : Machine → Action α} (h : ∀ m, Answers (k m)) : Answers (get >>= k) := fun m => h m m

theorem halt (f : Failure) : Answers (halt f : Action α) := by
  refine of_history fun m => ?_
  rw [after_halt]
  rfl

theorem note (mark : Char) (message : Heap → Option Text) : Answers (note mark message) := by
  refine of_history fun m => ?_
  obtain ⟨trace, h⟩ := after_note mark message m
  rw [h]

theorem indented (hx : Answers x) : Answers (indented x) := by
  intro m
  obtain ⟨before, trace, hresult, hafter⟩ := after_indented x m
  rw [AnswersAt, hresult, hafter]
  exact hx { m with trace := before }

theorem record {o : Occurrence} (h : o.isCall = false) : Answers (record o) := by
  intro m
  exact ⟨[m.moment o], rfl, fun _ _ => whole_singleton h, .whole (whole_singleton h)⟩

theorem write (delivery : Delivery) (bytes : Text) : Answers (write delivery bytes) := by
  refine (of_history fun _ => rfl).bind fun error => ?_
  cases error with
  | some e => exact halt _
  | none => exact record rfl

theorem turnToFeed (feed : Feed) : Answers (turnToFeed feed) := by
  refine turnToFeed_of_parts (P := fun _ x => Answers x) bind (pure ()) (fun _ => halt _)
    (fun _ => of_history fun _ => rfl) (look fun _ => record rfl) (look fun m => ?_)
  split
  · exact throw _
  · exact pure ()

end Answers

/-! ## Calling listeners -/

/-- Listeners have been called, and each has come to its end before the next. -/
structure Serves (event : Text) (args : List Text) (listeners : List Executable) (calls : List Call) :
    Prop where
  called : CallsOf event args listeners calls
  doings : ∀ c ∈ calls, Whole c.doings

/-- After a trigger a listener has been called that has not come to its end. -/
def CutShort (event : Text) (args : List Text) (listeners : List Executable) (later : List Moment) : Prop :=
  ∃ served listener skipped calls last rest, listeners = served ++ listener :: skipped ∧
    later = unfoldCalls calls ++ last :: rest ∧ Serves event args served calls ∧
    Applied event args listener false ⟨last, rest⟩ ∧ Cut rest

/-- All listeners have come to their end, or an error has stopped one of them and all else. -/
def PassedOn (event : Text) (args : List Text) (listeners : List Executable) (result : Except Stop Unit)
    (new : List Moment) : Prop :=
  (result = .ok () ∧ ∃ calls, new = unfoldCalls calls ∧ Serves event args listeners calls) ∨
    (∃ e, result = .error e) ∧ CutShort event args listeners new

section Calling

variable {depth : Nat} {event : Text} {args : List Text} {listener : Executable}
  {listeners : List Executable} {call : Moment} {doings : List Moment}

theorem Serves.nil : Serves event args [] [] := ⟨.nil, List.forall_mem_nil _⟩

theorem Serves.cons {calls : List Call} (hcall : Applied event args listener true ⟨call, doings⟩)
    (hdoings : Whole doings) (h : Serves event args listeners calls) :
    Serves event args (listener :: listeners) (⟨call, doings⟩ :: calls) where
  called := .cons hcall h.called
  doings := by
    rintro c (_ | ⟨_, hc⟩)
    · exact hdoings
    · exact h.doings c hc

theorem CutShort.here (hcall : Applied event args listener false ⟨call, doings⟩) (hdoings : Cut doings) :
    CutShort event args (listener :: listeners) (call :: doings) :=
  ⟨[], listener, listeners, [], call, doings, rfl, rfl, .nil, hcall, hdoings⟩

theorem CutShort.later {later : List Moment} (hcall : Applied event args listener true ⟨call, doings⟩)
    (hdoings : Whole doings) (h : CutShort event args listeners later) :
    CutShort event args (listener :: listeners) (call :: (doings ++ later)) := by
  obtain ⟨served, unserved, skipped, calls, last, rest, rfl, rfl, hserves, hlast, hrest⟩ := h
  refine ⟨listener :: served, unserved, skipped, ⟨call, doings⟩ :: calls, last, rest, rfl, ?_,
    hserves.cons hcall hdoings, hlast, hrest⟩
  rw [unfoldCalls_cons_append]

/-- Delivering calls the listeners one after the other until one of them stops. -/
theorem deliver_spec (event : Text) (args : List Text)
    (happly : ∀ ex args, Answers (apply (exec depth) ex args)) (exs : List Executable) (m : Machine) :
    ∃ new, ((deliver (exec depth) event args exs).after m).history = new.reverse ++ m.history ∧
      PassedOn event args exs ((deliver (exec depth) event args exs).result m) new := by
  induction exs generalizing m with
  | nil => exact ⟨[], rfl, .inl ⟨rfl, [], rfl, .nil⟩⟩
  | cons ex exs ih =>
      let call := m.moment (.delivered event args ex)
      let called : Machine := { m with history := call :: m.history }
      let next : Action Unit := apply (exec depth) ex args >>= fun _ => deliver (exec depth) event args exs
      have hrun : (deliver (exec depth) event args (ex :: exs)).run.run m = next.run.run called := rfl
      rw [show (deliver (exec depth) event args (ex :: exs)).after m = next.after called from
          congrArg Prod.snd hrun,
        show (deliver (exec depth) event args (ex :: exs)).result m = next.result called from
          congrArg Prod.fst hrun]
      obtain ⟨doings, hdoings, hwhole, hcut⟩ := happly ex args called
      cases hr : (apply (exec depth) ex args).result called with
      | error e =>
          have happlied : Applied event args ex false ⟨call, doings⟩ :=
            ⟨rfl, depth, called, rfl, by rw [hr]; rfl, hdoings⟩
          rw [after_bind_error hr, hdoings]
          exact ⟨call :: doings, by simp [called], .inr ⟨⟨e, result_bind_error hr⟩, .here happlied hcut⟩⟩
      | ok v =>
          have happlied : Applied event args ex true ⟨call, doings⟩ :=
            ⟨rfl, depth, called, rfl, by rw [hr]; rfl, hdoings⟩
          have hwhole := hwhole v hr
          have hresult : next.result called
              = (deliver (exec depth) event args exs).result ((apply (exec depth) ex args).after called) :=
            result_bind_ok hr
          obtain ⟨new, hnew, hspec⟩ := ih ((apply (exec depth) ex args).after called)
          rw [after_bind_ok hr, hnew, hdoings]
          refine ⟨call :: (doings ++ new), by simp [called], ?_⟩
          rcases hspec with ⟨hok, calls, rfl, hserves⟩ | ⟨⟨e, he⟩, hshort⟩
          · exact .inl ⟨hresult.trans hok, ⟨call, doings⟩ :: calls, rfl, hserves.cons happlied hwhole⟩
          · exact .inr ⟨⟨e, hresult.trans he⟩, hshort.later happlied hwhole⟩

/-- Triggering an event that has listeners calls those that it has now, with the texts of the payload. -/
theorem trigger_spec (happly : ∀ ex args, Answers (apply (exec depth) ex args)) {payload : List Value}
    {m : Machine} (hl : m.listeners.get? event = some listeners) (hne : listeners ≠ [])
    (hargs : texts? m.heap payload = some args) :
    ∃ new, ((trigger (exec depth) event payload).after m).history
        = new.reverse ++ m.moment (.triggered event args listeners) :: m.history ∧
      PassedOn event args listeners ((trigger (exec depth) event payload).result m) new := by
  obtain ⟨message, hrun⟩ := run_trigger hl hne hargs
  obtain ⟨new, hnew, hpassed⟩ := deliver_spec event args happly listeners { m with
    trace := m.trace.map fun t => t.add '!' message
    history := m.moment (.triggered event args listeners) :: m.history }
  rw [after, result, hrun]
  exact ⟨new, hnew, hpassed⟩

/-- A trigger that names the listeners of the moment, and the delivery to them. -/
theorem PassedOn.answers {result : Except Stop Unit} {new : List Moment}
    (h : PassedOn event args listeners result new) (moment : Moment)
    (ht : moment.occurrence = .triggered event args listeners)
    (hl : moment.listeners.get? event = some listeners) :
    (∀ u, result = .ok u → Whole (moment :: new)) ∧ Cut (moment :: new) := by
  rcases h with ⟨-, calls, rfl, hserves⟩ | ⟨⟨e, rfl⟩, hshort⟩
  · have hwhole : Whole (moment :: (unfoldCalls calls ++ [])) :=
      .trigger calls ht hl hserves.called hserves.doings .nil
    rw [List.append_nil] at hwhole
    exact ⟨fun _ _ => hwhole, .whole hwhole⟩
  · obtain ⟨served, listener, skipped, calls, last, rest, rfl, rfl, hserves, hlast, hrest⟩ := hshort
    exact ⟨nofun, .within calls .nil ht hl hserves.called hserves.doings hlast hrest⟩

theorem answers_trigger (happly : ∀ ex args, Answers (apply (exec depth) ex args)) (event : Text)
    (payload : List Value) : Answers (trigger (exec depth) event payload) := by
  intro m
  cases hl : m.listeners.get? event with
  | none =>
      refine .of_history ?_
      rw [trigger, after_get_bind, hl]
      rfl
  | some listeners =>
      cases listeners with
      | nil =>
          refine .of_history ?_
          rw [trigger, after_get_bind, hl]
          rfl
      | cons ex exs =>
          cases hargs : texts? m.heap payload with
          | none =>
              have htexts := run_payload payload m
              rw [hargs] at htexts
              have hrun : (trigger (exec depth) event payload).run.run m = (.error .unfinished, m) := by
                rw [trigger, run_get_bind, hl]
                exact run_bind_of_error htexts _
              refine .of_history ?_
              rw [after, hrun]
          | some args =>
              obtain ⟨new, hnew, hpassed⟩ := trigger_spec happly hl (List.cons_ne_nil ex exs) hargs
              obtain ⟨hwhole, hcut⟩ := hpassed.answers (m.moment _) rfl hl
              refine ⟨_, ?_, hwhole, hcut⟩
              rw [hnew, List.reverse_cons, List.append_assoc]
              rfl

end Calling

/-! ## Runs -/

theorem isCall_of_plain {o : Occurrence} (h : o.Plain) : o.isCall = false := by
  cases o with
  | triggered | delivered => exact h.elim
  | _ => rfl

theorem carries_answers : Carries .free (fun _ x => Answers x) fun _ => True where
  pure := .pure
  bind_of_result hx hf m := (hx m).bind fun a ha => hf m a (Conduct.free_good m) ha _
  look _ h := .look fun m => h m (Conduct.free_holds fun _ _ => trivial)
  throw _ := .throw _
  halt _ := .halt _
  fail _ := .look fun _ => .halt _
  outOfBounds _ := .halt _
  note := .note
  indented := .indented
  mark h := .record (isCall_of_plain h)
  calls event payload hself h := by
    obtain ⟨depth, rfl⟩ := hself
    exact answers_trigger (fun ex args => h ex args trivial (Conduct.free_fit ex)) event payload
  write := .write
  change hf := .of_history hf.history
  turn _ := .turnToFeed _
  rest _ _ := trivial

theorem answers_apply (depth : Nat) (ex : Executable) (args : List Text) :
    Answers (apply (exec depth) ex args) :=
  carries_answers.routine (Routine.apply (Routine.exec depth) (Conduct.free_fit ex) fun _ _ => trivial)

theorem answers_program (fuel : Nat) : Answers (program fuel) := by
  rw [program_eq]
  refine (carries_answers.unflushed fuel).bind fun _ => .of_history fun m => ?_
  rw [after_lastFlush]

/-- What a run has recorded is whole, or cut if the run has failed. -/
theorem run_whole_or_cut (fuel : Nat) {m : Machine} (hm : m.history = []) :
    ((program fuel).result m = .ok () → Whole (run fuel m).2.moments) ∧ Cut (run fuel m).2.moments := by
  obtain ⟨new, hnew, hwhole, hcut⟩ := answers_program fuel m
  have hmoments : (run fuel m).2.moments = new := by
    show ((program fuel).after m).history.reverse = new
    rw [hnew, hm, List.append_nil, List.reverse_reverse]
  rw [hmoments]
  exact ⟨hwhole (), hcut⟩

/-! ## Single triggers -/

/-- After a trigger all listeners have been called, and the rest came to pass afterwards. -/
def Served (event : Text) (args : List Text) (listeners : List Executable) (later : List Moment) : Prop :=
  ∃ calls rest, later = unfoldCalls calls ++ rest ∧ Serves event args listeners calls

/-- A trigger names the listeners that its event has, and they are served in what comes later, unless that
may be cut short. -/
def Reaches (cut : Prop) (moment : Moment) (later : List Moment) : Prop :=
  ∀ event args listeners, moment.occurrence = .triggered event args listeners →
    moment.listeners.get? event = some listeners ∧
      (Served event args listeners later ∨ cut ∧ CutShort event args listeners later)

section Reaching

variable {cut : Prop}

theorem reaches_of_other {moment : Moment} {later : List Moment}
    (h : ∀ event args listeners, moment.occurrence ≠ .triggered event args listeners) :
    Reaches cut moment later :=
  fun event args listeners ht => absurd ht (h event args listeners)

theorem throughout_unfoldCalls {event : Text} {args : List Text} {listeners : List Executable}
    {calls : List Call} (hcalls : CallsOf event args listeners calls) {tail : List Moment}
    (hdoings : ∀ c ∈ calls, ∀ tail, Throughout (Reaches cut) tail → Throughout (Reaches cut) (c.doings ++ tail))
    (htail : Throughout (Reaches cut) tail) : Throughout (Reaches cut) (unfoldCalls calls ++ tail) := by
  induction hcalls with
  | nil => exact htail
  | @cons listener c listeners calls hcall _ ih =>
      have hlater := ih fun c' hc' => hdoings c' (List.mem_cons_of_mem _ hc')
      rw [unfoldCalls_cons_append]
      refine ⟨reaches_of_other ?_, hdoings c List.mem_cons_self _ hlater⟩
      rw [hcall.occurrence]
      nofun

theorem Whole.throughout_append {front : List Moment} (h : Whole front) :
    ∀ tail, Throughout (Reaches cut) tail → Throughout (Reaches cut) (front ++ tail) := by
  induction h with
  | nil => exact fun _ htail => htail
  | other ho _ ih =>
      refine fun tail htail => ⟨reaches_of_other fun event args listeners ht => ?_, ih tail htail⟩
      rw [ht] at ho
      cases ho
  | trigger calls ht hl hcalls hdoings _ ihdoings ihrest =>
      intro tail htail
      rw [List.cons_append, List.append_assoc]
      refine ⟨?_, throughout_unfoldCalls hcalls ihdoings (ihrest tail htail)⟩
      intro event args listeners hother
      cases ht.symm.trans hother
      exact ⟨hl, .inl ⟨calls, _, rfl, hcalls, hdoings⟩⟩

theorem Whole.throughout {new : List Moment} (h : Whole new) : Throughout (Reaches cut) new := by
  have hall : Throughout (Reaches cut) (new ++ []) := h.throughout_append [] trivial
  rwa [List.append_nil] at hall

theorem Cut.throughout {new : List Moment} (h : Cut new) (hcut : cut) : Throughout (Reaches cut) new := by
  induction h with
  | whole hwhole => exact hwhole.throughout
  | within calls hfront ht hl hcalls hdoings hlast hrest ih =>
      refine hfront.throughout_append _ ⟨?_, throughout_unfoldCalls hcalls ?_ ⟨reaches_of_other ?_, ih⟩⟩
      · intro event args listeners hother
        cases ht.symm.trans hother
        exact ⟨hl, .inr ⟨hcut, _, _, _, calls, _, _, rfl, rfl, ⟨hcalls, hdoings⟩, hlast, hrest⟩⟩
      · exact fun c hc => (hdoings c hc).throughout_append
      · rw [hlast.occurrence]
        nofun

end Reaching

/-! ## Lists of listeners -/

/-- The listeners of an event, none if there is no list. -/
def listenersOf (listeners : Dict (List Executable)) (event : Text) : List Executable :=
  (listeners.get? event).getD []

/-- A new listener of an event comes last. -/
theorem listenersOf_insert (listeners : Dict (List Executable)) (event : Text) (ex : Executable)
    (other : Text) : listenersOf (listeners.insert event (listenersOf listeners event ++ [ex])) other
      = if other = event then listenersOf listeners event ++ [ex] else listenersOf listeners other := by
  rw [listenersOf, Dict.get?_insert]
  split <;> rfl

/-- More may listen to each event than before, behind those that already did. -/
def Grows (before after : Dict (List Executable)) : Prop :=
  ∀ event, listenersOf before event <+: listenersOf after event

theorem lasting_grows {c : Conduct} : Lasting c fun earlier moment => Grows earlier.listeners moment.listeners where
  same _ _ _ _ _ _ := List.prefix_rfl
  trans h h' event := (h event).trans (h' event)
  move hm _ _ _ event := by
    cases hm with
    | listen name ex =>
        show _ <+: listenersOf (Dict.insert _ name (listenersOf _ name ++ [ex])) event
        rw [listenersOf_insert]
        split
        · rename_i heq
          rw [heq]
          exact List.prefix_append _ _
        · exact List.prefix_rfl
    | _ => exact List.prefix_rfl

/-- The lists of listeners in the course of a run: before it, at every moment of it, and after it. -/
def listenersAlong (fuel : Nat) (m : Machine) : List (Dict (List Executable)) :=
  m.listeners :: ((run fuel m).2.moments.map Moment.listeners ++ [(run fuel m).2.listeners])

/-- Over a run the list of each event only grows, and only at its end. -/
theorem run_grows (fuel : Nat) {m : Machine} (hm : m.history = []) :
    (listenersAlong fuel m).Pairwise Grows := by
  obtain ⟨start, phase, hstart, hpath⟩ := run_path fuel m
  obtain ⟨-, hlisteners, -, hhistory⟩ := untouched_of_start hstart
  have hordered := hpath.ordered lasting_grows (hhistory.trans hm)
  have hsince : ∀ moment ∈ (run fuel m).2.history, Grows m.listeners moment.listeners := by
    intro moment hmoment
    rw [← hlisteners]
    exact hordered.since moment hmoment m.sink .ended
  have hend : Grows m.listeners (run fuel m).2.listeners := by
    rw [← hlisteners]
    exact lasting_grows.path hpath m.sink m.sink .ended .ended
  have hpairwise : (run fuel m).2.moments.Pairwise fun earlier moment =>
      Grows earlier.listeners moment.listeners := List.pairwise_reverse.mpr hordered.pairwise
  rw [listenersAlong, List.pairwise_cons, List.pairwise_append, List.pairwise_map]
  refine ⟨?_, hpairwise, List.pairwise_singleton _ _, ?_⟩
  · intro listeners hlisteners
    rcases List.mem_append.mp hlisteners with h | h
    · obtain ⟨moment, hmoment, rfl⟩ := List.mem_map.mp h
      exact hsince moment (List.mem_reverse.mp hmoment)
    · rw [List.mem_singleton.mp h]
      exact hend
  · intro listeners hlisteners other hother
    obtain ⟨moment, hmoment, rfl⟩ := List.mem_map.mp hlisteners
    rw [List.mem_singleton.mp hother]
    exact hordered.now moment (List.mem_reverse.mp hmoment) m.sink .ended

/-- A listener is added at the end of the list of its event, and over every run the lists only grow so. To
trigger an event is to apply the listeners in its list, each once, in order and to the texts of the
payload, with all that each of them does before the next one is called, unless an error stops one of them.
Along a run every trigger, the nested ones included, names the listeners that its event has at that moment,
and what follows is their calls, unless the run has failed in one of them; there are no other calls. -/
theorem run_reaches (fuel : Nat) {m : Machine} (hm : m.history = []) :
    (∀ (state : Machine) event ex other, listenersOf (state.listen event ex).listeners other
      = if other = event then listenersOf state.listeners event ++ [ex]
        else listenersOf state.listeners other) ∧
    (listenersAlong fuel m).Pairwise Grows ∧
    (∀ depth event payload args listeners (state : Machine), state.listeners.get? event = some listeners →
      listeners ≠ [] → texts? state.heap payload = some args →
      ∃ new, ((trigger (exec depth) event payload).after state).history
          = new.reverse ++ state.moment (.triggered event args listeners) :: state.history ∧
        PassedOn event args listeners ((trigger (exec depth) event payload).result state) new) ∧
    (∀ past moment later event args listeners, (run fuel m).2.moments = past ++ moment :: later →
      moment.occurrence = .triggered event args listeners →
      moment.listeners.get? event = some listeners ∧
        (Served event args listeners later ∨
          (∃ e, (program fuel).result m = .error e) ∧ CutShort event args listeners later)) ∧
    Cut (run fuel m).2.moments ∧ ((program fuel).result m = .ok () → Whole (run fuel m).2.moments) := by
  obtain ⟨hwhole, hcut⟩ := run_whole_or_cut fuel hm
  have hall : Throughout (Reaches (∃ e, (program fuel).result m = .error e)) (run fuel m).2.moments := by
    cases hr : (program fuel).result m with
    | error e => exact hcut.throughout ⟨e, rfl⟩
    | ok u => exact (hwhole hr).throughout
  refine ⟨fun _ _ _ _ => listenersOf_insert _ _ _ _, run_grows fuel hm, ?_, ?_, hcut, hwhole⟩
  · intro depth event payload args listeners state hl hne hargs
    exact trigger_spec (answers_apply depth) hl hne hargs
  · intro past moment later event args listeners hsplit ht
    rw [hsplit] at hall
    exact hall.of_split event args listeners ht

/-- A machine with a program in which a listener of `rem` runs `rem` again, and another one listens for
more. -/
def echoing : Machine :=
  { initial .standard with
    sources := .ofSources [.ofText "p" ("push s eval string a\npush s eval rem\n" ++
      "on rem eval exec -- pop s\non rem eval on rem eval string b\nrem\n")] }

/-- The listener of `rem` that runs what is on a stack. -/
def again : Executable := .closure "eval" ["exec", "--", "pop", "s"]

/-- The listener of `rem` that adds one. -/
def adding : Executable := .closure "eval" ["on", "rem", "eval", "string", "b"]

/-- Both are called, the first of which runs `rem` once more, and two more listen in the end. -/
theorem echoing_reaches :
    Served "rem" [] [again, adding] ((run 20 echoing).2.moments.drop 20) ∧
      (listenersOf (run 20 echoing).2.listeners "rem").length = 4 := by
  obtain ⟨-, -, -, hreaches, -⟩ := run_reaches 20 (m := echoing) rfl
  have hok : (program 20).result echoing = .ok () :=
    congrArg Prod.fst (run_of_toOption (by decide +kernel))
  have hoccurrence : (run 20 echoing).2.moments[19]?.map Moment.occurrence
      = some (.triggered "rem" [] [again, adding]) := by decide +kernel
  obtain ⟨moment, hmoment, htriggered⟩ := Option.map_eq_some_iff.mp hoccurrence
  obtain ⟨hlt, hat⟩ := List.getElem?_eq_some_iff.mp hmoment
  have hsplit : (run 20 echoing).2.moments
      = (run 20 echoing).2.moments.take 19 ++ moment :: (run 20 echoing).2.moments.drop 20 := by
    rw [← hat, List.getElem_cons_drop hlt, List.take_append_drop]
  refine ⟨?_, by decide +kernel⟩
  rcases (hreaches _ _ _ _ _ _ hsplit htriggered).2 with hserved | ⟨⟨e, he⟩, -⟩
  · exact hserved
  · rw [hok] at he
    cases he

end Linewise
