import Linewise.Proofs.Confinement
import Linewise.Proofs.Tracing

/-!
# Partial application

A closure holds the tokens that it was made from, and applying it dispatches them with the arguments at
the end. `exec` takes the arguments from before the first `--`, so `exec A -- eval T` comes to `T A`, a
curried command takes its arguments piece by piece, and a name that was defined by `eval T` stands for
`T`. This is so whatever `T A` does, as long as nobody listens to the commands around it: the laws are
equalities of results, stops and machines, up to the history, which records the commands around it too.
-/

namespace Linewise

open Machine Linewise.Action

namespace Machine

/-- Nobody listens to an event. -/
def Unheard (m : Machine) (event : Text) : Prop :=
  m.listeners.get? event = none ∨ m.listeners.get? event = some []

instance (m : Machine) (event : Text) : Decidable (m.Unheard event) :=
  inferInstanceAs (Decidable (_ ∨ _))

/-- The builtins that make closures, apply them and name them. -/
def closureBuiltins : List Builtin := [.exec, .eval, .curry, .define]

/-- A machine without a trace on which these are what they were made to be, and nobody listens to them. -/
structure Applicative (m : Machine) : Prop where
  trace : m.trace = none
  effects : ∀ b ∈ closureBuiltins, m.registry.lookup b.name = some (.builtin b)
  unheard : ∀ b ∈ closureBuiltins, m.Unheard b.name

theorem Applicative.setHistory {m : Machine} (hm : m.Applicative) (history : List Moment) :
    { m with history }.Applicative :=
  ⟨hm.trace, hm.effects, hm.unheard⟩

end Machine

/-- Two actions come to the same on a machine: to the same result or stop, and to the same machine but for
its history. -/
def SameOn (m : Machine) {α : Type} (x y : Action α) : Prop :=
  x.result m = y.result m ∧ ∃ history, x.after m = { y.after m with history }

/-! ## Dispatching without a trace -/

/-- No command starts a trace. -/
theorem trace_after_routine {α : Type} {x : Action α} {post : α → Prop} (hx : Routine .free x post)
    {m : Machine} (h : m.trace = none) : (x.after m).trace = none := by
  obtain ⟨added, hadded⟩ := (lifts_transparent.routine hx).trace m
  rw [hadded, h]
  rfl

theorem indented_of_none {α : Type} {x : Action α} {m m' : Machine} {result : Except Stop α}
    (hx : x.run.run m = (result, m')) (h : m.trace = none) (h' : m'.trace = none) :
    (indented x).run.run m = (result, m') := by
  have hresult : x.result m = result := congrArg Prod.fst hx
  have hafter : x.after m = m' := congrArg Prod.snd hx
  let deeper (t : Trace) : Trace := { t with depth := t.depth + 1 }
  let back (t : Trace) : Trace := { t with depth := t.depth - 1 }
  -- there is no depth to add to, and none to take back
  have hdeeper : { m with trace := m.trace.map deeper } = m := by
    rw [h, Option.map_none, ← h]
  have hback : { m' with trace := m'.trace.map back } = m' := by
    rw [h', Option.map_none, ← h']
  show (x.result { m with trace := m.trace.map deeper }, { x.after { m with trace := m.trace.map deeper } with
    trace := (x.after { m with trace := m.trace.map deeper }).trace.map back }) = _
  rw [hdeeper, hresult, hafter, hback]

/-- What follows a command that has a result: a note, and the event of its name. -/
def report (self : Dispatch) (name : Text) (params : List Text) (v : Value) : Action Value := do
  note '>' fun h => do
    return name ++ (32 :: Quoted.texts params) ++ Text.ofString " => " ++ (← h.shown? v)
  trigger self name [v]
  return v

theorem dispatch_eq (self : Dispatch) (name : Text) (params : List Text) :
    dispatch self (name :: params) = indented (effectOf name >>= fun effect =>
      enact self effect params >>= report self name params) := rfl

theorem report_of_unheard (self : Dispatch) {name : Text} (params : List Text) (v : Value) {m : Machine}
    (ht : m.trace = none) (hu : m.Unheard name) :
    (report self name params v).run.run m = (.ok v, m) := by
  rw [report, run_bind_of_ok (note_of_none ht), run_bind_of_ok (trigger_unheard hu)]
  rfl

/-- A command to which nobody listens does what its name stands for. -/
theorem exec_of_unheard {depth : Nat} {m m' : Machine} {name : Text} {params : List Text}
    {effect : Effect} {result : Except Stop Value} (ht : m.trace = none)
    (hl : m.registry.lookup name = some effect)
    (hrun : (enact (exec depth) effect params).run.run m = (result, m')) (hu : m'.Unheard name) :
    (exec (depth + 1) (name :: params)).run.run m = (result, m') := by
  have htrace : m'.trace = none := by
    have hroutine : Routine .free (enact (exec depth) effect params) Conduct.free.Harmless :=
      Routine.enact (Routine.exec depth) (Conduct.free_sound effect) fun _ _ => trivial
    have hafter : (enact (exec depth) effect params).after m = m' := congrArg Prod.snd hrun
    rw [← hafter]
    exact trace_after_routine hroutine ht
  rw [exec, dispatch_eq]
  refine indented_of_none ?_ ht htrace
  rw [run_bind_of_ok (Prod.ext (effectOf_of_some hl).1 (effectOf_of_some hl).2)]
  cases result with
  | error e => rw [run_bind, Action.result, Action.after, hrun]
  | ok v =>
      rw [run_bind_of_ok hrun]
      exact report_of_unheard (exec depth) params v htrace hu

/-! ## Making and applying closures -/

theorem apply_closure {m : Machine} (h : m.trace = none) (self : Dispatch) (via : Text)
    (params args : List Text) :
    (apply self (.closure via params) args).run.run m = (self (params ++ args)).run.run m := by
  unfold apply
  exact run_bind_of_ok (note_of_none h) _

/-- What stands between the arguments of `exec` and its command. -/
def dashes : Text := "--"

/-- The arguments end at the first `--`. -/
theorem splitArguments_append {args : List Text} (h : dashes ∉ args) (command : List Text) :
    splitArguments (args ++ dashes :: command) = (args, command) := by
  have hne : ∀ t ∈ args, decide (t ≠ dashes) = true := by
    intro t ht
    refine decide_eq_true ?_
    rintro rfl
    exact h ht
  have hcontains : (args ++ dashes :: command).contains dashes = true := by simp
  show (if (args ++ dashes :: command).contains dashes then
    ((args ++ dashes :: command).takeWhile (· ≠ dashes),
      ((args ++ dashes :: command).dropWhile (· ≠ dashes)).tail)
    else ([], args ++ dashes :: command)) = _
  rw [if_pos hcontains, List.takeWhile_append_of_pos hne, List.dropWhile_append_of_pos hne]
  simp

namespace Machine

/-- An action makes a closure of these tokens, whatever the machine has done before, and does nothing
else. -/
def Makes (m : Machine) (x : Action Value) (params : List Text) : Prop :=
  ∀ past, ∃ via history, x.run.run { m with history := past }
    = (.ok (.executable (.closure via params)), { m with history })

variable {m : Machine}

/-- `eval` and `curry` make closures of their parameters. -/
theorem Applicative.makes_quoted (hm : m.Applicative) {b : Builtin} (hb : b = .eval ∨ b = .curry)
    (depth : Nat) (params : List Text) : m.Makes (exec (depth + 1) (b.name :: params)) params := by
  intro past
  have hmem : b ∈ closureBuiltins := by rcases hb with rfl | rfl <;> decide
  have hperform : (perform (exec depth) b params).run.run { m with history := past }
      = (.ok (.executable (.closure b.name params)), { m with
          history := m.moment (.performed b) :: past }) := by
    rcases hb with rfl | rfl <;> rfl
  refine ⟨b.name, m.moment (.performed b) :: past, ?_⟩
  exact exec_of_unheard (by exact hm.trace) (hm.effects b hmem) hperform (hm.unheard b hmem)

/-- `exec` applies the closure that its command makes to the arguments. -/
theorem Applicative.sameOn_exec (hm : m.Applicative) {depth : Nat} {command params args : List Text}
    (hmakes : m.Makes (exec depth command) params) (hargs : dashes ∉ args)
    (hu : ((exec depth (params ++ args)).after m).Unheard "exec") :
    SameOn m (exec (depth + 1) ("exec" :: (args ++ dashes :: command))) (exec depth (params ++ args)) := by
  obtain ⟨via, history, hcommand⟩ := hmakes (m.moment (.performed .exec) :: m.history)
  obtain ⟨hresult, history', hafter⟩ := exec_history depth (params ++ args) m history
  -- the closure is applied to the arguments on a machine with a longer history
  have happly := apply_closure (m := { m with history }) hm.trace (exec depth) via params args
  have hperform : (perform (exec depth) .exec (args ++ dashes :: command)).run.run m
      = (exec depth (params ++ args)).run.run { m with history } := by
    rw [← happly]
    show (exec depth (splitArguments (args ++ dashes :: command)).2 >>= fun v => executableOf v >>= fun ex =>
      apply (exec depth) ex (splitArguments (args ++ dashes :: command)).1).run.run
        { m with history := m.moment (.performed .exec) :: m.history } = _
    rw [splitArguments_append hargs, run_bind_of_ok hcommand]
    rfl
  have hrun : (exec (depth + 1) ("exec" :: (args ++ dashes :: command))).run.run m
      = (exec depth (params ++ args)).run.run { m with history } := by
    refine exec_of_unheard hm.trace (hm.effects .exec (by decide)) hperform ?_
    show ((exec depth (params ++ args)).after { m with history }).Unheard "exec"
    rw [hafter]
    exact hu
  exact ⟨(congrArg Prod.fst hrun).trans hresult, history', (congrArg Prod.snd hrun).trans hafter⟩

/-- `exec` can make a closure, too. -/
theorem Applicative.makes_exec (hm : m.Applicative) {depth : Nat} {command params args made : List Text}
    (hmakes : m.Makes (exec depth command) params) (hargs : dashes ∉ args)
    (hmade : m.Makes (exec depth (params ++ args)) made) :
    m.Makes (exec (depth + 1) ("exec" :: (args ++ dashes :: command))) made := by
  intro past
  have hm' := hm.setHistory past
  obtain ⟨via, history, hrun⟩ := hmade past
  have hclosure : (exec depth (params ++ args)).result { m with history := past } = _ :=
    congrArg Prod.fst hrun
  have hleft : (exec depth (params ++ args)).after { m with history := past } = _ :=
    congrArg Prod.snd hrun
  have hunheard : ((exec depth (params ++ args)).after { m with history := past }).Unheard "exec" := by
    rw [hleft]
    exact hm.unheard .exec (by decide)
  obtain ⟨hresult, history', hafter⟩ := hm'.sameOn_exec (fun past' => hmakes past') hargs hunheard
  refine ⟨via, history', ?_⟩
  rw [hclosure] at hresult
  rw [hleft] at hafter
  exact Prod.ext hresult hafter

/-- A definition by `eval` succeeds and registers a closure. -/
theorem Applicative.define_run (hm : m.Applicative) (depth : Nat) (name : Text) (params : List Text) :
    ∃ via history, (exec (depth + 2) ("define" :: name :: "eval" :: params)).run.run m
      = (.ok .undefined, { m with
          registry := m.registry.register name (.apply (.closure via params))
          history }) := by
  obtain ⟨via, history, hmade⟩ :=
    hm.makes_quoted (.inl rfl) depth params (m.moment (.performed .define) :: m.history)
  refine ⟨via, m.moment (.defined name (.closure via params)) :: history, ?_⟩
  refine exec_of_unheard hm.trace (hm.effects .define (by decide)) ?_ (hm.unheard .define (by decide))
  show (exec (depth + 1) ("eval" :: params) >>= fun v => executableOf v >>= fun ex =>
    defineCommand name ex >>= fun _ => (pure .undefined : Action Value)).run.run { m with
      history := m.moment (.performed .define) :: m.history } = _
  exact run_bind_of_ok hmade _

/-- A name that was defined by a closure stands for its tokens. -/
theorem run_defined (hm : m.trace = none) {name : Text} {params : List Text} {via : Text}
    (hl : m.registry.lookup name = some (.apply (.closure via params))) {depth : Nat} {args : List Text}
    (hu : ((exec depth (params ++ args)).after m).Unheard name) :
    (exec (depth + 1) (name :: args)).run.run m = (exec depth (params ++ args)).run.run m :=
  exec_of_unheard hm hl (apply_closure hm (exec depth) via params args) hu

end Machine

/-! ## The laws -/

/-- Applying a closure is dispatching its tokens and the arguments: at once, in two steps, and under a
name. Nothing is asked of the tokens, which may fail, jump, redefine commands or contain `--`, but that
they do not make somebody listen to the command around them. -/
theorem partial_application {m : Machine} (hm : m.Applicative) (tokens : List Text) (depth : Nat) :
    (∀ args, dashes ∉ args → ((exec (depth + 1) (tokens ++ args)).after m).Unheard "exec" →
      SameOn m (exec (depth + 2) ("exec" :: (args ++ dashes :: "eval" :: tokens)))
        (exec (depth + 1) (tokens ++ args))) ∧
    (∀ args more, dashes ∉ args → dashes ∉ more →
      ((exec (depth + 2) (tokens ++ args ++ more)).after m).Unheard "exec" →
      SameOn m
        (exec (depth + 3) ("exec" :: (more ++ dashes :: "exec" ::
          (args ++ dashes :: "curry" :: "curry" :: tokens))))
        (exec (depth + 2) (tokens ++ args ++ more))) ∧
    ∀ name, ∃ defined,
      (exec (depth + 2) ("define" :: name :: "eval" :: tokens)).run.run m = (.ok .undefined, defined) ∧
      ∀ depth' args, ((exec depth' (tokens ++ args)).after defined).Unheard name →
        SameOn defined (exec (depth' + 1) (name :: args)) (exec depth' (tokens ++ args)) := by
  refine ⟨fun args hargs hu => ?_, fun args more hargs hmore hu => ?_, fun name => ?_⟩
  · exact hm.sameOn_exec (hm.makes_quoted (.inl rfl) depth tokens) hargs hu
  · -- the inner `exec` makes the closure of what has been curried so far
    have hcurry := hm.makes_quoted (.inr rfl) depth ("curry" :: tokens)
    have hcurried := hm.makes_quoted (.inr rfl) depth (tokens ++ args)
    exact hm.sameOn_exec (hm.makes_exec hcurry hargs hcurried) hmore hu
  · obtain ⟨via, history, hdefine⟩ := hm.define_run depth name tokens
    refine ⟨_, hdefine, fun depth' args hu => ?_⟩
    have hlookup : (m.registry.register name (.apply (.closure via tokens))).lookup name
        = some (.apply (.closure via tokens)) := by
      rw [Registry.lookup_register, if_pos rfl]
    have hrun := run_defined (m := { m with registry := _, history }) hm.trace hlookup hu
    exact ⟨congrArg Prod.fst hrun, _, congrArg Prod.snd hrun⟩

theorem applicative_initial : (initial .standard).Applicative where
  trace := rfl
  effects := by
    intro b hb
    simp only [closureBuiltins, List.mem_cons, List.not_mem_nil, or_false] at hb
    rcases hb with rfl | rfl | rfl | rfl <;> rfl
  unheard := by decide

/-- A text is put together at once, from curried pieces, and by a command of its own, for which `--` is a
piece like any other. -/
theorem string_partial_application :
    (exec 2 ["exec", "b", "--", "eval", "string", "a"]).result (initial .standard) = .ok (.text "a b") ∧
    (exec 3 ["exec", "c", "--", "exec", "b", "--", "curry", "curry", "string", "a"]).result
      (initial .standard) = .ok (.text "a b c") ∧
    ∃ defined, (exec 2 ["define", "say", "eval", "string", "a"]).run.run (initial .standard)
        = (.ok .undefined, defined) ∧
      (exec 2 ["say", "--", "b"]).result defined = .ok (.text "a -- b") := by
  obtain ⟨heval, hcurry, hdefine⟩ := partial_application applicative_initial ["string", "a"] 0
  refine ⟨?_, ?_, ?_⟩
  · exact (heval ["b"] (by decide) (by decide)).1
  · exact (hcurry ["b"] ["c"] (by decide) (by decide) (by decide)).1
  · obtain ⟨defined, hdefined, hsame⟩ := hdefine "say"
    have hafter : defined = (exec 2 ["define", "say", "eval", "string", "a"]).after (initial .standard) :=
      (congrArg Prod.snd hdefined).symm
    refine ⟨defined, hdefined, ?_⟩
    subst hafter
    exact (hsame 1 ["--", "b"] (by decide)).1

end Linewise
