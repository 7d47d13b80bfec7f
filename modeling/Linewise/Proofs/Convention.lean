import Linewise.Proofs.Listening
import Linewise.Proofs.Observing

/-!
# How operators are called

An operator is applied by `exec`, under a name that was defined for it, or as the listener of an event.
All of these come to the same: it takes its operands off the stack that the first argument names, or off
`func`, gives its function of them, and leaves everything else alone (`Operated`). It never lacks an
operand, since a stack gives zeros when it has no more items.
-/

namespace Linewise

open Machine Linewise.Action

variable {op : Operator} {name : Text} {m m' : Machine}

/-- The stack with a name, an empty one if there is none. -/
def Machine.stackNamed (m : Machine) (name : Text) : Stack Value :=
  (m.namedStacks.get? name).elim .empty m.heap.stack

/-- What an operator is applied to on a stack: as many items as it takes, from the top and in the order in
which they were pushed, after a zero for each that is missing. -/
def Operator.operandsOn (op : Operator) (s : Stack Value) : List Value :=
  List.replicate (op.arity - s.size) Value.zero ++ (s.items.take op.arity).reverse

/-- An operator has been applied to the stack with a name. -/
structure Operated (op : Operator) (name : Text) (m : Machine) (result : Except Stop Value)
    (m' : Machine) : Prop where
  result : result
    = (m'.heap.operate op (op.operandsOn (m.stackNamed name))).mapError operatorStop
  /-- The operands are all there. -/
  complete : ∀ index count,
    m'.heap.operate op (op.operandsOn (m.stackNamed name)) ≠ .error (.missing index count)
  /-- The operands are gone from the stack, and nothing else is. -/
  left : m'.stackNamed name = ⟨(m.stackNamed name).items.drop op.arity⟩
  /-- The stack is the one that has the name, or else a new one. -/
  entered : m'.namedStacks.get? name
    = some ((m.namedStacks.get? name).getD ⟨m.heap.stackSlots.size⟩)
  names : ∀ other, other ≠ name → m'.namedStacks.get? other = m.namedStacks.get? other
  untouched : ∀ ref, m'.namedStacks.get? name ≠ some ref → m'.heap.stack ref = m.heap.stack ref
  rest : ∃ stackSlots namedStacks trace history,
    m' = { m with heap := { m.heap with stackSlots }, namedStacks, trace, history }

/-- The tokens of `exec` that give arguments to what a command makes. -/
inductive Passes (args command : List Text) : List Text → Prop
  | given (h : dashes ∉ args) : Passes args command (args ++ dashes :: command)
  | none (hargs : args = []) (h : dashes ∉ command) : Passes args command command

/-- Whichever way an operator is given these arguments, this result and this machine are what it comes
to. -/
structure AppliedAlike (op : Operator) (args : List Text) (m : Machine) (result : Except Stop Value)
    (m' : Machine) : Prop where
  /-- By `exec`, after the command that makes the operator. -/
  exec : ∀ depth command params before, Passes args command params →
    before.registry.lookup "exec" = some (.builtin .exec) →
    (exec depth command).run.run before = (.ok (.executable (.operator op)), m) → m.Unheard "exec" →
    (exec (depth + 1) ("exec" :: params)).ComesTo before result m'
  /-- Under a name that was defined for it. -/
  defined : ∀ depth name, m.registry.lookup name = some (.apply (.operator op)) → m.Unheard name →
    (Machine.exec (depth + 1) (name :: args)).ComesTo m result m'
  /-- As a listener of an event, with the texts of the payload, after the listeners before it. Its result
  goes nowhere, unless it stops the listeners after it. -/
  listening : ∀ depth event payload earlier later before,
    before.listeners.get? event = some (earlier ++ .operator op :: later) →
    texts? before.heap payload = some args →
    (deliver (Machine.exec depth) event args earlier).seen before.unobserved = (.ok (), m.unobserved) →
    let others : Action Unit := do
      let _ ← MonadExcept.ofExcept result
      deliver (Machine.exec depth) event args later
    (trigger (Machine.exec depth) event payload).ComesTo before (others.result m'.unobserved)
      (others.after m'.unobserved)

/-- How an operator is made, gets a name, and becomes a listener. -/
structure Available (op : Operator) : Prop where
  func : ∀ depth (m : Machine), m.registry.lookup "func" = some (.builtin .func) → m.Unheard "func" →
    (exec (depth + 1) ["func", op.name]).ComesTo m (.ok (.executable (.operator op))) m
  define : ∀ depth name command before (m : Machine),
    before.registry.lookup "define" = some (.builtin .define) →
    (exec depth command).run.run before = (.ok (.executable (.operator op)), m) → m.Unheard "define" →
    ∃ registry, (exec (depth + 1) ("define" :: name :: command)).ComesTo before (.ok .undefined)
        { m with registry } ∧
      registry.lookup name = some (.apply (.operator op)) ∧
      ∀ other, other ≠ name → registry.lookup other = m.registry.lookup other
  listen : ∀ depth event command before (m : Machine),
    before.registry.lookup "on" = some (.builtin .listen) →
    (exec depth command).run.run before = (.ok (.executable (.operator op)), m) →
    (m.listen event (.operator op)).Unheard "on" →
    (exec (depth + 1) ("on" :: event :: command)).ComesTo before (.ok .undefined)
      (m.listen event (.operator op))

/-! ## Operands -/

theorem Operator.length_operandsOn (op : Operator) (s : Stack Value) :
    (op.operandsOn s).length = op.arity := by
  simp only [operandsOn, Stack.size, List.length_append, List.length_replicate, List.length_reverse,
    List.length_take]
  omega

/-- A computation that does not miss an operand. -/
def Supplied {α : Type} (x : Except OperatorError α) : Prop :=
  ∀ index count, x ≠ .error (.missing index count)

namespace Supplied

variable {α β : Type} {x : Except OperatorError α}

theorem bind {f : α → Except OperatorError β} (hx : Supplied x) (hf : ∀ a, Supplied (f a)) :
    Supplied (x >>= f) := by
  cases x with
  | error e => exact fun index count h => hx index count (congrArg _ (Except.error.inj h))
  | ok a => exact hf a

theorem orEndless (a : Option α) : Supplied (Heap.orEndless a) := by
  cases a <;> exact nofun

theorem operandAt {operands : List Value} {i : Nat} (h : i < operands.length) :
    Supplied (Heap.operandAt operands i) := by
  rw [Heap.operandAt, List.getElem?_eq_getElem h]
  exact nofun

theorem repeated (h : Heap) (v count : Value) : Supplied (h.repeated v count) := by
  unfold Heap.repeated
  split
  · split
    · split
      · dsimp only
        split <;> exact nofun
      · exact nofun
    · exact nofun
  · exact nofun

theorem sliceList {β : Type} (xs : List β) (i : Int) : Supplied (Heap.sliceList xs i) := by
  unfold Heap.sliceList Heap.tailFrom
  split <;> exact nofun

theorem slice (h : Heap) (v position : Value) : Supplied (h.slice v position) := by
  refine (orEndless _).bind fun index => ?_
  unfold Heap.sliceFrom
  split
  · exact (sliceList _ _).bind fun _ => nofun
  · exact (sliceList _ _).bind fun _ => nofun
  · exact (sliceList _ _).bind fun _ => nofun
  · exact (orEndless _).bind fun _ => (sliceList _ _).bind fun _ => nofun

/-- No operator asks for more operands than it takes. -/
theorem operate (h : Heap) {operands : List Value} (hlength : operands.length = op.arity) :
    Supplied (h.operate op operands) := by
  have hoperand {i : Nat} (hi : i < op.arity) : Supplied (Heap.operandAt operands i) :=
    operandAt (hlength ▸ hi)
  cases op with
  | add | pow | mul | div | sub | less | more | same =>
      exact (hoperand (by decide)).bind fun _ => (hoperand (by decide)).bind fun _ => orEndless _
  | inc | dec | charAt | toChar => exact (hoperand (by decide)).bind fun _ => orEndless _
  | replace =>
      exact (hoperand (by decide)).bind fun _ => (hoperand (by decide)).bind fun _ =>
        (hoperand (by decide)).bind fun _ => orEndless _
  | repeats =>
      exact (hoperand (by decide)).bind fun _ => (hoperand (by decide)).bind fun _ => repeated h _ _
  | slice =>
      exact (hoperand (by decide)).bind fun _ => (hoperand (by decide)).bind fun _ => slice h _ _

end Supplied

/-! ## Applying an operator -/

/-- What an operator does once it has its stack. -/
def operateOn (op : Operator) (name : Text) (ref : StackRef) : Action Value := do
  let operands ← onStack ref (Stack.popMany Value.zero op.arity)
  note '$' fun h => do
    return op.name ++ (32 :: (← h.operands? operands)) ++ Text.ofString " <- " ++ name
  match (← get).heap.operate op operands with
  | .ok v => return v
  | .error e => throw (operatorStop e)

theorem operate_eq (op : Operator) (args : List Text) :
    operate op args = stackRef (operandStack args) >>= operateOn op (operandStack args) := rfl

theorem run_operateOn (ht : m.trace = none) (op : Operator) (name : Text) (ref : StackRef) :
    (operateOn op name ref).run.run m
      = (((m.heap.setStack ref ⟨(m.heap.stack ref).items.drop op.arity⟩).operate op
          (op.operandsOn (m.heap.stack ref))).mapError operatorStop,
        { m with heap := m.heap.setStack ref ⟨(m.heap.stack ref).items.drop op.arity⟩ }) := by
  let left : Machine :=
    { m with heap := m.heap.setStack ref ⟨(m.heap.stack ref).items.drop op.arity⟩ }
  have htaken : (onStack ref (Stack.popMany Value.zero op.arity)).run.run m
      = (.ok (op.operandsOn (m.heap.stack ref)), left) := by
    show (Except.ok ((m.heap.stack ref).popMany Value.zero op.arity).1, { m with
      heap := m.heap.setStack ref ((m.heap.stack ref).popMany Value.zero op.arity).2 }) = _
    rw [Stack.popMany_eq]
    rfl
  have hnoted {message : Heap → Option Text} : (note '$' message).run.run left = (.ok (), left) :=
    note_of_none ht
  rw [operateOn, run_bind_of_ok htaken, run_bind_of_ok hnoted, run_get_bind]
  cases left.heap.operate op (op.operandsOn (m.heap.stack ref)) <;> rfl

/-- Dropping items from a stack leaves the others alone, and does nothing to a stack that is not there. -/
theorem Heap.stack_setStack_drop (h : Heap) (ref other : StackRef) (n : Nat) :
    (h.setStack ref ⟨(h.stack ref).items.drop n⟩).stack other
      = if other = ref then ⟨(h.stack ref).items.drop n⟩ else h.stack other := by
  rw [stack_setStack]
  by_cases hother : other = ref
  · subst hother
    rw [if_pos rfl]
    split
    · rfl
    · next hplace =>
        have hle : h.stackSlots.size ≤ other.index := Nat.le_of_not_lt fun hlt => hplace ⟨rfl, hlt⟩
        rw [stack_of_le hle]
        exact (congrArg Stack.mk List.drop_nil).symm
  · rw [if_neg hother, if_neg fun hplace => hother hplace.1]

/-- A machine has a stack with a name, and otherwise nothing about it is new. -/
structure Opened (name : Text) (m : Machine) (ref : StackRef) (m' : Machine) : Prop where
  place : ref = (m.namedStacks.get? name).getD ⟨m.heap.stackSlots.size⟩
  entered : m'.namedStacks.get? name = some ref
  names : ∀ other, other ≠ name → m'.namedStacks.get? other = m.namedStacks.get? other
  stack : ∀ other, m'.heap.stack other = m.heap.stack other
  rest : ∃ stackSlots namedStacks, m' = { m with heap := { m.heap with stackSlots }, namedStacks }

theorem run_stackRef (name : Text) (m : Machine) :
    ∃ ref m', (stackRef name).run.run m = (.ok ref, m') ∧ Opened name m ref m' := by
  cases h : m.namedStacks.get? name with
  | some ref =>
      refine ⟨ref, m, ?_, ?_, h, fun _ _ => rfl, fun _ => rfl, _, _, rfl⟩
      · show (Except.ok _, _) = _
        simp only [h]
      · rw [h, Option.getD_some]
  | none =>
      refine ⟨⟨m.heap.stackSlots.size⟩, { m with
        heap := (m.heap.addStack .empty).2
        namedStacks := m.namedStacks.insert name ⟨m.heap.stackSlots.size⟩ }, ?_, ?_, ?_, ?_, ?_, _, _, rfl⟩
      · show (Except.ok _, _) = _
        simp only [h]
        rfl
      · rw [h, Option.getD_none]
      · exact (m.namedStacks.get?_insert name name _).trans (if_pos rfl)
      · exact fun other hne => (m.namedStacks.get?_insert name other _).trans (if_neg hne)
      · exact m.heap.stack_addStack_empty

/-- The stack at the place that a name has is the stack with the name. -/
theorem Opened.stackNamed {ref : StackRef} (h : Opened name m ref m') :
    m'.heap.stack ref = m.stackNamed name := by
  rw [h.stack, h.place, Machine.stackNamed]
  cases m.namedStacks.get? name with
  | some ref => rfl
  | none => exact Heap.stack_of_le (Nat.le_refl _)

/-- Applying an operator to a stack, without a trace. -/
theorem run_operate (ht : m.trace = none) (op : Operator) (args : List Text) :
    ∃ result m', (operate op args).run.run m = (result, m') ∧
      Operated op (operandStack args) m result m' := by
  obtain ⟨ref, opened, hrun, hopened⟩ := run_stackRef (operandStack args) m
  have hstack := hopened.stackNamed
  obtain ⟨stackSlots, namedStacks, hrest⟩ := hopened.rest
  have htrace : opened.trace = none := by rw [hrest, ht]
  have hoperate := run_operateOn htrace op (operandStack args) ref
  have hdropped := opened.heap.stack_setStack_drop ref (n := op.arity)
  rw [hstack] at hoperate hdropped
  rw [operate_eq, run_bind_of_ok hrun]
  refine ⟨_, _, hoperate, rfl, ?_, ?_, ?_, hopened.names, ?_, ?_⟩
  · exact Supplied.operate _ (op.length_operandsOn _)
  · show (opened.namedStacks.get? _).elim Stack.empty _ = _
    rw [hopened.entered]
    exact (hdropped ref).trans (if_pos rfl)
  · rw [← hopened.place]
    exact hopened.entered
  · intro other hne
    have hother : other ≠ ref := fun heq => hne (heq ▸ hopened.entered)
    exact ((hdropped other).trans (if_neg hother)).trans (hopened.stack other)
  · subst hrest
    exact ⟨_, _, _, _, rfl⟩

/-- What comes of an operator depends on its arguments by the name of the stack only, and on nothing that
is written down. -/
theorem exists_operated (op : Operator) (name : Text) (m : Machine) : ∃ result m',
    Operated op name m result m' ∧ ∀ self args, operandStack args = name →
      (apply self (.operator op) args).seen m.unobserved = (result, m'.unobserved) := by
  obtain ⟨result, m', hrun, h⟩ := run_operate (m := m.unobserved) rfl op [name]
  refine ⟨result, m', ⟨h.result, h.complete, h.left, h.entered, h.names, h.untouched, h.rest⟩, ?_⟩
  rintro self args rfl
  have happly : (apply self (.operator op) args).run.run m.unobserved = (result, m') := by
    unfold apply
    exact (run_bind_of_ok (note_of_none rfl) _).trans hrun
  exact seen_of_run happly

/-! ## The ways to an operator -/

section Ways

variable {before : Machine} {depth : Nat} {params command args : List Text} {ex : Executable}

theorem splitArguments_of_passes (h : Passes args command params) :
    splitArguments params = (args, command) := by
  cases h with
  | given h => exact splitArguments_append h command
  | none hargs h =>
      have hcontains : ¬ params.contains dashes = true := by simpa using h
      rw [hargs]
      exact if_neg hcontains

theorem Action.comesTo_exec {effect : Effect} {result : Except Stop Value} (depth : Nat)
    (hl : m.registry.lookup name = some effect)
    (h : (enact (exec depth) effect params).seen m.unobserved = (result, m'.unobserved))
    (hu : m'.Unheard name) : (exec (depth + 1) (name :: params)).ComesTo m result m' :=
  (Unaware.exec _ _).comesTo (seen_exec_of_unheard rfl hl h hu)

/-- A builtin that does something with the executable of a command does it where the command has come to
its end. -/
theorem Action.seen_executable {α : Type} {f : Executable → Action α} (hf : ∀ ex, Unaware (f ex))
    (h : (exec depth command).run.run before = (.ok (.executable ex), m)) (b : Builtin) :
    (record (.performed b) >>= fun _ => exec depth command >>= fun v =>
        executableOf v >>= f).seen before.unobserved
      = (f ex).seen m.unobserved := by
  have hcommand := Unaware.exec depth command
  have hgiven : ∀ v, Unaware (executableOf v >>= f) := fun v => (Unaware.executableOf v).bind hf
  have hends : (exec depth command).Ends before := ends_of_ok (congrArg Prod.fst h)
  have hseen : (exec depth command).seen before.unobserved = (.ok (.executable ex), m.unobserved) :=
    (hcommand.seen_unobserved hends).trans (seen_of_run h)
  have hrecord := Unaware.seen_record_bind (m := before.unobserved) (hcommand.bind hgiven) rfl (.performed b)
  exact hrecord.trans (hcommand.seen_bind_of_ok (hgiven _) rfl hseen)

/-- Calling listeners one after the other comes to calling some of them and then the others. -/
theorem deliver_append (self : Dispatch) (event : Text) (args : List Text)
    (earlier later : List Executable) : deliver self event args (earlier ++ later)
      = deliver self event args earlier >>= fun _ => deliver self event args later := by
  induction earlier with
  | nil => rfl
  | cons ex rest ih =>
      rw [List.cons_append, deliver, deliver, ih]
      simp only [bind_assoc]

end Ways

section Applying

variable {result : Except Stop Value} {args : List Text} {before : Machine} {depth : Nat}

/-- By `exec`. -/
theorem comesTo_exec_operator {command params : List Text} (hpasses : Passes args command params)
    (happly : (apply (exec depth) (.operator op) args).seen m.unobserved = (result, m'.unobserved))
    (hl : before.registry.lookup "exec" = some (.builtin .exec))
    (hcommand : (exec depth command).run.run before = (.ok (.executable (.operator op)), m))
    (hu : m'.Unheard "exec") :
    (exec (depth + 1) ("exec" :: params)).ComesTo before result m' := by
  refine comesTo_exec depth hl ?_ hu
  have happlied := seen_executable (fun ex => Unaware.apply depth ex args) hcommand .exec
  have hperform : perform (exec depth) .exec params = (record (.performed .exec) >>= fun _ =>
      exec depth command >>= fun v => executableOf v >>= fun ex => apply (exec depth) ex args) := by
    show (record (.performed .exec) >>= fun _ => exec depth (splitArguments params).2 >>= fun v =>
      executableOf v >>= fun ex => apply (exec depth) ex (splitArguments params).1) = _
    rw [splitArguments_of_passes hpasses]
  rw [enact, hperform, happlied, happly]

/-- As the listener of an event. -/
theorem comesTo_trigger_operator {event : Text} {payload : List Value} {earlier later : List Executable}
    (happly : (apply (exec depth) (.operator op) args).seen m.unobserved = (result, m'.unobserved))
    (hl : before.listeners.get? event = some (earlier ++ .operator op :: later))
    (hargs : texts? before.heap payload = some args)
    (hearlier : (deliver (exec depth) event args earlier).seen before.unobserved = (.ok (), m.unobserved)) :
    let others : Action Unit := do
      let _ ← MonadExcept.ofExcept result
      deliver (exec depth) event args later
    (trigger (exec depth) event payload).ComesTo before (others.result m'.unobserved)
      (others.after m'.unobserved) := by
  intro others
  have hdeliver := Unaware.deliver depth event args
  have happlies : Unaware (apply (exec depth) (.operator op) args >>= fun _ =>
      deliver (exec depth) event args later) := (Unaware.apply depth _ args).bind fun _ => hdeliver later
  have hne : earlier ++ .operator op :: later ≠ [] := by simp
  obtain ⟨message, htrigger⟩ := run_trigger (m := before.unobserved) hl hne hargs
  refine (Unaware.trigger depth event payload).comesTo ?_
  calc (trigger (exec depth) event payload).seen before.unobserved
      = (deliver (exec depth) event args (earlier ++ .operator op :: later)).seen before.unobserved := by
        rw [seen, Action.result, after, htrigger]
        exact ((hdeliver _).seen_unobserved (.inl rfl)).symm
    _ = (deliver (exec depth) event args (.operator op :: later)).seen m.unobserved := by
        rw [deliver_append]
        exact (hdeliver earlier).seen_bind_of_ok (hdeliver _) rfl hearlier
    _ = (apply (exec depth) (.operator op) args >>= fun _ =>
          deliver (exec depth) event args later).seen m.unobserved :=
        Unaware.seen_record_bind happlies rfl _
    _ = _ := by
        cases result with
        | error e => exact seen_bind_of_error happly
        | ok v => exact (Unaware.apply depth _ args).seen_bind_of_ok (hdeliver later) rfl happly

end Applying

section Making

variable {before : Machine} {depth : Nat} {command : List Text}

theorem Operator.named?_name (op : Operator) : Operator.named? op.name = some op := by
  cases op <;> decide

theorem comesTo_func (hl : m.registry.lookup "func" = some (.builtin .func)) (hu : m.Unheard "func")
    (depth : Nat) (op : Operator) :
    (exec (depth + 1) ["func", op.name]).ComesTo m (.ok (.executable (.operator op))) m := by
  refine comesTo_exec depth hl ?_ hu
  show (Except.ok ((Operator.named? op.name).elim Value.undefined fun op => .executable (.operator op)),
    m.unobserved) = _
  rw [op.named?_name]
  rfl

theorem comesTo_define (hl : before.registry.lookup "define" = some (.builtin .define))
    (hcommand : (exec depth command).run.run before = (.ok (.executable ex), m)) (hu : m.Unheard "define") :
    (exec (depth + 1) ("define" :: name :: command)).ComesTo before (.ok .undefined)
      { m with registry := m.registry.register name (.apply ex) } := by
  refine comesTo_exec depth hl ?_ hu
  have hdefine : ∀ ex, Unaware (defineCommand name ex >>= fun _ => pure Value.undefined) :=
    fun ex => (Unaware.routine (.defineCommand name trivial (Conduct.free_fit ex))).bind fun _ => .pure _
  exact seen_executable hdefine hcommand .define

theorem comesTo_listen {event : Text} (hl : before.registry.lookup "on" = some (.builtin .listen))
    (hcommand : (exec depth command).run.run before = (.ok (.executable ex), m))
    (hu : (m.listen event ex).Unheard "on") :
    (exec (depth + 1) ("on" :: event :: command)).ComesTo before (.ok .undefined) (m.listen event ex) := by
  refine comesTo_exec depth hl ?_ hu
  have hlisten : ∀ ex, Unaware ((modify fun m => m.listen event ex) >>= fun _ => pure Value.undefined) :=
    fun ex => (Unaware.routine (.listen event trivial (Conduct.free_fit ex))).bind fun _ => .pure _
  exact seen_executable hlisten hcommand .listen

end Making

/-! ## The convention -/

theorem Operated.unheard {result : Except Stop Value} (h : Operated op name m result m') {event : Text}
    (hu : m.Unheard event) : m'.Unheard event := by
  obtain ⟨_, _, _, _, rfl⟩ := h.rest
  exact hu

/-- An operator can be made, named and made a listener. In whichever way it is then applied, by `exec`, by
its name or by an event, it takes its operands off the stack that the first argument names, and that is all
it does. -/
theorem operators_apply_alike (op : Operator) : Available op ∧
    ∀ name m, ∃ result m', Operated op name m result m' ∧
      ∀ args, args.headD "func" = name → AppliedAlike op args m result m' := by
  refine ⟨⟨?_, ?_, ?_⟩, fun name m => ?_⟩
  · exact fun depth m hl hu => comesTo_func hl hu depth op
  · intro depth name command before m hl hcommand hu
    refine ⟨_, comesTo_define hl hcommand hu, ?_, fun other hne => ?_⟩
    · rw [Registry.lookup_register, if_pos rfl]
    · rw [Registry.lookup_register, if_neg hne]
  · exact fun depth event command before m hl hcommand hu => comesTo_listen hl hcommand hu
  · obtain ⟨result, m', hoperated, happly⟩ := exists_operated op name m
    refine ⟨result, m', hoperated, fun args hargs => ⟨?_, ?_, ?_⟩⟩
    · exact fun depth command params before hpasses hl hcommand hu =>
        comesTo_exec_operator hpasses (happly _ args hargs) hl hcommand (hoperated.unheard hu)
    · exact fun depth called hl hu =>
        comesTo_exec depth hl (happly (exec depth) args hargs) (hoperated.unheard hu)
    · exact fun depth event payload earlier later before hl htexts hearlier =>
        comesTo_trigger_operator (happly _ args hargs) hl htexts hearlier

/-- Two texts on a stack, and `add` under another name and as a listener. -/
def Machine.gluing : Machine := { initial .standard with
  heap := ⟨#[.empty, ⟨[.text "b", .text "a"]⟩], #[]⟩
  namedStacks := ⟨[(funcStack, ⟨0⟩), ("parts", ⟨1⟩)]⟩
  registry := Registry.register .standard "glue" (.apply (.operator .add))
  listeners := Dict.insert .empty "ready" [.operator .add] }

/-- The texts are put together in the order in which they were pushed, whichever way `add` is told to, and
whatever it is told besides. -/
theorem add_applies_alike : ∃ left : Machine, left.stackNamed "parts" = .empty ∧
    (exec 2 ["exec", "parts", "more", "--", "func", "add"]).seen gluing = (.ok (.text "ab"), left) ∧
    (exec 1 ["glue", "parts"]).seen ((exec 1 ["func", "add"]).after gluing) = (.ok (.text "ab"), left) ∧
    (trigger (exec 0) "ready" [.text "parts", .undefined]).seen gluing = (.ok (), left) := by
  let made : Machine := (exec 1 ["func", "add"]).after gluing
  obtain ⟨-, happly⟩ := operators_apply_alike .add
  obtain ⟨result, m', hoperated, halike⟩ := happly "parts" made
  obtain ⟨hresult, -, hleft, -, -, -, -⟩ := hoperated
  have hparts : made.stackNamed "parts" = ⟨[.text "b", .text "a"]⟩ := rfl
  rw [hparts] at hresult hleft
  have hglued : result = .ok (.text "ab") := hresult
  subst hglued
  refine ⟨m'.unobserved, hleft, ?_, ?_, ?_⟩
  · exact (halike ["parts", "more"] rfl).exec 1 ["func", "add"] _ gluing (.given (by decide)) rfl rfl
      (by decide) (.inl rfl)
  · exact (halike ["parts"] rfl).defined 0 "glue" rfl (by decide) (.inl rfl)
  · exact (halike ["parts"] rfl).listening 0 "ready" [.text "parts", .undefined] [] [] gluing rfl rfl rfl
      (.inl rfl)

end Linewise
