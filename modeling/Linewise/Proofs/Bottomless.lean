import Linewise.Stack
import Mathlib.Data.Stream.Init

/-!
# Stacks without a bottom

A stack that rests on an endless supply of one value is used like one that has no bottom. `bottomless`
forgets how many items a stack has and keeps the endless list of what can be popped from it. On endless
lists there is only pushing and popping: to take many items off is to pop as often and to turn the items
round. `uses_bottomless` says that no sequence of operations tells the two apart, although a stack takes
many items off at once, and that it is left as by so many pops.
-/

namespace Linewise

namespace Stack

variable {α σ : Type}

/-- What can be done with a stack. -/
inductive Operation (α : Type) where
  | push (x : α)
  | pop
  | popMany (n : Int)
deriving DecidableEq, Repr

/-- The values that an operation gives, and the stack after it. -/
def act (ground : α) : Operation α → Stack α → List α × Stack α
  | .push x, s => ([], s.push x)
  | .pop, s => ([(s.pop ground).1], (s.pop ground).2)
  | .popMany n, s => s.popMany ground n

/-- What operations give, one after the other, and what they leave behind. -/
def uses (act : Operation α → σ → List α × σ) : List (Operation α) → σ → List (List α) × σ
  | [], s => ([], s)
  | op :: ops, s =>
    let (given, s) := act op s
    let (later, s) := uses act ops s
    (given :: later, s)

/-- What a number of pops give, the first of them first, and what they leave behind. -/
def pops (pop : σ → α × σ) : Nat → σ → List α × σ
  | 0, s => ([], s)
  | n + 1, s =>
    let (x, s) := pop s
    let (later, s) := pops pop n s
    (x :: later, s)

/-! ## Endless lists as stacks -/

/-- Takes the head of an endless list off. -/
def popEndless (s : Stream' α) : α × Stream' α := (s.head, s.tail)

/-- An operation on a stack that is an endless list, its top first. Many items come off by single pops. -/
def actEndless : Operation α → Stream' α → List α × Stream' α
  | .push x, s => ([], s.cons x)
  | .pop, s => ([(popEndless s).1], (popEndless s).2)
  | .popMany n, s => ((pops popEndless n.toNat s).1.reverse, (pops popEndless n.toNat s).2)

/-- Everything that can be popped from a stack. -/
def bottomless (ground : α) (s : Stack α) : Stream' α := s.items ++ₛ Stream'.const ground

/-- From an empty stack nothing but `ground` can be popped. -/
theorem bottomless_empty (ground : α) : (empty : Stack α).bottomless ground = Stream'.const ground :=
  Stream'.nil_append_stream _

section

variable (ground : α) (s : Stack α)

theorem bottomless_push (x : α) : (s.push x).bottomless ground = (s.bottomless ground).cons x :=
  Stream'.cons_append_stream x s.items _

theorem popEndless_bottomless :
    popEndless (s.bottomless ground) = ((s.pop ground).1, (s.pop ground).2.bottomless ground) := by
  rcases s with ⟨_ | ⟨x, rest⟩⟩
  · -- an empty stack stays as it is, and so does the supply below it
    show popEndless (empty.bottomless ground) = (ground, empty.bottomless ground)
    rw [bottomless_empty, popEndless, Stream'.tail_const]
    rfl
  · rfl

theorem pops_bottomless (n : Nat) : pops popEndless n (s.bottomless ground)
    = ((pops (pop ground) n s).1, (pops (pop ground) n s).2.bottomless ground) := by
  induction n generalizing s with
  | zero => rfl
  | succ n ih => simp only [pops, popEndless_bottomless, ih]

/-- Pops give the uppermost items, and `ground` once there are no more. -/
theorem pops_eq (n : Nat) : pops (pop ground) n s
    = (s.items.take n ++ List.replicate (n - s.size) ground, ⟨s.items.drop n⟩) := by
  induction n generalizing s with
  | zero => simp [pops]
  | succ n ih =>
      rcases s with ⟨_ | ⟨x, rest⟩⟩
      · simp [pops, pop, ih, size, List.replicate_succ]
      · simp [pops, pop, ih, size]

/-- Taking many items off at once is popping as often, with the items turned round. -/
theorem popMany_eq_pops (n : Int) : s.popMany ground n
    = ((pops (pop ground) n.toNat s).1.reverse, (pops (pop ground) n.toNat s).2) := by
  rw [popMany_eq, pops_eq, List.reverse_append, List.reverse_replicate]

/-- An operation gives the same values as on what can be popped, and leaves what can be popped then. -/
theorem actEndless_bottomless (op : Operation α) : actEndless op (s.bottomless ground)
    = ((act ground op s).1, (act ground op s).2.bottomless ground) := by
  cases op with
  | push x => rw [actEndless, act, bottomless_push]
  | pop => rw [actEndless, act, popEndless_bottomless]
  | popMany n => rw [actEndless, act, pops_bottomless, popMany_eq_pops]

end

/-- No sequence of operations tells a stack on an endless supply of `ground` from the endless list of what
can be popped from it: the values are the same, and what is left is the same again. And taking many items
off gives what as many pops give, the last of them first, and leaves the very stack that they leave. -/
theorem uses_bottomless (ground : α) (ops : List (Operation α)) (s : Stack α) :
    uses actEndless ops (s.bottomless ground)
        = ((uses (act ground) ops s).1, (uses (act ground) ops s).2.bottomless ground) ∧
      ∀ n, s.popMany ground n
        = ((pops (pop ground) n.toNat s).1.reverse, (pops (pop ground) n.toNat s).2) := by
  refine ⟨?_, popMany_eq_pops ground s⟩
  induction ops generalizing s with
  | nil => rfl
  | cons op ops ih => simp only [uses, actEndless_bottomless, ih]

/-- Operations that take more items off than there are, and go on. -/
example : uses (act 0) [.push 1, .push 2, .popMany 3, .pop, .push 4, .popMany (-1), .popMany 2] empty
    = ([[], [], [0, 1, 2], [0], [], [], [0, 4]], empty) := by decide

end Stack

end Linewise
