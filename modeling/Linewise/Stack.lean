/-!
# Stacks

A stack gives back what was pushed, last in first out, and rests on an endless supply of one value:
popping an empty stack yields that value.
-/

namespace Linewise

/-- A stack, its top first. -/
structure Stack (α : Type) where
  items : List α
deriving DecidableEq, Repr

namespace Stack

variable {α : Type}

/-- The stack without items. -/
def empty : Stack α := ⟨[]⟩

instance : Inhabited (Stack α) := ⟨empty⟩

/-- The items, the bottom first. -/
def toList (s : Stack α) : List α := s.items.reverse

/-- The stack with the given items, the bottom first. -/
def ofList (items : List α) : Stack α := ⟨items.reverse⟩

def size (s : Stack α) : Nat := s.items.length

def push (s : Stack α) (x : α) : Stack α := ⟨x :: s.items⟩

/-- Takes the top off; `ground` is what the stack rests on. -/
def pop (ground : α) (s : Stack α) : α × Stack α :=
  match s.items with
  | [] => (ground, s)
  | x :: rest => (x, ⟨rest⟩)

/-- Takes the top `n` items off at once, in the order they were pushed. What the stack lacks is made
up with `ground` in front. -/
def popMany (ground : α) (n : Int) (s : Stack α) : List α × Stack α :=
  if n ≤ 0 then ([], s)
  else
    let found := min s.size n.toNat
    let start := s.size - found
    (List.replicate (n.toNat - found) ground ++ s.toList.drop start, ofList (s.toList.take start))

/-! ## Taking items off at once -/

theorem popMany_of_nonpos {n : Int} (h : n ≤ 0) (ground : α) (s : Stack α) :
    s.popMany ground n = ([], s) := if_pos h

/-- The items that are taken are the uppermost ones, and the others stay. -/
theorem popMany_eq (ground : α) (n : Int) (s : Stack α) :
    s.popMany ground n = (List.replicate (n.toNat - s.size) ground ++ (s.items.take n.toNat).reverse,
      ⟨s.items.drop n.toNat⟩) := by
  by_cases hn : n ≤ 0
  · simp [popMany_of_nonpos hn, Int.toNat_of_nonpos hn]
  · simp only [popMany, if_neg hn, size, toList, ofList]
    rcases Nat.le_total s.items.length n.toNat with h | h
    · -- everything is taken
      simp [Nat.min_eq_left h, List.take_of_length_le h, List.drop_of_length_le h]
    · have hstart : s.items.length - (s.items.length - n.toNat) = n.toNat := Nat.sub_sub_self h
      simp [Nat.min_eq_right h, Nat.sub_eq_zero_of_le h, List.drop_reverse, List.take_reverse, hstart]

theorem items_popMany (ground : α) (n : Int) (s : Stack α) :
    (s.popMany ground n).2.items = s.items.drop n.toNat := by rw [popMany_eq]

end Stack

end Linewise
