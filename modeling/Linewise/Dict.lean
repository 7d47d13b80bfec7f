import Linewise.Text.Basic

/-!
# Dictionaries

Entries by name, in the order in which the names were first entered.
-/

namespace Linewise

/-- A dictionary with the names in order of first entry. -/
structure Dict (α : Type) where
  entries : List (Text × α)
deriving Repr

namespace Dict

variable {α : Type}

def empty : Dict α := ⟨[]⟩

instance : Inhabited (Dict α) := ⟨empty⟩

/-- The entry under a name. -/
def get? (d : Dict α) (name : Text) : Option α := d.entries.lookup name

def contains (d : Dict α) (name : Text) : Bool := (d.get? name).isSome

/-- Replaces the entry under a name, in the list of entries. -/
def replaceEntry (name : Text) (a : α) : List (Text × α) → List (Text × α)
  | [] => [(name, a)]
  | (n, b) :: rest => if n = name then (n, a) :: rest else (n, b) :: replaceEntry name a rest

/-- Enters a value under a name, in the place of the old entry if there is one. -/
def insert (d : Dict α) (name : Text) (a : α) : Dict α := ⟨replaceEntry name a d.entries⟩

/-- The names, in order of first entry. -/
def names (d : Dict α) : List Text := d.entries.map Prod.fst

def size (d : Dict α) : Nat := d.entries.length

def isEmpty (d : Dict α) : Bool := d.entries.isEmpty

/-- The entries in the order of their names. -/
def sorted (d : Dict α) : List (Text × α) :=
  d.entries.mergeSort fun a b => !Text.lt b.1 a.1

/-! ## Entries by name -/

@[simp] theorem get?_empty (name : Text) : (empty : Dict α).get? name = none := rfl

theorem lookup_cons (name other : Text) (a : α) (rest : List (Text × α)) :
    ((name, a) :: rest).lookup other = if other = name then some a else rest.lookup other := by
  by_cases h : other = name
  · simp [h]
  · rw [List.lookup_cons, beq_eq_false_iff_ne.mpr h, if_neg h]

theorem lookup_replaceEntry (name other : Text) (a : α) (entries : List (Text × α)) :
    (replaceEntry name a entries).lookup other
      = if other = name then some a else entries.lookup other := by
  induction entries with
  | nil => exact lookup_cons name other a []
  | cons entry rest ih =>
      obtain ⟨n, b⟩ := entry
      by_cases hn : n = name
      · subst hn
        simp only [replaceEntry, if_pos, lookup_cons]
        split <;> rfl
      · simp only [replaceEntry, if_neg hn, lookup_cons, ih]
        by_cases h : other = n
        · rw [if_pos h, if_pos h, if_neg fun e => hn (h.symm.trans e)]
        · rw [if_neg h, if_neg h]

/-- An entry is found under its name and changes nothing under the others. -/
theorem get?_insert (d : Dict α) (name other : Text) (a : α) :
    (d.insert name a).get? other = if other = name then some a else d.get? other :=
  lookup_replaceEntry name other a d.entries

end Dict

end Linewise
