import Linewise.Dict

/-!
# Registries

A registry says which effect a command name has. Names keep the order in which they were first
registered. An alias takes the effect that a name has at that moment; giving the name another effect
later does not change the alias.
-/

namespace Linewise

/-- The effects of command names. Every name has a place, which is that of its effect. -/
structure Registry (ε : Type) where
  /-- The names in order of first registration. -/
  names : List Text
  /-- The place of each name. -/
  ids : Dict Nat
  /-- The effects, each at the place of its name. -/
  effects : List ε
  length_effects : effects.length = names.length
  ids_iff : ∀ name id, ids.get? name = some id ↔ names[id]? = some name

namespace Registry

variable {ε : Type}

def empty : Registry ε where
  names := []
  ids := .empty
  effects := []
  length_effects := rfl
  ids_iff := by simp

/-- The names and their places after one of them has been given a place. -/
theorem ids_insert_iff (r : Registry ε) {name : Text} (h : r.ids.get? name = none) (other : Text)
    (id : Nat) : (r.ids.insert name r.names.length).get? other = some id ↔
      (r.names ++ [name])[id]? = some other := by
  have hother := r.ids_iff other id
  rw [Dict.get?_insert]
  rcases Nat.lt_trichotomy id r.names.length with hlt | rfl | hgt
  · -- at an old place there is an old name
    rw [List.getElem?_append_left hlt]
    by_cases heq : other = name
    · subst heq
      simp [← hother, h, Nat.ne_of_gt hlt]
    · simp [heq, hother]
  · by_cases heq : other = name
    · simp [heq]
    · simp [heq, Ne.symm heq, hother]
  · have hnone : (r.names ++ [name])[id]? = none := List.getElem?_eq_none (by simp; omega)
    have hnone' : r.names[id]? = none := List.getElem?_eq_none (Nat.le_of_lt hgt)
    by_cases heq : other = name
    · simp [heq, hnone, Nat.ne_of_lt hgt]
    · simp [heq, hother, hnone, hnone']

/-- Gives a name an effect: at its place, or at the next one if it has none yet. -/
def register (r : Registry ε) (name : Text) (effect : ε) : Registry ε where
  names := match r.ids.get? name with
    | some _ => r.names
    | none => r.names ++ [name]
  ids := match r.ids.get? name with
    | some _ => r.ids
    | none => r.ids.insert name r.names.length
  effects := match r.ids.get? name with
    | some id => r.effects.set id effect
    | none => r.effects ++ [effect]
  length_effects := by
    split <;> simp [r.length_effects]
  ids_iff := by
    split
    · exact r.ids_iff
    · exact r.ids_insert_iff ‹_›

/-- The effect of a name. -/
def lookup (r : Registry ε) (name : Text) : Option ε := (r.ids.get? name).bind fun id => r.effects[id]?

/-- Gives a name the present effect of another one, which has to have one. -/
def alias? (r : Registry ε) (name existing : Text) : Option (Registry ε) :=
  (r.lookup existing).map (r.register name)

def size (r : Registry ε) : Nat := r.names.length

/-- The names that complete the beginning of a line, sorted; none once the line has a blank or a
tab. -/
def completions (r : Registry ε) (line : Text) : List Text :=
  if line.contains 32 || line.contains 9 then []
  else Text.sort (r.names.filter fun name => line.isPrefixOf name)

/-! ## Effects by name -/

theorem lt_of_id {r : Registry ε} {name : Text} {id : Nat} (h : r.ids.get? name = some id) :
    id < r.effects.length := by
  rw [r.length_effects]
  exact (List.getElem?_eq_some_iff.mp ((r.ids_iff name id).mp h)).1

/-- Two names do not share a place. -/
theorem name_eq_of_id {r : Registry ε} {name other : Text} {id : Nat} (h : r.ids.get? name = some id)
    (h' : r.ids.get? other = some id) : other = name := by
  rw [r.ids_iff] at h h'
  exact Option.some.inj (h'.symm.trans h)

/-- Registering a name that has a place changes the effect there. -/
theorem register_of_id {r : Registry ε} {name : Text} {id : Nat} (h : r.ids.get? name = some id)
    (effect : ε) : (r.register name effect).names = r.names ∧ (r.register name effect).ids = r.ids ∧
      (r.register name effect).effects = r.effects.set id effect := by
  simp [register, h]

/-- Registering a new name gives it the next place. -/
theorem register_of_none {r : Registry ε} {name : Text} (h : r.ids.get? name = none) (effect : ε) :
    (r.register name effect).names = r.names ++ [name] ∧
      (r.register name effect).ids = r.ids.insert name r.names.length ∧
      (r.register name effect).effects = r.effects ++ [effect] := by
  simp [register, h]

theorem lookup_register_of_id {r : Registry ε} {name : Text} {id : Nat}
    (h : r.ids.get? name = some id) (other : Text) (effect : ε) :
    (r.register name effect).lookup other = if other = name then some effect else r.lookup other := by
  obtain ⟨-, hids, heffects⟩ := register_of_id h effect
  rw [lookup, hids, heffects]
  by_cases heq : other = name
  · rw [heq, h, if_pos rfl]
    exact List.getElem?_set_self (lt_of_id h)
  · rw [if_neg heq, lookup]
    cases hother : r.ids.get? other with
    | none => rfl
    | some id' =>
        have hne : id ≠ id' := by
          rintro rfl
          exact heq (name_eq_of_id h hother)
        exact List.getElem?_set_ne hne

theorem lookup_register_of_none {r : Registry ε} {name : Text} (h : r.ids.get? name = none)
    (other : Text) (effect : ε) :
    (r.register name effect).lookup other = if other = name then some effect else r.lookup other := by
  obtain ⟨-, hids, heffects⟩ := register_of_none h effect
  rw [lookup, hids, heffects, Dict.get?_insert]
  by_cases heq : other = name
  · rw [if_pos heq, if_pos heq, ← r.length_effects]
    exact List.getElem?_concat_length
  · rw [if_neg heq, if_neg heq, lookup]
    cases hother : r.ids.get? other with
    | none => rfl
    | some id => exact List.getElem?_append_left (lt_of_id hother)

/-- An effect is found under its name, and the other names keep theirs. -/
theorem lookup_register (r : Registry ε) (name other : Text) (effect : ε) :
    (r.register name effect).lookup other = if other = name then some effect else r.lookup other := by
  cases h : r.ids.get? name with
  | some id => exact lookup_register_of_id h other effect
  | none => exact lookup_register_of_none h other effect

/-- An alias takes the effect that the other name has. -/
theorem alias?_eq_some {r r' : Registry ε} {name existing : Text} (h : r.alias? name existing = some r') :
    ∃ effect, r.lookup existing = some effect ∧ r' = r.register name effect := by
  obtain ⟨effect, he, hr⟩ := Option.map_eq_some_iff.mp h
  exact ⟨effect, he, hr.symm⟩

end Registry

end Linewise
