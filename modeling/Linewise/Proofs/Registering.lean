import Linewise.Machine.Builtin
import Mathlib.Data.List.Nodup

/-!
# Registries as maps in order of entry

What a host does with a registry is best told by a log: every registration, and every alias of a name
that stands for something, gives a name an effect. The last entry of a name in the log is its effect, and
its first entry is its place among the names. `Presents` says that a registry tells just this of a log;
`Presents.perform` is one operation, and `Presents.performAll` is any number of them.
-/

namespace Linewise

namespace Text

theorem lt_iff (s t : Text) : lt s t = true ↔ s < t := by
  induction s generalizing t with
  | nil => cases t <;> simp [lt]
  | cons a s ih =>
      cases t with
      | nil => simp [lt]
      | cons b t => simp [lt, List.cons_lt_cons_iff, ih]

theorem not_lt_iff (s t : Text) : (!lt t s) = true ↔ s ≤ t := by
  rw [Bool.not_eq_true', ← Bool.not_eq_true, lt_iff, List.not_lt]

/-- Texts that are all different are put in strict order. -/
theorem pairwise_sort {texts : List Text} (h : texts.Nodup) :
    (sort texts).Pairwise fun s t => lt s t = true := by
  have hle : (sort texts).Pairwise fun s t => (!lt t s) = true := by
    refine List.pairwise_mergeSort ?_ ?_ texts
    · intro s t u hst htu
      rw [not_lt_iff] at hst htu ⊢
      exact List.le_trans hst htu
    · intro s t
      rw [Bool.or_eq_true, not_lt_iff, not_lt_iff]
      exact List.le_total s t
  have hne : (sort texts).Nodup := (List.mergeSort_perm texts _).nodup_iff.mpr h
  refine (hle.and hne).imp ?_
  rintro s t ⟨hst, hne⟩
  rw [not_lt_iff] at hst
  rw [lt_iff]
  exact Std.lt_of_le_of_ne hst hne

theorem mem_sort {texts : List Text} {s : Text} : s ∈ sort texts ↔ s ∈ texts :=
  (List.mergeSort_perm texts _).mem_iff

end Text

namespace Registry

variable {ε : Type}

/-- What a host does with a registry. -/
inductive Operation (ε : Type) where
  | register (name : Text) (effect : ε)
  | synonym (name existing : Text)

/-- The registry after an operation. An alias of a name without an effect is refused. -/
def perform (r : Registry ε) : Operation ε → Registry ε
  | .register name effect => r.register name effect
  | .synonym name existing => (r.alias? name existing).getD r

/-- A log, the latest entry first, after an operation. An alias enters the effect that the other name has
then. -/
def Operation.enter (log : List (Text × ε)) : Operation ε → List (Text × ε)
  | .register name effect => (name, effect) :: log
  | .synonym name existing =>
    match log.lookup existing with
    | some effect => (name, effect) :: log
    | none => log

/-- The names of a log in the order of their first entries. -/
def firstNames (log : List (Text × ε)) : List Text := (log.reverse.map Prod.fst).eraseDups

/-! ## Names -/

/-- A name has one place. -/
theorem nodup_names (r : Registry ε) : r.names.Nodup := by
  rw [List.nodup_iff_getElem?_ne_getElem?]
  intro i j hij hj heq
  have hat : r.names[j]? = some r.names[j] := List.getElem?_eq_getElem hj
  have hi := (r.ids_iff _ i).mpr (heq.trans hat)
  have hj := (r.ids_iff _ j).mpr hat
  exact absurd (Option.some.inj (hi.symm.trans hj)) (Nat.ne_of_lt hij)

theorem mem_names_iff (r : Registry ε) (name : Text) : name ∈ r.names ↔ (r.ids.get? name).isSome := by
  rw [List.mem_iff_getElem?, Option.isSome_iff_exists]
  exact exists_congr fun id => (r.ids_iff name id).symm

/-- The names are those that have an effect. -/
theorem mem_names_iff_lookup (r : Registry ε) (name : Text) :
    name ∈ r.names ↔ (r.lookup name).isSome := by
  rw [mem_names_iff, lookup]
  cases h : r.ids.get? name with
  | none => rfl
  | some id => simp [lt_of_id h]

theorem names_register (r : Registry ε) (name : Text) (effect : ε) :
    (r.register name effect).names = if name ∈ r.names then r.names else r.names ++ [name] := by
  have hmem := r.mem_names_iff name
  cases h : r.ids.get? name with
  | some id => simp [register_of_id h, hmem, h]
  | none => simp [register_of_none h, hmem, h]

/-! ## Logs -/

/-- A registry tells of a log which name has which effect, and in what order the names came. -/
structure Presents (r : Registry ε) (log : List (Text × ε)) : Prop where
  lookup : ∀ name, r.lookup name = log.lookup name
  names : r.names = firstNames log

theorem firstNames_cons (name : Text) (effect : ε) (log : List (Text × ε)) :
    firstNames ((name, effect) :: log)
      = if name ∈ firstNames log then firstNames log else firstNames log ++ [name] := by
  have hmem : name ∈ firstNames log ↔ name ∈ log.reverse.map Prod.fst := List.mem_eraseDups
  have hcons : firstNames ((name, effect) :: log)
      = firstNames log ++ ([name].removeAll (log.reverse.map Prod.fst)).eraseDups := by
    rw [firstNames, List.reverse_cons, List.map_append, List.eraseDups_append]
    rfl
  by_cases h : name ∈ log.reverse.map Prod.fst
  · have hnone : [name].removeAll (log.reverse.map Prod.fst) = [] :=
      List.filter_eq_nil_iff.mpr (by simpa using h)
    rw [if_pos (hmem.mpr h), hcons, hnone, List.eraseDups_nil, List.append_nil]
  · have hall : [name].removeAll (log.reverse.map Prod.fst) = [name] :=
      List.filter_eq_self.mpr (by simpa using h)
    rw [if_neg (mt hmem.mp h), hcons, hall]
    rfl

theorem presents_empty : (empty : Registry ε).Presents [] where
  lookup _ := rfl
  names := rfl

theorem Presents.register {r : Registry ε} {log : List (Text × ε)} (h : r.Presents log) (name : Text)
    (effect : ε) : (r.register name effect).Presents ((name, effect) :: log) where
  lookup other := by rw [lookup_register, h.lookup, Dict.lookup_cons]
  names := by rw [names_register, h.names, firstNames_cons]

/-- An alias is made if the other name stands for something, and refused otherwise. -/
theorem Presents.alias? {r : Registry ε} {log : List (Text × ε)} (h : r.Presents log)
    (name existing : Text) : r.alias? name existing = (log.lookup existing).map (r.register name) := by
  rw [Registry.alias?, h.lookup]

/-- One operation on a registry is one on its log. -/
theorem Presents.perform {r : Registry ε} {log : List (Text × ε)} (h : r.Presents log)
    (op : Operation ε) : (r.perform op).Presents (op.enter log) := by
  cases op with
  | register name effect => exact h.register name effect
  | synonym name existing =>
      rw [Registry.perform, h.alias?, Operation.enter]
      cases log.lookup existing with
      | none => exact h
      | some effect => exact h.register name effect

theorem Presents.performAll {r : Registry ε} {log : List (Text × ε)} (h : r.Presents log)
    (ops : List (Operation ε)) : (ops.foldl Registry.perform r).Presents (ops.foldl Operation.enter log) := by
  induction ops generalizing r log with
  | nil => exact h
  | cons op rest ih => exact ih (h.perform op)

/-! ## Completions -/

theorem completions_of_word (r : Registry ε) {line : Text} (h : 32 ∉ line ∧ 9 ∉ line) :
    r.completions line = Text.sort (r.names.filter fun name => line.isPrefixOf name) := by
  simp [completions, h.1, h.2]

theorem pairwise_completions (r : Registry ε) (line : Text) :
    (r.completions line).Pairwise fun s t => Text.lt s t = true := by
  rw [completions]
  split
  · exact .nil
  · exact Text.pairwise_sort (r.nodup_names.filter _)

theorem mem_completions (r : Registry ε) {line : Text} (h : 32 ∉ line ∧ 9 ∉ line) (name : Text) :
    name ∈ r.completions line ↔ name ∈ r.names ∧ line <+: name := by
  rw [completions_of_word r h, Text.mem_sort, List.mem_filter, List.isPrefixOf_iff_prefix]

/-! ## The whole life of a registry -/

/-- All that a registry tells is true of a log. -/
structure Keeps (r : Registry ε) (log : List (Text × ε)) : Prop extends r.Presents log where
  nodup : r.names.Nodup
  defined : ∀ name, name ∈ r.names ↔ (log.lookup name).isSome
  size : r.size = (firstNames log).length
  /-- An alias is made if the other name stands for something. Otherwise nothing changes. -/
  made : ∀ name existing effect, log.lookup existing = some effect →
    r.alias? name existing = some (r.register name effect)
  refused : ∀ name existing, log.lookup existing = none →
    r.alias? name existing = none ∧ r.perform (.synonym name existing) = r
  sorted : ∀ line, (r.completions line).Pairwise fun s t => Text.lt s t = true
  completes : ∀ line, 32 ∉ line ∧ 9 ∉ line → ∀ name,
    name ∈ r.completions line ↔ name ∈ firstNames log ∧ line <+: name

theorem Presents.keeps {r : Registry ε} {log : List (Text × ε)} (h : r.Presents log) : r.Keeps log where
  toPresents := h
  nodup := r.nodup_names
  defined name := by rw [mem_names_iff_lookup, h.lookup]
  size := congrArg List.length h.names
  made name existing effect heffect := by
    rw [h.alias?, heffect]
    rfl
  refused name existing hnone := by
    rw [Registry.perform, h.alias?, hnone]
    exact ⟨rfl, rfl⟩
  sorted := r.pairwise_completions
  completes line hline name := by rw [r.mem_completions hline, h.names]

/-- What has been done to the registry of the builtins. -/
def builtinOperations : List (Operation Effect) := Builtin.all.map fun b => .register b.name (.builtin b)

theorem standard_eq : standard = builtinOperations.foldl Registry.perform .empty := by
  rw [standard, builtinOperations, List.foldl_map]
  rfl

/-- Whatever is done to the empty registry, or to that of the builtins, the registry keeps what the log of
the operations says: a name has the effect of its last entry, the names stand in the order of their first
entries, an alias of a name without an effect is refused, and what completes a line are the names that
begin so, in strict order. -/
theorem registry_keeps :
    (∀ (ε : Type) (ops : List (Operation ε)),
      (ops.foldl Registry.perform .empty).Keeps (ops.foldl Operation.enter [])) ∧
    ∀ ops : List (Operation Effect),
      (ops.foldl Registry.perform standard).Keeps ((builtinOperations ++ ops).foldl Operation.enter []) := by
  refine ⟨fun ε ops => (presents_empty.performAll ops).keeps, fun ops => ?_⟩
  rw [standard_eq, ← List.foldl_append]
  exact (presents_empty.performAll _).keeps

/-- An alias keeps the effect that it was made with, and a name its place. -/
example :
    let r := ([.register "a" 1, .synonym "b" "a", .register "c" 2, .register "a" 3, .synonym "c" "c",
      .synonym "d" "e"] : List (Operation Nat)).foldl Registry.perform .empty
    r.names = ["a", "b", "c"] ∧ r.lookup "a" = some 3 ∧ r.lookup "b" = some 1 := by decide

end Registry

end Linewise
