import Linewise.Proofs.Registering
import Linewise.Value.Operate

/-!
# Comparing values

`less` and `more` compare two texts byte by byte and all else by number; `same` compares by number if one
side is a number or a truth value, and by text otherwise. So for values of different kinds an answer may
come from the texts of the operands and another from their numbers. They still fit together
(`Heap.comparisons_consistent`), since values with the same text have the same number, unless one of them
has none (`Heap.number?_of_text?`).
-/

namespace Linewise

/-- How two things are ordered by what comes before what. -/
def orderBy {α : Type} (before : α → α → Bool) (x y : α) : Ordering :=
  if before x y then .lt else if before y x then .gt else .eq

section

variable {α : Type} {before : α → α → Bool} {x y : α}

theorem orderBy_swap (h : before x y = true → before y x = false) :
    orderBy before y x = (orderBy before x y).swap := by
  unfold orderBy
  cases hxy : before x y with
  | false => cases before y x <;> rfl
  | true =>
      rw [h hxy]
      rfl

theorem orderBy_self (h : before x x = true → before x x = false) : orderBy before x x = .eq := by
  unfold orderBy
  cases hx : before x x with
  | false => rfl
  | true => rw [h hx] at hx; cases hx

theorem orderBy_eq_eq : orderBy before x y = .eq ↔ before x y = false ∧ before y x = false := by
  unfold orderBy
  cases before x y <;> cases before y x <;> decide

end

namespace Text

/-- Texts are in the order that their bytes have. -/
theorem lt_asymm {s t : Text} (h : lt s t = true) : lt t s = false := by
  rw [lt_iff] at h
  rw [← Bool.not_eq_true, lt_iff]
  exact Std.not_gt_of_lt h

theorem orderBy_lt_eq {s t : Text} : orderBy lt s t = .eq ↔ s = t := by
  rw [orderBy_eq_eq, ← Bool.not_eq_true, ← Bool.not_eq_true, lt_iff, lt_iff, List.not_lt, List.not_lt]
  constructor
  · rintro ⟨hts, hst⟩
    exact Std.le_antisymm hst hts
  · rintro rfl
    exact ⟨Std.le_refl _, Std.le_refl _⟩

end Text

namespace Number

variable {x y : Number}

theorem lt_asymm (h : lt x y = true) : lt y x = false := by
  cases x <;> cases y <;> simp_all [lt]
  omega

theorem eqv_comm (x y : Number) : eqv x y = eqv y x := by
  cases x <;> cases y <;> simp [eqv, eq_comm]

theorem order_of_eqv (h : eqv x y = true) : orderBy lt x y = .eq := by
  rw [orderBy_eq_eq]
  cases x <;> cases y <;> simp_all [lt, eqv]

theorem order_nan (h : x = .nan ∨ y = .nan) : orderBy lt x y = .eq := by
  rw [orderBy_eq_eq]
  rcases h with rfl | rfl
  · cases y <;> exact ⟨rfl, rfl⟩
  · cases x <;> exact ⟨rfl, rfl⟩

/-- Two numbers are equal unless one is below the other. -/
theorem eqv_of_order (hx : x ≠ .nan) (hy : y ≠ .nan) (h : orderBy lt x y = .eq) : eqv x y = true := by
  rw [orderBy_eq_eq] at h
  obtain ⟨hxy, hyx⟩ := h
  match x, y with
  | .infinite m, .infinite n =>
      match m, n with
      | false, false | true, true => rfl
      | false, true => cases hyx
      | true, false => cases hxy
  | .infinite m, .finite g =>
      cases m
      · cases hyx
      · cases hxy
  | .finite f, .infinite n =>
      cases n
      · cases hxy
      · cases hyx
  | .finite f, .finite g =>
      rw [lt, decide_eq_false_iff_not] at hxy hyx
      rw [eqv, decide_eq_true_iff]
      omega

end Number

namespace Heap

variable {h : Heap} {a b : Value} {s t : Text} {x y : Number} {o : Ordering} {same : Bool}

/-- What a value counts as where numbers are compared comes from its text, if it comes from anywhere. -/
theorem number?_of_text? (htext : h.text? a = some s) (hnumeric : a.isNumeric = false)
    (hx : h.number? a = some x) : x = .read s ∨ x = .nan := by
  cases a with
  | number | bool => cases hnumeric
  | text u =>
      cases htext
      exact .inl (Option.some.inj hx).symm
  | numbers | texts | list | stack =>
      rw [number?, htext] at hx
      exact .inl (Option.some.inj hx).symm
  | undefined | tape | pattern | executable => exact .inr (Option.some.inj hx).symm

/-! ## Order and equality -/

theorem compare_text : h.compare (.text s) (.text t) = some (orderBy Text.lt s t) := rfl

theorem compare_of_not_text (hkind : a.isText = false ∨ b.isText = false) :
    h.compare a b = (h.number? a).bind fun x => (h.number? b).map fun y => orderBy Number.lt x y := by
  unfold compare
  split
  · rcases hkind with hkind | hkind <;> cases hkind
  · cases h.number? a <;> cases h.number? b <;> rfl

theorem same_of_numeric (ha : a ≠ .undefined) (hb : b ≠ .undefined)
    (hkind : (a.isNumeric || b.isNumeric) = true) :
    h.same a b = (h.number? a).bind fun x => (h.number? b).map fun y => Number.eqv x y := by
  unfold same
  split
  · exact absurd rfl ha
  · exact absurd rfl ha
  · exact absurd rfl hb
  · rw [if_pos hkind]
    cases h.number? a <;> cases h.number? b <;> rfl

theorem same_of_not_numeric (ha : a ≠ .undefined) (hb : b ≠ .undefined)
    (hkind : (a.isNumeric || b.isNumeric) = false) :
    h.same a b = (h.text? a).bind fun s => (h.text? b).map fun t => decide (s = t) := by
  unfold same
  split
  · exact absurd rfl ha
  · exact absurd rfl ha
  · exact absurd rfl hb
  · rw [hkind]
    cases h.text? a <;> cases h.text? b <;> rfl

theorem not_isText_of_isNumeric (hkind : a.isNumeric = true) : a.isText = false := by
  cases a <;> first | rfl | cases hkind

/-- Two values are two texts, or they are compared by number. -/
theorem texts_or_not (a b : Value) :
    (∃ s t, a = .text s ∧ b = .text t) ∨ a.isText = false ∨ b.isText = false := by
  cases a with
  | text s =>
      cases b with
      | text t => exact .inl ⟨s, t, rfl, rfl⟩
      | _ => exact .inr (.inr rfl)
  | _ => exact .inr (.inl rfl)

theorem compare_swap (h : Heap) (a b : Value) : h.compare b a = (h.compare a b).map Ordering.swap := by
  rcases texts_or_not a b with ⟨s, t, rfl, rfl⟩ | hkind
  · rw [compare_text, compare_text]
    exact congrArg some (orderBy_swap Text.lt_asymm)
  · rw [compare_of_not_text hkind, compare_of_not_text hkind.symm]
    cases h.number? a with
    | none => cases h.number? b <;> rfl
    | some x =>
        cases h.number? b with
        | none => rfl
        | some y => exact congrArg some (orderBy_swap Number.lt_asymm)

theorem same_comm (h : Heap) (a b : Value) : h.same a b = h.same b a := by
  by_cases ha : a = .undefined
  · subst ha
    cases b <;> rfl
  by_cases hb : b = .undefined
  · subst hb
    cases a <;> rfl
  cases hkind : a.isNumeric || b.isNumeric with
  | true =>
      rw [same_of_numeric ha hb hkind, same_of_numeric hb ha (by rwa [Bool.or_comm])]
      cases h.number? a <;> cases h.number? b <;> simp [Number.eqv_comm]
  | false =>
      rw [same_of_not_numeric ha hb hkind, same_of_not_numeric hb ha (by rwa [Bool.or_comm])]
      cases h.text? a <;> cases h.text? b <;> simp [eq_comm]

theorem compare_of_numeric (ha : a ≠ .undefined) (hb : b ≠ .undefined)
    (hkind : (a.isNumeric || b.isNumeric) = true) (hx : h.number? a = some x) (hy : h.number? b = some y) :
    h.compare a b = some (orderBy Number.lt x y) ∧ h.same a b = some (Number.eqv x y) := by
  have htext : a.isText = false ∨ b.isText = false := by
    rcases Bool.or_eq_true_iff.mp hkind with ha | hb
    · exact .inl (not_isText_of_isNumeric ha)
    · exact .inr (not_isText_of_isNumeric hb)
  rw [compare_of_not_text htext, same_of_numeric ha hb hkind, hx, hy]
  exact ⟨rfl, rfl⟩

/-- Values with the same text are in no order: their numbers are the same, or one has none. -/
theorem order_of_texts (ha : h.text? a = some s) (hb : h.text? b = some s)
    (hkind : (a.isNumeric || b.isNumeric) = false) (hx : h.number? a = some x) (hy : h.number? b = some y) :
    orderBy Number.lt x y = .eq := by
  obtain ⟨hkinda, hkindb⟩ := Bool.or_eq_false_iff.mp hkind
  rcases number?_of_text? ha hkinda hx with rfl | hnan
  · rcases number?_of_text? hb hkindb hy with rfl | hnan
    · exact orderBy_self Number.lt_asymm
    · exact Number.order_nan (.inr hnan)
  · exact Number.order_nan (.inl hnan)

/-- Values that are the same are in no order. -/
theorem compare_of_same (hsame : h.same a b = some true) (ho : h.compare a b = some o) : o = .eq := by
  by_cases ha : a = .undefined
  · subst ha
    cases b with
    | undefined => cases ho; rfl
    | _ => cases hsame
  by_cases hb : b = .undefined
  · subst hb
    rw [same_comm] at hsame
    cases a with
    | undefined => exact absurd rfl ha
    | _ => cases hsame
  rcases texts_or_not a b with ⟨s, t, rfl, rfl⟩ | hkind
  · have heq : s = t := by
      rw [same_of_not_numeric ha hb rfl] at hsame
      exact of_decide_eq_true (Option.some.inj hsame)
    rw [compare_text] at ho
    exact (Option.some.inj ho).symm.trans (Text.orderBy_lt_eq.mpr heq)
  · rw [compare_of_not_text hkind] at ho
    obtain ⟨x, hx, hrest⟩ := Option.bind_eq_some_iff.mp ho
    obtain ⟨y, hy, rfl⟩ := Option.map_eq_some_iff.mp hrest
    cases hnumeric : a.isNumeric || b.isNumeric with
    | true =>
        rw [same_of_numeric ha hb hnumeric, hx, hy] at hsame
        exact Number.order_of_eqv (Option.some.inj hsame)
    | false =>
        rw [same_of_not_numeric ha hb hnumeric] at hsame
        obtain ⟨s, hs, hrest⟩ := Option.bind_eq_some_iff.mp hsame
        obtain ⟨t, ht, heq⟩ := Option.map_eq_some_iff.mp hrest
        rw [← of_decide_eq_true heq] at ht
        exact order_of_texts hs ht hnumeric hx hy

/-! ## The operators -/

theorem operate_less (h : Heap) (a b : Value) :
    h.operate .less [a, b] = orEndless ((h.compare a b).map fun o => .bool (o = .lt)) := rfl

theorem operate_more (h : Heap) (a b : Value) :
    h.operate .more [a, b] = orEndless ((h.compare a b).map fun o => .bool (o = .gt)) := rfl

theorem operate_same (h : Heap) (a b : Value) :
    h.operate .same [a, b] = orEndless ((h.same a b).map .bool) := rfl

/-- An operator says that something is so of two values. -/
def Says (h : Heap) (op : Operator) (a b : Value) : Prop := h.operate op [a, b] = .ok (.bool true)

/-- Exactly one of `less`, `same` and `more` is true of two values, and the others are false. -/
def Ordered (h : Heap) (a b : Value) : Prop :=
  ∃ o : Ordering, h.operate .less [a, b] = .ok (.bool (o = .lt)) ∧
    h.operate .same [a, b] = .ok (.bool (o = .eq)) ∧ h.operate .more [a, b] = .ok (.bool (o = .gt))

theorem says_less_iff : h.Says .less a b ↔ h.compare a b = some .lt := by
  rw [Says, operate_less]
  cases h.compare a b with
  | none => simp [orEndless]
  | some o => cases o <;> simp [orEndless]

theorem says_more_iff : h.Says .more a b ↔ h.compare a b = some .gt := by
  rw [Says, operate_more]
  cases h.compare a b with
  | none => simp [orEndless]
  | some o => cases o <;> simp [orEndless]

theorem says_same_iff : h.Says .same a b ↔ h.same a b = some true := by
  rw [Says, operate_same]
  cases h.same a b with
  | none => simp [orEndless]
  | some same => cases same <;> simp [orEndless]

theorem ordered_of (hcompare : h.compare a b = some o) (hsame : h.same a b = some (decide (o = .eq))) :
    h.Ordered a b := by
  refine ⟨o, ?_, ?_, ?_⟩
  · rw [operate_less, hcompare]
    rfl
  · rw [operate_same, hsame]
    rfl
  · rw [operate_more, hcompare]
    rfl

theorem ordered_texts (h : Heap) (s t : Text) : h.Ordered (.text s) (.text t) := by
  refine ordered_of compare_text ?_
  have hsame : h.same (.text s) (.text t) = some (decide (s = t)) := rfl
  rw [hsame, Option.some.injEq, decide_eq_decide]
  exact Text.orderBy_lt_eq.symm

theorem ordered_numbers (ha : a ≠ .undefined) (hb : b ≠ .undefined)
    (hkind : (a.isNumeric || b.isNumeric) = true) (hx : h.number? a = some x) (hy : h.number? b = some y)
    (hxn : x ≠ .nan) (hyn : y ≠ .nan) : h.Ordered a b := by
  obtain ⟨hcompare, hsame⟩ := compare_of_numeric ha hb hkind hx hy
  refine ordered_of hcompare ?_
  rw [hsame, Option.some.injEq, Bool.eq_iff_iff, decide_eq_true_iff]
  exact ⟨Number.order_of_eqv, Number.eqv_of_order hxn hyn⟩

theorem isSome_number? (hs : (h.text? a).isSome = true) : (h.number? a).isSome = true := by
  cases a with
  | numbers | texts | list | stack =>
      rw [number?, Option.isSome_map]
      exact hs
  | _ => rfl

theorem exists_compare (ha : (h.text? a).isSome = true) (hb : (h.text? b).isSome = true) :
    ∃ o, h.compare a b = some o := by
  rcases texts_or_not a b with ⟨s, t, rfl, rfl⟩ | hkind
  · exact ⟨_, compare_text⟩
  · obtain ⟨x, hx⟩ := Option.isSome_iff_exists.mp (isSome_number? ha)
    obtain ⟨y, hy⟩ := Option.isSome_iff_exists.mp (isSome_number? hb)
    rw [compare_of_not_text hkind, hx, hy]
    exact ⟨_, rfl⟩

theorem exists_same (ha : (h.text? a).isSome = true) (hb : (h.text? b).isSome = true) :
    ∃ yes, h.same a b = some yes := by
  by_cases hua : a = .undefined
  · subst hua
    cases b <;> exact ⟨_, rfl⟩
  by_cases hub : b = .undefined
  · subst hub
    cases a <;> exact ⟨_, rfl⟩
  cases hkind : a.isNumeric || b.isNumeric with
  | true =>
      obtain ⟨x, hx⟩ := Option.isSome_iff_exists.mp (isSome_number? ha)
      obtain ⟨y, hy⟩ := Option.isSome_iff_exists.mp (isSome_number? hb)
      rw [same_of_numeric hua hub hkind, hx, hy]
      exact ⟨_, rfl⟩
  | false =>
      obtain ⟨s, hs⟩ := Option.isSome_iff_exists.mp ha
      obtain ⟨t, ht⟩ := Option.isSome_iff_exists.mp hb
      rw [same_of_not_numeric hua hub hkind, hs, ht]
      exact ⟨_, rfl⟩

/-- Two values that have texts are compared with an answer. -/
theorem answers_of_texts (ha : (h.text? a).isSome = true) (hb : (h.text? b).isSome = true) {op : Operator}
    (hop : op ∈ [Operator.less, .same, .more]) : ∃ yes, h.operate op [a, b] = .ok (.bool yes) := by
  obtain ⟨o, hcompare⟩ := exists_compare ha hb
  obtain ⟨yes, hsame⟩ := exists_same ha hb
  simp only [List.mem_cons, List.not_mem_nil, or_false] at hop
  rcases hop with rfl | rfl | rfl
  · rw [operate_less, hcompare]
    exact ⟨_, rfl⟩
  · rw [operate_same, hsame]
    exact ⟨_, rfl⟩
  · rw [operate_more, hcompare]
    exact ⟨_, rfl⟩

/-- What `less`, `same` and `more` say of two values. -/
structure Consistent (h : Heap) (a b : Value) : Prop where
  /-- They have an answer, unless the text of an operand would never end. -/
  answers : (h.text? a).isSome = true → (h.text? b).isSome = true →
    ∀ op ∈ [Operator.less, .same, .more], ∃ yes, h.operate op [a, b] = .ok (.bool yes)
  not_less_and_same : ¬ (h.Says .less a b ∧ h.Says .same a b)
  not_less_and_more : ¬ (h.Says .less a b ∧ h.Says .more a b)
  not_same_and_more : ¬ (h.Says .same a b ∧ h.Says .more a b)
  /-- The other way round less is more. -/
  less_eq_more : h.operate .less [a, b] = h.operate .more [b, a]
  same_eq_same : h.operate .same [a, b] = h.operate .same [b, a]
  texts : ∀ s t, a = .text s → b = .text t → h.Ordered a b
  /-- Numbers and truth values, and what is compared with them. -/
  numbers : (a.isNumeric || b.isNumeric) = true → a ≠ .undefined → b ≠ .undefined →
    ∀ x y, h.number? a = some x → h.number? b = some y → x ≠ .nan → y ≠ .nan → h.Ordered a b

/-- The three comparisons never contradict each other, whatever is compared. -/
theorem comparisons_consistent (h : Heap) (a b : Value) : h.Consistent a b where
  answers ha hb _ hop := answers_of_texts ha hb hop
  not_less_and_same := by
    rintro ⟨hless, hsame⟩
    cases compare_of_same (says_same_iff.mp hsame) (says_less_iff.mp hless)
  not_less_and_more := by
    rintro ⟨hless, hmore⟩
    have hboth := (says_less_iff.mp hless).symm.trans (says_more_iff.mp hmore)
    cases hboth
  not_same_and_more := by
    rintro ⟨hsame, hmore⟩
    cases compare_of_same (says_same_iff.mp hsame) (says_more_iff.mp hmore)
  less_eq_more := by
    rw [operate_less, operate_more, compare_swap h a b]
    cases h.compare a b with
    | none => rfl
    | some o => cases o <;> rfl
  same_eq_same := by rw [operate_same, operate_same, same_comm]
  texts := by
    rintro s t rfl rfl
    exact ordered_texts h s t
  numbers hkind ha hb x y hx hy hxn hyn := ordered_numbers ha hb hkind hx hy hxn hyn

/-- A heap with one stack, on which there is the text of a number. -/
def numeralOnStack : Heap := ⟨#[⟨[.text "2"]⟩], #[]⟩

/-- A stack is compared with a number by the number that its text writes: the text `10` comes before the
text `2`, but ten is more than two. -/
theorem ten_ordered_stack :
    numeralOnStack.number? (.number 10) = some 10 ∧ numeralOnStack.number? (.stack ⟨0⟩) = some 2 ∧
      numeralOnStack.Ordered (.number 10) (.stack ⟨0⟩) :=
  have hstack : numeralOnStack.number? (.stack ⟨0⟩) = some 2 := by decide +kernel
  ⟨rfl, hstack, (comparisons_consistent numeralOnStack (.number 10) (.stack ⟨0⟩)).numbers rfl nofun nofun
    10 2 rfl hstack (by decide +kernel) (by decide +kernel)⟩

end Heap

end Linewise
