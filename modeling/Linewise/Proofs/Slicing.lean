import Linewise.Proofs.Utf8
import Linewise.Value.Operate

/-!
# Slices

A slice is taken from the elements of a value: those of a list, or the characters of the text of any other
value (`Elements`). It is what is left of them when some are dropped from the front, and as a value it has
just the elements that are left (`Heap.elements?_value`), also where a text had bytes that are no
characters. So dropping twice is dropping once, and a start never lies outside: `Heap.values_sliceable`.
-/

namespace Linewise

/-- What a value consists of where it is sliced. -/
inductive Elements where
  | numbers (xs : List Number)
  | texts (ss : List Text)
  | items (vs : List Value)
  | chars (cs : List Char)

namespace Elements

def length : Elements → Nat
  | .numbers xs => xs.length
  | .texts ss => ss.length
  | .items vs => vs.length
  | .chars cs => cs.length

/-- The elements after the first `k`. -/
def drop (k : Nat) : Elements → Elements
  | .numbers xs => .numbers (xs.drop k)
  | .texts ss => .texts (ss.drop k)
  | .items vs => .items (vs.drop k)
  | .chars cs => .chars (cs.drop k)

/-- The value that has the elements. -/
def value : Elements → Value
  | .numbers xs => .numbers xs
  | .texts ss => .texts ss
  | .items vs => .list vs
  | .chars cs => .text (Text.ofChars cs)

@[simp] theorem length_drop (k : Nat) (es : Elements) : (es.drop k).length = es.length - k := by
  cases es <;> simp [drop, length]

@[simp] theorem drop_drop (j k : Nat) (es : Elements) : (es.drop k).drop j = es.drop (k + j) := by
  cases es <;> simp [drop]

end Elements

namespace Heap

/-- The elements of a value, none if it has to have a text and has none. -/
def elements? (h : Heap) : Value → Option Elements
  | .numbers xs => some (.numbers xs)
  | .texts ss => some (.texts ss)
  | .list vs => some (.items vs)
  | v => (h.text? v).map fun s => .chars s.chars

/-- How many of `n` elements are dropped at an index; a negative one counts from the end. -/
def dropped (i : Int) (n : Nat) : Nat := (min (max (if i < 0 then n + i else i) 0) n).toNat

variable {h : Heap} {v : Value}

/-- A value made of elements has these elements. -/
theorem elements?_value (h : Heap) (es : Elements) : h.elements? es.value = some es := by
  cases es with
  | numbers | texts | items => rfl
  | chars cs =>
      show some (Elements.chars (Text.ofChars cs).chars) = some (.chars cs)
      rw [Text.chars_ofChars]

/-! ## Where a slice starts -/

theorem sliceStart_eq (i : Int) (n : Nat) : sliceStart i n = dropped i n := by
  simp only [sliceStart, dropped]
  omega

theorem dropped_le (i : Int) (n : Nat) : dropped i n ≤ n := by
  simp only [dropped]
  omega

theorem dropped_natCast (i n : Nat) : dropped i n = min i n := by
  have hpositive : ¬ (i : Int) < 0 := by omega
  simp only [dropped, if_neg hpositive]
  omega

/-- What is dropped in two steps is dropped in one. -/
theorem dropped_add (i j n : Nat) : dropped i n + dropped j (n - dropped i n) = dropped (i + j) n := by
  rw [← Int.natCast_add]
  simp only [dropped_natCast]
  omega

theorem tailFrom_of_le {α : Type} {xs : List α} {k : Nat} (hk : k ≤ xs.length) :
    tailFrom xs k = .ok (xs.drop k) := by
  rw [tailFrom, if_pos ⟨Int.natCast_nonneg k, Int.ofNat_le.mpr hk⟩, Int.toNat_natCast]

/-- The start of a slice never lies outside. -/
theorem sliceList_eq {α : Type} (xs : List α) (i : Int) :
    sliceList xs i = .ok (xs.drop (dropped i xs.length)) := by
  rw [sliceList, sliceStart_eq, tailFrom_of_le (dropped_le i xs.length)]

/-! ## Slices of values -/

/-- A value that is no list is sliced by the characters of its text. -/
theorem sliceText_eq (text : Option Text) (i : Int) :
    (do
      let s ← orEndless text
      return .text (Text.ofChars (← sliceList s.chars i)))
      = orEndless ((text.map fun s => Elements.chars s.chars).map fun es =>
        (es.drop (dropped i es.length)).value) := by
  cases text with
  | none => rfl
  | some s =>
      show (sliceList s.chars i >>= fun cs => pure (Value.text (Text.ofChars cs))) = _
      rw [sliceList_eq]
      rfl

theorem sliceFrom_eq (h : Heap) (v : Value) (i : Int) : h.sliceFrom v i
    = orEndless ((h.elements? v).map fun es => (es.drop (dropped i es.length)).value) := by
  cases v with
  | numbers | texts | list =>
      rw [sliceFrom, sliceList_eq]
      rfl
  | _ => exact sliceText_eq _ i

/-- A slice of a slice starts at the sum of the indices. -/
theorem sliceFrom_sliceFrom (h : Heap) (v : Value) (i j : Nat) :
    (h.sliceFrom v i >>= fun w => h.sliceFrom w j) = h.sliceFrom v (i + j) := by
  rw [sliceFrom_eq h v i, sliceFrom_eq h v (i + j)]
  cases h.elements? v with
  | none => rfl
  | some es =>
      show h.sliceFrom (es.drop (dropped i es.length)).value j = _
      rw [sliceFrom_eq, elements?_value]
      simp only [Option.map_some, Elements.length_drop, Elements.drop_drop, dropped_add]

theorem operate_slice {position : Value} {i : Int} (hi : h.index? position = some (some i)) :
    h.operate .slice [v, position] = h.sliceFrom v i := by
  show h.slice v position = _
  rw [slice, hi]
  rfl

theorem orEndless_ne_outside {α : Type} {start : Int} {count : Nat} (result : Option α) :
    orEndless result ≠ .error (.outside start count) := by
  cases result <;> exact nofun

/-- What the slices of a value are. -/
structure Sliceable (h : Heap) (v : Value) : Prop where
  /-- The elements that are left at an index, as many as that may be, as a value of the same kind. -/
  suffix : ∀ i : Int, h.sliceFrom v i
    = orEndless ((h.elements? v).map fun es => (es.drop (dropped i es.length)).value)
  composes : ∀ i j : Nat, (h.sliceFrom v i >>= fun w => h.sliceFrom w j) = h.sliceFrom v (i + j)
  /-- The operator takes the slice at the index that its second operand counts as. -/
  operator : ∀ position i, h.index? position = some (some i) →
    h.operate .slice [v, position] = h.sliceFrom v i
  /-- So it composes as far as there are indices. -/
  operators : ∀ first second both i j, h.index? first = some (some i) → h.index? second = some (some j) →
    h.index? both = some (some (i + j)) → 0 ≤ i → 0 ≤ j →
    (h.operate .slice [v, first] >>= fun w => h.operate .slice [w, second]) = h.operate .slice [v, both]
  /-- It never starts before the first element or behind the last, index or not. -/
  inside : ∀ position start count, h.operate .slice [v, position] ≠ .error (.outside start count)

/-- Slices of any value are suffixes of its elements, and compose. -/
theorem values_sliceable (h : Heap) (v : Value) : h.Sliceable v where
  suffix := sliceFrom_eq h v
  composes := sliceFrom_sliceFrom h v
  operator position i hi := operate_slice hi
  operators first second both i j hi hj hsum hpos hpos' := by
    obtain ⟨i, rfl⟩ := Int.eq_ofNat_of_zero_le hpos
    obtain ⟨j, rfl⟩ := Int.eq_ofNat_of_zero_le hpos'
    rw [operate_slice hi, operate_slice hsum, ← sliceFrom_sliceFrom]
    exact congrArg _ (funext fun w => operate_slice hj)
  inside position start count := by
    show h.slice v position ≠ _
    rw [slice]
    cases h.index? position with
    | none => exact nofun
    | some index =>
        show h.sliceFrom v (index.getD 0) ≠ _
        rw [sliceFrom_eq]
        exact orEndless_ne_outside _

/-- A text of four characters, the second of which was read from a stray byte. -/
def strayText : Value := .text [97, 0xFF, 0xC3, 0xA9, 98]

/-- Two slices of a text with a stray byte, the second of which is of characters only, and a slice from the
least index there is. -/
theorem strayText_sliceable :
    empty.index? (.number 1) = some (some 1) ∧ empty.index? (.number 2) = some (some 2) ∧
      empty.operate .slice [strayText, .number 1] = .ok (.text [0xEF, 0xBF, 0xBD, 0xC3, 0xA9, 98]) ∧
      (empty.operate .slice [strayText, .number 1] >>= fun w => empty.operate .slice [w, .number 1])
        = empty.operate .slice [strayText, .number 2] ∧
      empty.operate .slice [.numbers [1, 2], .number (.ofInt Number.leastAddress)]
        = .ok (.numbers [1, 2]) := by
  have hone : empty.index? (.number 1) = some (some 1) := by decide +kernel
  have htwo : empty.index? (.number 2) = some (some 2) := by decide +kernel
  have hleast : empty.index? (.number (.ofInt Number.leastAddress)) = some (some Number.leastAddress) := by
    decide +kernel
  have hstray := values_sliceable empty strayText
  have hnumbers := values_sliceable empty (.numbers [1, 2])
  refine ⟨hone, htwo, ?_, ?_, ?_⟩
  · rw [hstray.operator _ _ hone, hstray.suffix]
    rfl
  · exact hstray.operators _ _ _ 1 1 hone hone htwo (by decide) (by decide)
  · rw [hnumbers.operator _ _ hleast, hnumbers.suffix]
    rfl

end Heap

end Linewise
