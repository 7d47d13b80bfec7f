import Linewise.Proofs.Rounding
import Linewise.Proofs.TapeReading

/-!
# The limit of a tape

What a tape can be read at is limited twice: its pointer is compared with the upper bound, and then the
memory compares the address under the pointer with the address of the bound. Both addresses are floors
brought into the range of addresses, which keeps their order (`Number.address_le_address`). So the memory
refuses nothing that the tape asks for (`Limited.lt_of_load`), however far the pointer and the bound are
outside of the range, and readings fail by the pointer alone (`readings_fail_past_max`).
-/

namespace Linewise

namespace Number

theorem toInt_address (x : Finite) : (Number.finite x).address.toInt
    = max leastAddress (min greatestAddress (x.value.fdiv unitsPerOne)) := by
  have hleast : leastAddress = -9223372036854775808 := rfl
  have hgreatest : greatestAddress = 9223372036854775807 := rfl
  exact Int64.toInt_ofInt_of_le (by omega) (by omega)

/-- Floors brought into the range of addresses keep their order. -/
theorem address_le_address {x y : Finite} (h : x.value ≤ y.value) :
    (Number.finite x).address ≤ (Number.finite y).address := by
  have hunits : (0 : Int) < unitsPerOne := Int.natCast_pos.mpr unitsPerOne_pos
  have hfloor : x.value.fdiv unitsPerOne ≤ y.value.fdiv unitsPerOne := by
    rw [Int.fdiv_eq_ediv_of_nonneg _ (Int.le_of_lt hunits), Int.fdiv_eq_ediv_of_nonneg _ (Int.le_of_lt hunits)]
    exact Int.ediv_le_ediv hunits h
  rw [Int64.le_iff_toInt_le, toInt_address, toInt_address]
  omega

end Number

namespace Cells

variable {α : Type} [Scalar α] (m : Cells α)

/-! ## The limit of a memory -/

theorem limit_ensurePage (i : Nat) (address : Int64) : (m.ensurePage i address).2.limit = m.limit := by
  rcases m.ensurePage_cases i address with ⟨base, size, -, -, -, hensure⟩ | ⟨-, hensure⟩
  · rw [hensure]
  · rw [hensure, insertPage]

theorem limit_storeTurn (i : Nat) (address : Int64) (values : List α) :
    (m.storeTurn i address values).1.limit = m.limit := by
  simp only [storeTurn]
  split
  · exact limit_ensurePage m i address
  · exact limit_ensurePage m i address

theorem limit_storeFrom (stop : Int64) (fuel i : Nat) (address : Int64) (values : List α) :
    (storeFrom stop fuel m i address values).limit = m.limit := by
  induction fuel generalizing m i address values with
  | zero => rfl
  | succ fuel ih =>
      rw [storeFrom]
      split
      · exact (ih _ _ _ _).trans (limit_storeTurn m i address values)
      · rfl

/-- A store leaves the limit as it was, whether or not addresses wrap around. -/
theorem limit_store (address : Int64) (values : List α) : (m.store address values).limit = m.limit :=
  limit_storeFrom m _ _ _ address values

end Cells

namespace Tape

/-! ## Two limits -/

/-- The tape after operations. -/
def after (t : Tape Number) (ops : List Operation) : Tape Number := ops.foldl (fun t op => (t.act op).2) t

theorem max_storeAt (t : Tape Number) (address : Option Int64) (x : Number) :
    (t.storeAt address x).max = t.max := by
  cases address <;> rfl

theorem max_act (t : Tape Number) (op : Operation) : (t.act op).2.max = t.max := by
  cases op with
  | move pointer => rfl
  | set value => rw [act_set, max_storeAt]
  | get => rw [act_get, max_storeAt]

theorem max_after (t : Tape Number) (ops : List Operation) : (t.after ops).max = t.max := by
  induction ops generalizing t with
  | nil => rfl
  | cons op ops ih => exact (ih (t.act op).2).trans (max_act t op)

/-- A tape whose memory is limited by the address of the upper bound, if there is one. -/
structure Limited (t : Tape Number) : Prop where
  max_ne_nan : t.max ≠ .nan
  limit : t.cells.limit = if t.max = .infinite false then none else some t.max.address

theorem boundAt_ne_nan (bounds : List Number) (i : Nat) {missing : Number} (h : missing ≠ .nan) :
    boundAt bounds i missing ≠ .nan := by
  unfold boundAt
  split
  · split
    · exact h
    · rename_i hnumber
      intro hnan
      rw [hnan] at hnumber
      exact hnumber rfl
  · exact h

theorem limited_ofBounds (pageSize : Int64) (bounds : List Number) : (ofBounds pageSize bounds).Limited :=
  ⟨boundAt_ne_nan bounds 2 (by decide), rfl⟩

namespace Limited

variable {t : Tape Number}

theorem storeAt (h : t.Limited) (address : Option Int64) (x : Number) : (t.storeAt address x).Limited := by
  cases address with
  | none => exact h
  | some a => exact ⟨h.max_ne_nan, (Cells.limit_store t.cells a [x]).trans h.limit⟩

theorem act (h : t.Limited) (op : Operation) : (t.act op).2.Limited := by
  cases op with
  | move pointer => exact ⟨h.max_ne_nan, h.limit⟩
  | set value =>
      rw [act_set]
      exact h.storeAt _ _
  | get =>
      rw [act_get]
      exact h.storeAt _ _

theorem after (h : t.Limited) (ops : List Operation) : (t.after ops).Limited := by
  induction ops generalizing t with
  | nil => exact h
  | cons op ops ih => exact ih (h.act op)

/-- The memory refuses an address under the pointer only if the pointer is above the upper bound. -/
theorem lt_of_load (h : t.Limited) {a : Int64} {e : LimitError} (ha : t.address? = some a)
    (hload : t.cells.load a = .error e) : Scalar.lt t.max t.pointer = true := by
  have hlimit := h.limit
  cases hpointer : t.pointer with
  | nan =>
      rw [address?, hpointer] at ha
      cases ha
  | infinite negative =>
      rw [address?, hpointer] at ha
      cases ha
  | finite x =>
      rw [address?, hpointer] at ha
      obtain rfl : (Number.finite x).address = a := Option.some.inj ha
      cases hmax : t.max with
      | nan => exact absurd hmax h.max_ne_nan
      | infinite negative =>
          -- without an upper bound there is no limit, and a lowest one is below every pointer
          cases negative with
          | true => rfl
          | false =>
              rw [hmax, if_pos rfl] at hlimit
              rw [Cells.load, PageTable.checkLimit, hlimit] at hload
              cases hload
      | finite y =>
          rw [hmax, if_neg (fun heq => Number.noConfusion heq)] at hlimit
          rcases Int.lt_or_le y.value x.value with hlt | hle
          · exact decide_eq_true hlt
          · have haddress : ¬ (Number.finite y).address < (Number.finite x).address :=
              Int64.not_lt.mpr (Number.address_le_address hle)
            rw [Cells.load, PageTable.checkLimit, hlimit] at hload
            dsimp only at hload
            rw [if_neg haddress] at hload
            cases hload

end Limited

end Tape

/-- A tape can be read unless its pointer is above its upper bound, whatever its bounds and page size are
and whatever was done with it before. A reading that fails gives the pointer and leaves the tape as it was,
and the memory refuses no address at which the tape reads it. -/
theorem readings_fail_past_max (pageSize : Int64) (bounds : List Number) (ops : List Tape.Operation) :
    let max := Tape.boundAt bounds 2 (.infinite false)
    let t := (Tape.ofBounds pageSize bounds).after ops
    (∀ e, t.get = .error e ↔ Number.lt max t.pointer = true ∧ e = .outOfBounds t.pointer) ∧
      (∀ e, t.get = .error e → t.act .get = (.error e, t)) ∧
      ∀ a e, t.address? = some a → t.cells.load a = .error e → Number.lt max t.pointer = true := by
  intro max t
  have hlimited : t.Limited := (Tape.limited_ofBounds pageSize bounds).after ops
  have hmax : t.max = max := Tape.max_after (Tape.ofBounds pageSize bounds) ops
  rw [← hmax]
  refine ⟨fun e => ⟨fun hget => ?_, ?_⟩, fun e hget => ?_, fun a e => hlimited.lt_of_load⟩
  · simp only [Tape.get] at hget
    repeat' split at hget
    all_goals cases hget
    · exact ⟨‹_›, rfl⟩
    · rename_i hpast _ a ha _ e hload
      exact absurd (hlimited.lt_of_load ha hload) hpast
  · rintro ⟨hpast, rfl⟩
    exact if_pos hpast
  · rw [Tape.act, hget]

/-- A pointer above the bound by a fraction is refused, although its cell is the one under the bound. -/
example : ((Tape.ofBounds 4 [10, 0, .ofBits 0x4023000000000000]).answers
      [.move (.ofBits 0x4023000000000000), .get, .move (.ofBits 0x4023800000000000), .get]).map
        Except.toOption
    = [some (.ofBits 0x4023000000000000), some 0, some (.ofBits 0x4023800000000000), none] := by
  decide +kernel

end Linewise
