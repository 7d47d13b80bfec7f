import Linewise.Proofs.Memory
import Linewise.Tape.Numeric

/-!
# Reading a tape

A cell that was never written is written with the default when it is first read, and a page is made for
it. Nobody notices as long as what a page is made of reads like no page at all: `Tape.Alike` relates tapes
that read alike, and a reading leaves a tape alike to what it was (`Alike.get_left`). So the answers of
other operations do not tell whether it took place. That is so where no computed address wraps around
(`Tape.Clears`) and where the default is not a negative zero, which the other cells of a new page do not
keep: `not_transparent_always`.
-/

namespace Linewise

/-- The things of a list that are marked to be kept. -/
def kept {α : Type} (marked : List (Bool × α)) : List α := (marked.filter Prod.fst).map Prod.snd

section Kept

variable {α : Type} (a : α) (marked : List (Bool × α))

@[simp] theorem kept_cons_true : kept ((true, a) :: marked) = a :: kept marked := rfl

@[simp] theorem kept_cons_false : kept ((false, a) :: marked) = kept marked := rfl

end Kept

namespace Cells

variable {m : Cells Number} {address : Int64}

/-- What the cell at an address reads as. -/
def shown (m : Cells Number) (b : Int) : Number := (contents m.pages b).getD m.fill

theorem load_eq_shown (h : m.Laid) (address : Int64) :
    m.load address = (m.checkLimit address).map fun _ => m.shown address.toInt := load_eq_map h address

theorem shown_of_not_has (h : m.Laid) (hno : m.has address = false) :
    m.shown address.toInt = m.fill := by
  rw [has_eq_isSome h, Option.isSome_eq_false_iff, Option.isNone_iff_eq_none] at hno
  rw [shown, hno, Option.getD_none]

/-- A clear store changes one cell, and a new page is made of what was to be read there before. -/
theorem shown_store (h : m.Laid) (hfill : m.fill ≠ .zeroOf true) (hclear : m.Clear address 1)
    (x : Number) (b : Int) :
    (m.store address [x]).shown b = if b = address.toInt then x else m.shown b := by
  have hstored : Stored m (m.store address [x]) address.toInt [x] := store_stored h hclear
  unfold shown
  by_cases hb : b = address.toInt
  · have hwritten : contents (m.store address [x]).pages address.toInt = some x := by
      simpa using hstored.written 0 Nat.zero_lt_one
    rw [if_pos hb, hb, hwritten, Option.getD_some]
  · have hoff : b < address.toInt ∨ address.toInt + [x].length ≤ b := by
      rw [List.length_singleton]
      omega
    rw [if_neg hb, hstored.fill_eq]
    rcases hstored.kept b hoff with hsame | ⟨hempty, hblank⟩
    · rw [hsame]
    · rw [hempty, hblank, blank_eq_fill hfill]
      rfl

end Cells

namespace Tape

/-- What can be done with a tape. -/
inductive Operation where
  | move (pointer : Number)
  | set (value : Number)
  | get
deriving DecidableEq, Repr

/-- What an operation gives. -/
abbrev Answer := Except (TapeError Number) Number

/-- Does an operation. A reading that fails leaves the tape as it was. -/
def act (t : Tape Number) : Operation → Answer × Tape Number
  | .move pointer => (.ok pointer, { t with pointer })
  | .set value => (.ok (t.set value).1, (t.set value).2)
  | .get =>
    match t.get with
    | .ok (x, t) => (.ok x, t)
    | .error e => (.error e, t)

/-- What operations give, one after the other. -/
def answers (t : Tape Number) : List Operation → List Answer
  | [] => []
  | op :: ops => (t.act op).1 :: (t.act op).2.answers ops

/-- Every other operation gives the same if readings are left out. -/
def Transparent (t : Tape Number) : Prop :=
  ∀ marked : List (Bool × Operation), (∀ op, (false, op) ∈ marked → op = .get) →
    t.answers (kept marked) = kept ((marked.map Prod.fst).zip (t.answers (marked.map Prod.snd)))

/-! ## What operations store -/

/-- What reading gives. -/
def reading (t : Tape Number) : Answer :=
  if Scalar.lt t.max t.pointer then .error (.outOfBounds t.pointer)
  else
    match t.address? with
    | none => .ok t.default
    | some a =>
      match t.cells.load a with
      | .error e => .error (.pastLimit e)
      | .ok x => .ok x

/-- The cell that reading writes with the default: it can be read, and no page holds it. -/
def vacant? (t : Tape Number) : Option Int64 :=
  if Scalar.lt t.max t.pointer then none
  else
    match t.address? with
    | none => none
    | some a =>
      match t.cells.load a with
      | .error _ => none
      | .ok _ => if t.cells.has a then none else some a

/-- The address that an operation stores to, if it stores. -/
def storesAt? (t : Tape Number) : Operation → Option Int64
  | .move _ => none
  | .set _ => t.address?
  | .get => t.vacant?

/-- The tape with a value stored at an address, if there is one. -/
def storeAt (t : Tape Number) (address : Option Int64) (x : Number) : Tape Number :=
  match address with
  | none => t
  | some a => { t with cells := t.cells.store a [x] }

/-- No address that is computed in operations wraps around. -/
def Clears (t : Tape Number) : List Operation → Prop
  | [] => True
  | op :: ops => (∀ a, t.storesAt? op = some a → t.cells.Clear a 1) ∧ (t.act op).2.Clears ops

theorem act_set (t : Tape Number) (value : Number) : t.act (.set value)
    = (.ok (wrap t.min t.max value), t.storeAt t.address? (wrap t.min t.max value)) := by
  cases ha : t.address? <;> simp [act, set, storeAt, ha]

theorem act_get (t : Tape Number) : t.act .get = (t.reading, t.storeAt t.vacant? t.default) := by
  by_cases hmax : Scalar.lt t.max t.pointer = true
  · simp [act, get, reading, vacant?, storeAt, hmax]
  · cases ha : t.address? with
    | none => simp [act, get, reading, vacant?, storeAt, hmax, ha]
    | some a =>
        cases hload : t.cells.load a with
        | error e => simp [act, get, reading, vacant?, storeAt, hmax, ha, hload]
        | ok x =>
            cases hhas : t.cells.has a <;>
              simp [act, get, reading, vacant?, storeAt, hmax, ha, hload, hhas]

theorem not_has_of_vacant {t : Tape Number} {a : Int64} (h : t.vacant? = some a) :
    t.cells.has a = false := by
  simp only [vacant?] at h
  repeat' split at h
  all_goals cases h
  rename_i hhas
  simpa using hhas

/-! ## Tapes that read alike -/

/-- A tape whose cells are in order, and whose pages are made of the default. -/
structure Proper (t : Tape Number) : Prop where
  laid : t.cells.Laid
  fill : t.cells.fill = t.default
  signed : t.default ≠ .zeroOf true

section Proper

variable {t : Tape Number} {a : Int64}

theorem Proper.storeAt (h : t.Proper) {address : Option Int64}
    (hclear : ∀ a, address = some a → t.cells.Clear a 1) (x : Number) : (t.storeAt address x).Proper := by
  cases address with
  | none => exact h
  | some a =>
      have hstored : Stored t.cells (t.cells.store a [x]) a.toInt [x] :=
        Cells.store_stored h.laid (hclear a rfl)
      exact ⟨hstored.laid, hstored.fill_eq.trans h.fill, h.signed⟩

theorem Proper.limit_storeAt (h : t.Proper) (hclear : t.cells.Clear a 1) (x : Number) :
    (t.storeAt (some a) x).cells.limit = t.cells.limit := by
  have hstored : Stored t.cells (t.cells.store a [x]) a.toInt [x] := Cells.store_stored h.laid hclear
  exact hstored.limit_eq

theorem Proper.shown_storeAt (h : t.Proper) (hclear : t.cells.Clear a 1) (x : Number) (b : Int) :
    (t.storeAt (some a) x).cells.shown b = if b = a.toInt then x else t.cells.shown b := by
  have hfill : t.cells.fill ≠ .zeroOf true := by
    rw [h.fill]
    exact h.signed
  exact Cells.shown_store h.laid hfill hclear x b

end Proper

/-- Two tapes that differ in their pages at most, and read alike. -/
structure Alike (t t' : Tape Number) : Prop where
  proper : t.Proper
  proper' : t'.Proper
  frame : t' = { t with cells := t'.cells }
  limit : t'.cells.limit = t.cells.limit
  shown : ∀ b, t'.cells.shown b = t.cells.shown b

namespace Alike

variable {t t' : Tape Number}

theorem refl (h : t.Proper) : Alike t t := ⟨h, h, rfl, rfl, fun _ => rfl⟩

theorem symm (h : Alike t t') : Alike t' t where
  proper := h.proper'
  proper' := h.proper
  frame := by rw [h.frame]
  limit := h.limit.symm
  shown b := (h.shown b).symm

theorem address?_eq (h : Alike t t') : t'.address? = t.address? := by
  rw [h.frame]
  rfl

theorem reading_eq (h : Alike t t') : t'.reading = t.reading := by
  have hload : ∀ a, t'.cells.load a = t.cells.load a := by
    intro a
    rw [Cells.load_eq_shown h.proper'.laid, Cells.load_eq_shown h.proper.laid, h.shown]
    simp only [PageTable.checkLimit, h.limit]
  have hmax : t'.max = t.max := by rw [h.frame]
  have hpointer : t'.pointer = t.pointer := by rw [h.frame]
  have hdefault : t'.default = t.default := by rw [h.frame]
  simp only [reading, h.address?_eq, hload, hmax, hpointer, hdefault]

/-- The same store on both tapes. -/
theorem storeAt (h : Alike t t') {address : Option Int64} (x : Number)
    (hclear : ∀ a, address = some a → t.cells.Clear a 1)
    (hclear' : ∀ a, address = some a → t'.cells.Clear a 1) :
    Alike (t.storeAt address x) (t'.storeAt address x) := by
  have hproper := h.proper.storeAt hclear x
  have hproper' := h.proper'.storeAt hclear' x
  cases address with
  | none => exact h
  | some a =>
      refine ⟨hproper, hproper', ?_, ?_, fun b => ?_⟩
      · rw [h.frame]
        rfl
      · rw [h.proper.limit_storeAt (hclear a rfl), h.proper'.limit_storeAt (hclear' a rfl), h.limit]
      · rw [h.proper.shown_storeAt (hclear a rfl), h.proper'.shown_storeAt (hclear' a rfl), h.shown]

/-- Reading leaves nothing behind that could be read. -/
theorem get_left (h : Alike t t') (hclear : ∀ a, t.vacant? = some a → t.cells.Clear a 1) :
    Alike (t.act .get).2 t' := by
  have hproper := h.proper.storeAt hclear t.default
  rw [act_get]
  cases hvacant : t.vacant? with
  | none => exact h
  | some a =>
      rw [hvacant] at hproper
      have hclear := hclear a hvacant
      refine ⟨hproper, h.proper', ?_, ?_, fun b => ?_⟩
      · rw [h.frame]
        rfl
      · rw [h.proper.limit_storeAt hclear, h.limit]
      · -- what is stored was to be read there before
        rw [h.proper.shown_storeAt hclear, h.shown]
        split
        · rename_i hb
          rw [hb, Cells.shown_of_not_has h.proper.laid (not_has_of_vacant hvacant), h.proper.fill]
        · rfl

/-- Tapes that read alike give the same answers, and go on reading alike. -/
theorem act (h : Alike t t') (op : Operation) (hclear : ∀ a, t.storesAt? op = some a → t.cells.Clear a 1)
    (hclear' : ∀ a, t'.storesAt? op = some a → t'.cells.Clear a 1) :
    (t'.act op).1 = (t.act op).1 ∧ Alike (t.act op).2 (t'.act op).2 := by
  cases op with
  | move pointer =>
      refine ⟨rfl, ⟨h.proper.laid, h.proper.fill, h.proper.signed⟩,
        ⟨h.proper'.laid, h.proper'.fill, h.proper'.signed⟩, ?_, h.limit, h.shown⟩
      show { t' with pointer } = _
      rw [h.frame]
      rfl
  | set value =>
      have hmin : t'.min = t.min := by rw [h.frame]
      have hmax : t'.max = t.max := by rw [h.frame]
      have haddress := h.address?_eq
      rw [act_set, act_set, hmin, hmax, haddress]
      refine ⟨rfl, h.storeAt _ hclear fun a ha => hclear' a ?_⟩
      exact haddress.trans ha
  | get =>
      have hanswer : (t'.act .get).1 = (t.act .get).1 := by
        rw [act_get, act_get]
        exact h.reading_eq
      exact ⟨hanswer, ((h.get_left hclear).symm.get_left hclear').symm⟩

/-- Readings on one of two tapes that read alike are not noticed later. -/
theorem answers_kept (h : Alike t t') {marked : List (Bool × Operation)}
    (hget : ∀ op, (false, op) ∈ marked → op = .get) (hclear : t.Clears (marked.map Prod.snd))
    (hclear' : t'.Clears (kept marked)) :
    t'.answers (kept marked) = kept ((marked.map Prod.fst).zip (t.answers (marked.map Prod.snd))) := by
  induction marked generalizing t t' with
  | nil => rfl
  | cons entry rest ih =>
      obtain ⟨keep, op⟩ := entry
      have hget' : ∀ op, (false, op) ∈ rest → op = .get := fun op hop =>
        hget op (List.mem_cons_of_mem _ hop)
      obtain ⟨hop, hclear⟩ := hclear
      cases keep with
      | true =>
          obtain ⟨hop', hclear'⟩ := hclear'
          obtain ⟨hanswer, halike⟩ := h.act op hop hop'
          simp only [kept_cons_true, List.map_cons, answers, List.zip_cons_cons, hanswer]
          rw [ih halike hget' hclear hclear']
      | false =>
          obtain rfl : op = .get := hget op List.mem_cons_self
          simp only [kept_cons_false, List.map_cons, answers, List.zip_cons_cons]
          exact ih (h.get_left hop) hget' hclear hclear'

end Alike

/-! ## Far from the ends of the address space -/

/-- An operation that does not move the pointer to a cell at 2⁶¹ or beyond. -/
def Operation.Near : Operation → Prop
  | .move pointer => pointer.isFinite = true → pointer.address.toInt.natAbs < 2305843009213693952
  | _ => True

instance : ∀ op : Operation, Decidable op.Near
  | .move _ => inferInstanceAs (Decidable (_ → _))
  | .set _ => inferInstanceAs (Decidable True)
  | .get => inferInstanceAs (Decidable True)

/-- A tape whose pages and pointer are far from the ends of the address space. -/
structure Near (t : Tape Number) : Prop where
  cells : Modest t.cells
  pointer : ∀ a, t.address? = some a → a.toInt.natAbs < 2305843009213693952

section Near

variable {t : Tape Number} {op : Operation} {a : Int64}

/-- Nothing is stored but under the pointer. -/
theorem address?_of_storesAt? (h : t.storesAt? op = some a) : t.address? = some a := by
  cases op with
  | move pointer => cases h
  | set value => exact h
  | get =>
      simp only [storesAt?, vacant?] at h
      repeat' split at h
      all_goals cases h
      assumption

theorem Near.store (h : t.Near) (ha : t.address? = some a) (x : Number) :
    t.cells.Clear a 1 ∧ Modest (t.cells.store a [x]) := by
  have hnear := h.pointer a ha
  have hwithin : (Access.store a [x]).Within 2305843009213693952 := by
    constructor
    · omega
    · rw [List.length_singleton]
      omega
  exact h.cells.access hwithin

theorem Near.storeAt (h : t.Near) {address : Option Int64}
    (haddress : ∀ a, address = some a → t.address? = some a) (x : Number) :
    (t.storeAt address x).Near := by
  cases address with
  | none => exact h
  | some a => exact ⟨(h.store (haddress a rfl) x).2, h.pointer⟩

theorem Near.act (h : t.Near) (hop : op.Near) : (t.act op).2.Near := by
  cases op with
  | move pointer =>
      refine ⟨h.cells, fun a ha => ?_⟩
      cases pointer with
      | nan => cases ha
      | infinite negative => cases ha
      | finite x =>
          cases ha
          exact hop rfl
  | set value =>
      rw [act_set]
      exact h.storeAt (fun _ => id) _
  | get =>
      rw [act_get]
      refine h.storeAt (fun a ha => ?_) _
      exact address?_of_storesAt? (show t.storesAt? .get = some a from ha)

/-- Nothing wraps around as long as the pointer stays near. -/
theorem Near.clears (h : t.Near) {ops : List Operation} (hops : ∀ op ∈ ops, op.Near) : t.Clears ops := by
  induction ops generalizing t with
  | nil => trivial
  | cons op ops ih =>
      obtain ⟨hop, hops⟩ := List.forall_mem_cons.mp hops
      exact ⟨fun a ha => (h.store (address?_of_storesAt? ha) 0).1, ih (h.act hop) hops⟩

end Near

/-! ## Tapes as they are made -/

theorem proper_ofBounds {pageSize : Int64} {bounds : List Number}
    (h : (ofBounds pageSize bounds).default ≠ .zeroOf true) : (ofBounds pageSize bounds).Proper :=
  ⟨Cells.laid_empty _ _ _, rfl, h⟩

theorem near_ofBounds {pageSize : Int64} (h : pageSize.toInt.natAbs ≤ 2305843009213693952)
    (bounds : List Number) : (ofBounds pageSize bounds).Near := by
  refine ⟨Modest.empty h _ _, fun a ha => ?_⟩
  have hpointer : (ofBounds pageSize bounds).pointer = .zeroOf false := Number.zero_eq_zeroOf
  rw [address?, hpointer] at ha
  cases ha
  decide

end Tape

/-- Readings can be left out of what is done with a tape, whatever its bounds, its page size and its
default, a negative zero apart, as long as no address wraps around with them or without them: every other
operation gives what it gave. -/
theorem readings_leave_no_mark {pageSize : Int64} {bounds : List Number}
    {marked : List (Bool × Tape.Operation)}
    (hdefault : (Tape.ofBounds pageSize bounds).default ≠ .zeroOf true)
    (hget : ∀ op, (false, op) ∈ marked → op = .get)
    (hclear : (Tape.ofBounds pageSize bounds).Clears (marked.map Prod.snd))
    (hclear' : (Tape.ofBounds pageSize bounds).Clears (kept marked)) :
    (Tape.ofBounds pageSize bounds).answers (kept marked)
      = kept ((marked.map Prod.fst).zip ((Tape.ofBounds pageSize bounds).answers (marked.map Prod.snd))) :=
  (Tape.Alike.refl (Tape.proper_ofBounds hdefault)).answers_kept hget hclear hclear'

/-- Readings here and there, some of which are to be left out. -/
def wandering : List (Bool × Tape.Operation) :=
  [(false, .get), (true, .move 3), (true, .get), (true, .move 5), (true, .set 9), (true, .move 300),
    (false, .get), (true, .move 4), (true, .get), (true, .move 6), (false, .get), (true, .get),
    (true, .move (.infinite false)), (true, .get)]

/-- Cells on pages that were made for readings, for a value and not at all read as the default. -/
theorem wandering_leaves_no_mark :
    (Tape.ofBounds 4 [9, 0, 99, 7]).answers (kept wandering)
        = kept ((wandering.map Prod.fst).zip
          ((Tape.ofBounds 4 [9, 0, 99, 7]).answers (wandering.map Prod.snd))) ∧
      ((Tape.ofBounds 4 [9, 0, 99, 7]).answers (kept wandering)).map Except.toOption
        = [some 3, some 7, some 5, some 9, some 300, some 4, some 7, some 6, some 7,
          some (.infinite false), none] := by
  have hnear : (Tape.ofBounds 4 [9, 0, 99, 7]).Near := Tape.near_ofBounds (by decide) _
  have hops : ∀ entry ∈ wandering, entry.2.Near := by decide +kernel
  refine ⟨readings_leave_no_mark (by decide +kernel) (by simp [wandering]) ?_ ?_, by decide +kernel⟩
  · refine hnear.clears fun op hop => ?_
    obtain ⟨entry, hentry, rfl⟩ := List.mem_map.mp hop
    exact hops entry hentry
  · refine hnear.clears fun op hop => ?_
    obtain ⟨entry, hentry, rfl⟩ := List.mem_map.mp hop
    exact hops entry (List.mem_filter.mp hentry).1

/-- A default of negative zero loses its sign in the other cells of a page that is made for a reading, and
a reading more than 2⁶³ cells above a page overwrites its first cell. -/
theorem not_transparent_always :
    ¬ (Tape.ofBounds 256 [.infinite false, .infinite true, .infinite false, .zeroOf true]).Transparent ∧
      ¬ (Tape.ofBounds 256 []).Transparent := by
  refine ⟨fun h => ?_, fun h => ?_⟩
  · have hsame := h [(false, .get), (true, .move 1), (true, .get)] (by simp)
    exact absurd (congrArg (List.map Except.toOption) hsame) (by decide +kernel)
  · have hsame := h [(true, .move (.ofInt (-9223372036854775808))), (true, .set 5),
      (true, .move 4611686018427387904), (false, .get),
      (true, .move (.ofInt (-9223372036854775808))), (true, .get)] (by simp)
    exact absurd (congrArg (List.map Except.toOption) hsame) (by decide +kernel)

end Linewise
