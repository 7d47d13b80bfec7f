import Linewise.Proofs.Storing

/-!
# Memory as a map

A memory is used by storing values at addresses and loading from them, while the size of its pages may
change. What a load gives is said without pages: it is the value that was stored last at its address
(`lastStored`), and the fill value if there is none. `Reflects` relates a memory to the accesses that led
to it, and every access that is clear keeps it. With addresses and page sizes up to 2⁶¹ all accesses are
clear (`load_after_eq_lastStored`); at the ends of the address space a store that is clear still touches
one cell only (`store_touches_one`), but not every store is (`not_store_touches_one`).
-/

namespace Linewise

variable {α : Type}

/-! ## Histories -/

/-- What is done to a memory. -/
inductive Access (α : Type) where
  | store (address : Int64) (values : List α)
  /-- The size of pages to come is changed. -/
  | resize (pageSize : Int64)
  | load (address : Int64)

namespace Access

def isLoad : Access α → Bool
  | .load _ => true
  | _ => false

/-- The value that an access stores at an address, if it does. -/
def stored? : Access α → Int64 → Option α
  | .store start values, address =>
    if start ≤ address then values[(address.toInt - start.toInt).toNat]? else none
  | .resize _, _ => none
  | .load _, _ => none

section

variable {start address : Int64} {values : List α}

theorem stored?_store : (store start values).stored? address
    = if start ≤ address then values[(address.toInt - start.toInt).toNat]? else none := rfl

/-- A store reaches an address that is as far from its start as one of its values. -/
theorem of_stored?_eq_some {x : α} (h : (store start values).stored? address = some x) :
    ∃ k, k < values.length ∧ address.toInt = start.toInt + k ∧ values[k]? = some x := by
  rw [stored?_store] at h
  split at h
  · rename_i hle
    have hle := Int64.le_iff_toInt_le.mp hle
    obtain ⟨hk, -⟩ := List.getElem?_eq_some_iff.mp h
    exact ⟨_, hk, by omega, h⟩
  · cases h

theorem of_stored?_eq_none (h : (store start values).stored? address = none) :
    address.toInt < start.toInt ∨ start.toInt + values.length ≤ address.toInt := by
  rw [stored?_store] at h
  split at h
  · have := List.getElem?_eq_none_iff.mp h
    omega
  · rename_i hle
    rw [Int64.le_iff_toInt_le] at hle
    omega

end

/-- Addresses, ends and page sizes do not exceed a bound. -/
def Within (bound : Nat) : Access α → Prop
  | .store address values =>
    address.toInt.natAbs ≤ bound ∧ (address.toInt + values.length).natAbs ≤ bound
  | .resize pageSize => pageSize.toInt.natAbs ≤ bound
  | .load _ => True

instance (bound : Nat) : ∀ access : Access α, Decidable (access.Within bound)
  | .store _ _ => inferInstanceAs (Decidable (_ ∧ _))
  | .resize _ => inferInstanceAs (Decidable (_ ≤ _))
  | .load _ => inferInstanceAs (Decidable True)

end Access

/-- The value that was stored last at an address, if any was. -/
def lastStored (history : List (Access α)) (address : Int64) : Option α :=
  history.reverse.findSome? fun access => access.stored? address

theorem lastStored_append_singleton (history : List (Access α)) (access : Access α) (address : Int64) :
    lastStored (history ++ [access]) address
      = (access.stored? address).or (lastStored history address) := by
  rw [lastStored, List.reverse_append, List.reverse_singleton, List.singleton_append,
    List.findSome?_cons]
  cases access.stored? address <;> rfl

namespace Cells

variable [Scalar α]

/-- The memory after an access. A load leaves it alone. -/
def access (m : Cells α) : Access α → Cells α
  | .store address values => m.store address values
  | .resize pageSize => { m with pageSize }
  | .load _ => m

/-- The memory after accesses. -/
def after (m : Cells α) (history : List (Access α)) : Cells α := history.foldl access m

/-- An access in which no computed address wraps around. -/
def Permits (m : Cells α) : Access α → Prop
  | .store address values => m.Clear address values.length
  | _ => True

/-- Accesses each of which is clear when it is made. -/
def PermitsAll (m : Cells α) : List (Access α) → Prop
  | [] => True
  | access :: rest => m.Permits access ∧ (m.access access).PermitsAll rest

/-- Loads leave no mark. -/
theorem after_filter_isLoad (m : Cells α) (history : List (Access α)) :
    m.after (history.filter fun access => !access.isLoad) = m.after history := by
  induction history generalizing m with
  | nil => rfl
  | cons access rest ih =>
      cases access with
      | load address => exact ih m
      | store address values => exact ih _
      | resize pageSize => exact ih _

end Cells

/-! ## A memory and its history -/

/-- A memory holds what was stored last in a history, and blank cells. -/
structure Reflects [Scalar α] (m : Cells α) (fill : α) (limit : Option Int64)
    (history : List (Access α)) : Prop where
  laid : m.Laid
  fill_eq : m.fill = fill
  limit_eq : m.limit = limit
  stored : ∀ address x, lastStored history address = some x → contents m.pages address.toInt = some x
  unstored : ∀ address, lastStored history address = none →
    contents m.pages address.toInt = none ∨ contents m.pages address.toInt = some m.blank

namespace Reflects

variable [Scalar α] {m : Cells α} {fill : α} {limit : Option Int64} {history : List (Access α)}

theorem empty (pageSize : Int64) (fill : α) (limit : Option Int64) :
    Reflects (.empty pageSize fill limit) fill limit [] :=
  ⟨Cells.laid_empty pageSize fill limit, rfl, rfl, nofun, fun _ _ => .inl rfl⟩

/-- A store puts its values where later loads look for them. -/
theorem store (h : Reflects m fill limit history) {start : Int64} {values : List α}
    (hclear : m.Clear start values.length) :
    Reflects (m.store start values) fill limit (history ++ [.store start values]) := by
  have hstored := Cells.store_stored h.laid hclear
  refine ⟨hstored.laid, hstored.fill_eq.trans h.fill_eq, hstored.limit_eq.trans h.limit_eq,
    fun address x hx => ?_, fun address hnone => ?_⟩
  · rw [lastStored_append_singleton] at hx
    cases hlast : (Access.store start values).stored? address with
    | some y =>
        rw [hlast, Option.some_or] at hx
        obtain ⟨k, hk, haddress, hvalue⟩ := Access.of_stored?_eq_some (hlast.trans hx)
        rw [haddress, hstored.written k hk, hvalue]
    | none =>
        rw [hlast, Option.none_or] at hx
        -- an earlier store put a cell there, so it cannot be one of a new page
        have hbefore := h.stored address x hx
        rcases hstored.kept _ (Access.of_stored?_eq_none hlast) with hsame | ⟨hempty, -⟩
        · rw [hsame, hbefore]
        · rw [hbefore] at hempty
          cases hempty
  · rw [lastStored_append_singleton, Option.or_eq_none_iff] at hnone
    rw [hstored.blank_eq]
    rcases hstored.kept _ (Access.of_stored?_eq_none hnone.1) with hsame | ⟨-, hblank⟩
    · rw [hsame]
      exact h.unstored address hnone.2
    · exact .inr hblank

/-- Every access that is clear keeps a memory in line with its history. -/
theorem access (h : Reflects m fill limit history) {access : Access α} (hclear : m.Permits access) :
    Reflects (m.access access) fill limit (history ++ [access]) := by
  cases access with
  | store start values => exact h.store hclear
  | resize pageSize | load address =>
      refine ⟨h.laid.configure _ _, h.fill_eq, h.limit_eq, fun address x hx => ?_, fun address hnone => ?_⟩
      · rw [lastStored_append_singleton] at hx
        exact h.stored address x hx
      · rw [lastStored_append_singleton] at hnone
        exact h.unstored address hnone

theorem after (h : Reflects m fill limit history) (later : List (Access α))
    (hclear : m.PermitsAll later) : Reflects (m.after later) fill limit (history ++ later) := by
  induction later generalizing m history with
  | nil => rwa [List.append_nil]
  | cons access later ih =>
      have hrest := ih (h.access hclear.1) hclear.2
      rwa [List.append_assoc] at hrest

/-- A load gives what was stored last, or the fill value. -/
theorem load (h : Reflects m fill limit history) (hblank : m.blank = m.fill) {address : Int64}
    (hlimit : ∀ l, limit = some l → address ≤ l) :
    m.load address = .ok ((lastStored history address).getD fill) := by
  rw [Cells.load_eq_contents h.laid (by rw [h.limit_eq]; exact hlimit)]
  cases hlast : lastStored history address with
  | some x => rw [h.stored address x hlast, Option.getD_some, Option.getD_some]
  | none =>
      rcases h.unstored address hlast with hempty | hfilled
      · rw [hempty, h.fill_eq, Option.getD_none]
      · rw [hfilled, hblank, h.fill_eq, Option.getD_some, Option.getD_none]

theorem has (h : Reflects m fill limit history) {address : Int64}
    (hstored : (lastStored history address).isSome) : m.has address := by
  obtain ⟨x, hx⟩ := Option.isSome_iff_exists.mp hstored
  rw [Cells.has_eq_isSome h.laid, h.stored address x hx]
  rfl

end Reflects

/-! ## Blank cells -/

/-- Only a zero has two forms, so other fill values are what new pages are filled with. -/
theorem Number.eq_zeroOf_of_isZero {x : Number} (h : x.isZero) : ∃ negative, x = .zeroOf negative := by
  cases x with
  | nan => cases h
  | infinite negative => cases h
  | finite x =>
      obtain ⟨negative, mantissa, scale, hlt, hle, hnormal⟩ := x
      have hzero : mantissa = 0 := of_decide_eq_true h
      subst hzero
      have hscale : scale = 0 := by omega
      subst hscale
      exact ⟨negative, rfl⟩

theorem Number.zero_eq_zeroOf : (0 : Number) = .zeroOf false := by
  show Number.ofNat 0 = _
  rw [Number.ofNat, Nat.zero_mul]
  decide

theorem Cells.blank_eq_fill {m : Cells Number} (h : m.fill ≠ .zeroOf true) : m.blank = m.fill := by
  unfold Cells.blank
  split
  · rename_i hzero
    obtain ⟨negative, hfill⟩ := Number.eq_zeroOf_of_isZero hzero
    cases negative with
    | true => exact absurd hfill h
    | false =>
        rw [hfill]
        exact Number.zero_eq_zeroOf
  · rfl

/-! ## Far from the ends of the address space -/

/-- A memory whose pages and page size are far from the ends of the address space. -/
structure Modest (m : Cells α) : Prop where
  laid : m.Laid
  bases : ∀ p ∈ m.pages, -4611686018427387904 ≤ p.base.toInt
  pageSize : m.pageSize.toInt.natAbs ≤ 2305843009213693952

namespace Modest

variable {m : Cells α}

theorem empty {pageSize : Int64} (h : pageSize.toInt.natAbs ≤ 2305843009213693952) (fill : α)
    (limit : Option Int64) : Modest (.empty pageSize fill limit) :=
  ⟨Cells.laid_empty pageSize fill limit, nofun, h⟩

theorem effectivePageSize_le (h : Modest m) : m.effectivePageSize.toInt ≤ 2305843009213693952 := by
  have hsize := h.pageSize
  unfold PageTable.effectivePageSize
  split
  · decide
  · omega

theorem le_alignedStart (h : Modest m) {x : Int} (hx : -2305843009213693952 ≤ x) :
    -4611686018427387904 ≤ m.alignedStart x := by
  have hsize := h.effectivePageSize_le
  have hmod := Int.emod_lt_of_pos x m.effectivePageSize_pos
  unfold PageTable.alignedStart
  omega

/-- Nothing wraps around in a store of this size. -/
theorem clear (h : Modest m) {address : Int64} {count : Nat}
    (haddress : address.toInt.natAbs ≤ 2305843009213693952)
    (hstop : (address.toInt + count).natAbs ≤ 2305843009213693952) : m.Clear address count where
  stop := by omega
  near := by
    intro p hp
    have hbase := h.bases p (List.mem_of_getElem? hp)
    omega
  room := by
    intro x hlow hhigh _
    have hsize := h.effectivePageSize_le
    have hstart := h.le_alignedStart (x := x) (by omega)
    have hle := m.alignedStart_le x
    have halignedStop : m.alignedStop x < 9223372036854775808 := by
      unfold PageTable.alignedStop
      omega
    exact ⟨by omega, by omega, fun hlast => by omega⟩

variable [Scalar α]

/-- Accesses of this size are clear, and leave a memory of which the same can be said. -/
theorem access (h : Modest m) {access : Access α} (hwithin : access.Within 2305843009213693952) :
    m.Permits access ∧ Modest (m.access access) := by
  cases access with
  | load address => exact ⟨trivial, h⟩
  | resize pageSize => exact ⟨trivial, h.laid.configure pageSize m.limit, h.bases, hwithin⟩
  | store address values =>
      obtain ⟨haddress, hstop⟩ := hwithin
      have hclear := h.clear haddress hstop
      have hstored := Cells.store_stored h.laid hclear
      refine ⟨hclear, hstored.laid, fun p hp => ?_, ?_⟩
      · rcases hstored.bases p hp with ⟨q, hq, hbase⟩ | ⟨x, hlow, -, hstart, -⟩
        · rw [hbase]
          exact h.bases q hq
        · have := h.le_alignedStart (x := x) (by omega)
          omega
      · show (m.store address values).pageSize.toInt.natAbs ≤ _
        rw [hstored.frame]
        exact h.pageSize

theorem after (h : Modest m) {history : List (Access α)}
    (hwithin : ∀ access ∈ history, access.Within 2305843009213693952) : Modest (m.after history) := by
  induction history generalizing m with
  | nil => exact h
  | cons access later ih =>
      obtain ⟨-, hmodest⟩ := h.access (hwithin access List.mem_cons_self)
      exact ih hmodest fun other hother => hwithin other (List.mem_cons_of_mem _ hother)

theorem permitsAll (h : Modest m) {history : List (Access α)}
    (hwithin : ∀ access ∈ history, access.Within 2305843009213693952) : m.PermitsAll history := by
  induction history generalizing m with
  | nil => trivial
  | cons access later ih =>
      obtain ⟨hpermits, hmodest⟩ := h.access (hwithin access List.mem_cons_self)
      exact ⟨hpermits, ih hmodest fun other hother => hwithin other (List.mem_cons_of_mem _ hother)⟩

end Modest

/-- With addresses, ends and page sizes up to 2⁶¹, a memory is a map: after any accesses a load gives the
value that was stored last at its address, or the fill value, every address that was stored to is held by
a page, and loads leave no mark. -/
theorem load_after_eq_lastStored {pageSize : Int64} {fill : Number} {limit : Option Int64}
    {history : List (Access Number)} (hfill : fill ≠ .zeroOf true)
    (hsize : pageSize.toInt.natAbs ≤ 2305843009213693952)
    (hwithin : ∀ access ∈ history, access.Within 2305843009213693952) :
    (∀ address, (∀ l, limit = some l → address ≤ l) →
        ((Cells.empty pageSize fill limit).after history).load address
          = .ok ((lastStored history address).getD fill)) ∧
      (∀ address, (lastStored history address).isSome →
        ((Cells.empty pageSize fill limit).after history).has address) ∧
      (Cells.empty pageSize fill limit).after (history.filter fun access => !access.isLoad)
        = (Cells.empty pageSize fill limit).after history := by
  have hclear := (Modest.empty hsize fill limit).permitsAll hwithin
  have hreflects := (Reflects.empty pageSize fill limit).after history hclear
  rw [List.nil_append] at hreflects
  have hblank := Cells.blank_eq_fill (by rw [hreflects.fill_eq]; exact hfill)
  exact ⟨fun address hlimit => hreflects.load hblank hlimit, fun address => hreflects.has,
    Cells.after_filter_isLoad _ history⟩

/-- Two stores across pages of different sizes, the second over the end of the first. -/
def overlappingStores : List (Access Number) :=
  [.store (-3) [1, 2, 3, 4, 5, 6], .resize (-1), .load 300, .store 2 [7, 8]]

theorem overlappingStores_load :
    let m := (Cells.empty 4 9 (some 300)).after overlappingStores
    m.load (-2) = .ok 2 ∧ m.load 2 = .ok 7 ∧ m.load 3 = .ok 8 ∧ m.load 300 = .ok 9 ∧ m.has 3 := by
  have hfill : (9 : Number) ≠ .zeroOf true := by decide +kernel
  have hsize : (4 : Int64).toInt.natAbs ≤ 2305843009213693952 := by decide
  have hwithin : ∀ access ∈ overlappingStores, access.Within 2305843009213693952 := by decide
  have hlimit : ∀ address : Int64, address ≤ 300 → ∀ l, some (300 : Int64) = some l → address ≤ l := by
    rintro address haddress _ ⟨⟩
    exact haddress
  obtain ⟨hload, hhas, -⟩ := load_after_eq_lastStored hfill hsize hwithin
  exact ⟨hload (-2) (hlimit _ (by decide)), hload 2 (hlimit _ (by decide)),
    hload 3 (hlimit _ (by decide)), hload 300 (hlimit _ (by decide)), hhas 3 rfl⟩

/-! ## At the ends of the address space -/

/-- A store at one address, clear like all the stores before it, is not dropped and not misplaced: the
value can be loaded, a page holds it, and every other load gives what it gave before, except that a
negative zero as the fill value loses its sign in the cells of a new page. -/
theorem store_touches_one {pageSize : Int64} {fill : Number} {history : List (Access Number)}
    {address : Int64} (hhistory : (Cells.empty pageSize fill none).PermitsAll history)
    (hclear : ((Cells.empty pageSize fill none).after history).Clear address 1) (value : Number) :
    let m := (Cells.empty pageSize fill none).after history
    (m.store address [value]).load address = .ok value ∧ (m.store address [value]).has address ∧
      ∀ other, other ≠ address → (m.store address [value]).load other = m.load other ∨
        fill = .zeroOf true ∧ m.has other = false ∧
          (m.store address [value]).load other = .ok (.zeroOf false) := by
  intro m
  have hbefore : Reflects m fill none history := by
    simpa using (Reflects.empty pageSize fill none).after history hhistory
  have hstored : Stored m (m.store address [value]) address.toInt [value] :=
    Cells.store_stored hbefore.laid hclear
  have hlimit : m.limit = none := hbefore.limit_eq
  have hloads : ∀ b, (m.store address [value]).load b
      = .ok ((contents (m.store address [value]).pages b.toInt).getD m.fill) := by
    intro b
    rw [← hstored.fill_eq]
    exact Cells.load_eq_contents hstored.laid (by simp [hstored.limit_eq, hlimit])
  have hwritten : contents (m.store address [value]).pages address.toInt = some value := by
    simpa using hstored.written 0 Nat.zero_lt_one
  refine ⟨by rw [hloads, hwritten, Option.getD_some], ?_, fun other hother => ?_⟩
  · rw [Cells.has_eq_isSome hstored.laid, hwritten]
    rfl
  have hoff : other.toInt < address.toInt ∨ address.toInt + [value].length ≤ other.toInt := by
    have hne : other.toInt ≠ address.toInt := fun h => hother (Int64.toInt_inj.mp h)
    rw [List.length_singleton]
    omega
  rw [hloads, Cells.load_eq_contents hbefore.laid (by simp [hlimit])]
  rcases hstored.kept _ hoff with hsame | ⟨hempty, hblank⟩
  · exact .inl (by rw [hsame])
  by_cases hfill : m.fill = .zeroOf true
  · have hzero : m.blank = .zeroOf false := by
      rw [Cells.blank, hfill]
      exact Number.zero_eq_zeroOf
    rw [hblank, hzero, Option.getD_some, Cells.has_eq_isSome hbefore.laid, hempty]
    exact .inr ⟨hbefore.fill_eq ▸ hfill, rfl, rfl⟩
  · rw [hempty, hblank, Cells.blank_eq_fill hfill]
    exact .inl rfl

/-- A store at the first address. -/
def farthestStore : List (Access Number) := [.store (-9223372036854775808) [3]]

/-- The store at -1 is 2⁶³ - 1 cells above the page at the first address, just near enough. -/
theorem farthestStore_touches_one :
    let m := (Cells.empty 4 0 none).after farthestStore
    (m.store (-1) [5]).load (-1) = .ok 5 ∧ (m.store (-1) [5]).has (-1) ∧
      ∀ other, other ≠ -1 → (m.store (-1) [5]).load other = m.load other := by
  have hhistory : (Cells.empty 4 (0 : Number) none).PermitsAll farthestStore := by
    refine ⟨⟨by decide, nofun, fun x hlow hhigh _ => ?_⟩, trivial⟩
    obtain rfl : x = -9223372036854775808 := Int.le_antisymm (Int.lt_add_one_iff.mp hhigh) hlow
    exact ⟨by decide, by decide, nofun⟩
  have hclear : ((Cells.empty 4 (0 : Number) none).after farthestStore).Clear (-1) 1 := by
    refine ⟨by decide, fun p _ => ?_, fun x hlow hhigh _ => ?_⟩
    · have hbase := p.base.le_toInt
      show -1 - p.base.toInt < _
      omega
    · obtain rfl : x = -1 := Int.le_antisymm (Int.lt_add_one_iff.mp hhigh) hlow
      exact ⟨by decide, by decide, fun hlast => absurd hlast (by decide)⟩
  obtain ⟨hload, hhas, hothers⟩ := store_touches_one hhistory hclear 5
  refine ⟨hload, hhas, fun other hother => (hothers other hother).resolve_right fun h => ?_⟩
  exact absurd h.1 (by rw [Number.zero_eq_zeroOf]; decide)

/-- Not every store is clear: one at the last address ends where the address space wraps around, and is
dropped. -/
theorem not_store_touches_one :
    ¬ ∀ (pageSize : Int64) (fill : Number) (history : List (Access Number)) (address : Int64)
        (value : Number), 0 < pageSize →
      let m := (Cells.empty pageSize fill none).after history
      (m.store address [value]).load address = .ok value ∧ (m.store address [value]).has address ∧
        ∀ other, other ≠ address → (m.store address [value]).load other = m.load other := by
  intro h
  obtain ⟨hload, -⟩ := h 256 0 [] 9223372036854775807 1 (by decide)
  have hdropped : (((Cells.empty 256 (0 : Number) none).after []).store 9223372036854775807 [1]).load
      9223372036854775807 = .ok 0 := rfl
  rw [hdropped] at hload
  exact absurd (Except.ok.inj hload) (by decide +kernel)

end Linewise
