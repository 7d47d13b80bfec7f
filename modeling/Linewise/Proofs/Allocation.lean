import Linewise.Proofs.Paging

/-!
# New pages

A page is made for an address that no page holds: the aligned page of the address, cut where another page
lies. As long as the aligned page is inside the address space (`Cells.HasRoom`), nothing that is computed
for it wraps around, and the new page holds the address and fits between its neighbours
(`Cells.newPage_base`, `Cells.newPage_reach`).
-/

namespace Linewise

variable {α : Type}

/-! ## The page that an address belongs to -/

/-- Of a page and those after it, none begins before the page. -/
theorem Layout.base_le {front back : List (Page α)} {p : Page α} (h : Layout (front ++ p :: back)) :
    ∀ q ∈ p :: back, p.base.toInt ≤ q.base.toInt := by
  have happart := h.apart
  rw [List.pairwise_append, List.pairwise_cons] at happart
  intro q hq
  rcases List.mem_cons.mp hq with rfl | hq
  · exact Int.le_refl _
  · have hreach := happart.2.1.1 q hq
    unfold Page.reach at hreach
    omega

namespace PageTable

variable (t : PageTable)

theorem effectivePageSize_pos : 0 < t.effectivePageSize.toInt := by
  unfold effectivePageSize
  split
  · decide
  · rename_i h
    exact Int64.lt_iff_toInt_lt.mp (Int64.not_le.mp h)

/-- The multiple of the page size at or below an integer address. -/
def alignedStart (a : Int) : Int := a - a % t.effectivePageSize.toInt

/-- The multiple of the page size above an integer address. -/
def alignedStop (a : Int) : Int := t.alignedStart a + t.effectivePageSize.toInt

theorem alignedStart_le (a : Int) : t.alignedStart a ≤ a := by
  have := Int.emod_nonneg a (Int.ne_of_gt t.effectivePageSize_pos)
  unfold alignedStart
  omega

theorem lt_alignedStop (a : Int) : a < t.alignedStop a := by
  have := Int.emod_lt_of_pos a t.effectivePageSize_pos
  unfold alignedStop alignedStart
  omega

/-- Division rounds toward zero, so below zero a page may start one page size lower. -/
theorem tdiv_mul_self (a : Int) {s : Int} (hs : 0 < s) :
    a.tdiv s * s = a - a % s + if 0 ≤ a ∨ s ∣ a then 0 else s := by
  have hdiv := Int.mul_ediv_add_emod a s
  rw [Int.tdiv_eq_ediv, Int.add_mul, Int.mul_comm (a / s) s]
  split
  · omega
  · rw [Int.sign_eq_one_of_pos hs]
    omega

theorem toInt_pageBase {address : Int64}
    (h : -9223372036854775808 ≤ t.alignedStart address.toInt) :
    (t.pageBase address).toInt = t.alignedStart address.toInt := by
  have hs := t.effectivePageSize_pos
  have hsize := t.effectivePageSize.toInt_lt
  have hlow := address.le_toInt
  have hhigh := address.toInt_lt
  have hmod := Int.emod_nonneg address.toInt (Int.ne_of_gt hs)
  have hmod' := Int.emod_lt_of_pos address.toInt hs
  have hmul := tdiv_mul_self address.toInt hs
  unfold alignedStart at h ⊢
  have hquotient : (address / t.effectivePageSize).toInt
      = address.toInt.tdiv t.effectivePageSize.toInt := by
    have habs := Int.natAbs_tdiv_le_natAbs address.toInt t.effectivePageSize.toInt
    have hsign : address.toInt < 0 → address.toInt.tdiv t.effectivePageSize.toInt ≤ 0 := by
      intro hneg
      have hdiv := Int.ediv_neg_of_neg_of_pos hneg hs
      rw [Int.tdiv_eq_ediv, Int.sign_eq_one_of_pos hs]
      split <;> omega
    rw [Int64.toInt_div]
    exact Int.bmod_eq_of_le (by omega) (by omega)
  have hproduct : (address / t.effectivePageSize * t.effectivePageSize).toInt
      = address.toInt.tdiv t.effectivePageSize.toInt * t.effectivePageSize.toInt := by
    rw [Int64.toInt_mul, hquotient]
    refine Int.bmod_eq_of_le ?_ ?_ <;>
    · rw [hmul]
      split <;> omega
  unfold pageBase
  simp only [Int64.lt_iff_toInt_lt, hproduct, hmul]
  by_cases hdown : 0 ≤ address.toInt ∨ t.effectivePageSize.toInt ∣ address.toInt
  · rw [if_pos hdown, if_neg (by omega), hproduct, hmul, if_pos hdown]
    omega
  · rw [if_neg hdown, if_pos (by omega), toInt_sub_of_inside, hproduct, hmul, if_neg hdown]
    · omega
    · rw [hproduct, hmul, if_neg hdown]
      omega
    · rw [hproduct, hmul, if_neg hdown]
      omega

end PageTable

namespace Cells

/-- There is room for the aligned page of an address: it lies inside the address space, and if it is the
last page there can be, no other page has been made above the address. -/
structure HasRoom (m : Cells α) (a : Int) : Prop where
  start : -9223372036854775808 ≤ m.alignedStart a
  stop : m.alignedStop a ≤ 9223372036854775808
  last : m.alignedStop a = 9223372036854775808 → ∀ p ∈ m.pages, p.base.toInt ≤ a

end Cells

/-! ## New pages -/

namespace Spot

variable {pages front rest : List (Page α)} {i : Nat} {a : Int}

/-- The page before a spot. -/
theorem previous (h : Spot pages front rest i a) :
    (if i = 0 then none else pages[i - 1]?) = front.getLast? := by
  rw [← h.index, h.split, List.getLast?_eq_getElem?]
  split
  · rename_i hzero
    rw [List.length_eq_zero_iff.mp hzero]
    rfl
  · rw [List.getElem?_append_left (by omega)]

/-- The pages before a spot end where the last of them ends, or before. -/
theorem reach_le_of_getLast? (h : Spot pages front rest i a) (hlayout : Layout pages) {l : Page α}
    (hl : front.getLast? = some l) : ∀ p ∈ front, p.reach ≤ l.reach := by
  obtain ⟨init, rfl⟩ := List.getLast?_eq_some_iff.mp hl
  have happart := hlayout.apart
  rw [h.split, List.append_assoc, List.pairwise_append] at happart
  intro p hp
  rcases List.mem_append.mp hp with hp | hp
  · have hbase := happart.2.2 p hp l (List.mem_append_left _ List.mem_cons_self)
    unfold Page.reach at hbase ⊢
    omega
  · exact Int.le_of_eq (by rw [List.mem_singleton.mp hp])

end Spot

namespace Cells

/-- The last address of a page may be the last there is, where its end wraps around; its size does not. -/
theorem toInt_alignedStop_sub {m : Cells α} {address base : Int64} (hroom : m.HasRoom address.toInt)
    (hlow : m.alignedStart address.toInt ≤ base.toInt) (hhigh : base.toInt ≤ address.toInt) :
    (m.pageBase address + m.effectivePageSize - base).toInt
      = m.alignedStop address.toInt - base.toInt := by
  have hsize := m.effectivePageSize.toInt_lt
  have hlt := m.lt_alignedStop address.toInt
  unfold PageTable.alignedStop at hlt ⊢
  rw [Int64.toInt_sub, Int64.toInt_add, m.toInt_pageBase hroom.start, Int.bmod_sub_bmod]
  exact Int.bmod_eq_of_le (by omega) (by omega)

section

variable [Scalar α] {m : Cells α} {front rest : List (Page α)} {i : Nat} {address : Int64}

/-- Where a new page begins: at the aligned start, or at the end of the page before. -/
theorem newPage_base (hlaid : m.Laid) (hspot : Spot m.pages front rest i address.toInt)
    (hroom : m.HasRoom address.toInt) :
    m.alignedStart address.toInt ≤ (m.newPage i address).base.toInt ∧
      (m.newPage i address).base.toInt ≤ address.toInt ∧
      ∀ p ∈ front, p.reach ≤ (m.newPage i address).base.toInt := by
  have hhigh := address.toInt_lt
  have hstart := m.toInt_pageBase hroom.start
  have hle := m.alignedStart_le address.toInt
  simp only [newPage, PageTable.newSlot, hlaid.even.stopBefore?_eq, hspot.previous]
  cases hlast : front.getLast? with
  | none =>
      rw [List.getLast?_eq_none_iff.mp hlast]
      dsimp only [Option.map_none]
      rw [hstart]
      exact ⟨by omega, by omega, nofun⟩
  | some l =>
      have hmem : l ∈ front := List.mem_of_getLast? hlast
      have hreach := hspot.before l hmem
      have hsound : l.Sound :=
        hlaid.layout.sound l (by rw [hspot.split]; exact List.mem_append_left _ hmem)
      have hstop : (l.base + l.size).toInt = l.reach := Page.toInt_stop hsound (by omega)
      have hfront := hspot.reach_le_of_getLast? hlaid.layout hlast
      simp only [Option.map_some, Int64.lt_iff_toInt_lt, hstart, hstop]
      split
      · rw [hstop]
        exact ⟨by omega, hreach, hfront⟩
      · rw [hstart]
        exact ⟨by omega, hle, fun p hp => by have := hfront p hp; omega⟩

omit [Scalar α] in
/-- A page above the address keeps the aligned end from being the end of the address space, which could
not be computed. -/
theorem HasRoom.toInt_stop (hroom : m.HasRoom address.toInt) {p : Page α} (hmem : p ∈ m.pages)
    (hp : address.toInt < p.base.toInt) :
    (m.pageBase address + m.effectivePageSize).toInt = m.alignedStop address.toInt := by
  have hinside : m.alignedStop address.toInt < 9223372036854775808 := by
    refine Int.lt_iff_le_and_ne.mpr ⟨hroom.stop, fun hlast => ?_⟩
    have hbelow := hroom.last hlast p hmem
    omega
  have hlow := hroom.start
  have hsize := m.effectivePageSize_pos
  unfold PageTable.alignedStop at hinside ⊢
  rw [toInt_add_of_inside, m.toInt_pageBase hroom.start] <;>
    rw [m.toInt_pageBase hroom.start] <;> omega

/-- Where a new page ends: at the aligned end, or at the start of the page after. -/
theorem newPage_reach (hlaid : m.Laid) (hspot : Spot m.pages front rest i address.toInt)
    (hroom : m.HasRoom address.toInt) (hnext : ∀ p ∈ rest.head?, address.toInt < p.base.toInt) :
    address.toInt < (m.newPage i address).reach ∧
      (m.newPage i address).reach ≤ m.alignedStop address.toInt ∧
      ∀ p ∈ rest, (m.newPage i address).reach ≤ p.base.toInt := by
  obtain ⟨hstart, hbase, -⟩ := newPage_base hlaid hspot hroom
  have hlt := m.lt_alignedStop address.toInt
  have haligned := toInt_alignedStop_sub hroom hstart hbase
  have hlength : (m.newPage i address).cells.length
      = (m.bases[i]?.elim (m.pageBase address + m.effectivePageSize) (fun after =>
          if after < m.pageBase address + m.effectivePageSize then after
          else m.pageBase address + m.effectivePageSize) - (m.newPage i address).base).toInt.toNat := by
    unfold newPage PageTable.newSlot
    cases m.bases[i]? <;> exact List.length_replicate
  unfold Page.reach
  rw [hlength, ← hlaid.even.map_base, List.getElem?_map, hspot.getElem?]
  generalize hb : (m.newPage i address).base = base at *
  cases rest with
  | nil =>
      rw [List.head?_nil, Option.map_none, Option.elim_none, haligned]
      exact ⟨by omega, by omega, nofun⟩
  | cons p back =>
      have hp : address.toInt < p.base.toInt := hnext p rfl
      have hmem : p ∈ m.pages := by
        rw [hspot.split]
        exact List.mem_append_right _ List.mem_cons_self
      have hstop := hroom.toInt_stop hmem hp
      have hback : ∀ q ∈ p :: back, p.base.toInt ≤ q.base.toInt :=
        (hspot.split ▸ hlaid.layout).base_le
      have hspan : m.alignedStop address.toInt - m.alignedStart address.toInt
          = m.effectivePageSize.toInt := by
        unfold PageTable.alignedStop
        omega
      have hsize := m.effectivePageSize.toInt_lt
      simp only [List.head?_cons, Option.map_some, Option.elim_some, Int64.lt_iff_toInt_lt, hstop]
      split
      · rw [toInt_sub_of_inside (by omega) (by omega)]
        refine ⟨by omega, by omega, fun q hq => ?_⟩
        have hq := hback q hq
        omega
      · rw [haligned]
        refine ⟨by omega, by omega, fun q hq => ?_⟩
        have hq := hback q hq
        omega

/-- A new page holds the blank value at all of its addresses. -/
theorem content?_newPage {b : Int} {x : α} (h : (m.newPage i address).content? b = some x) :
    x = m.blank := by
  unfold Page.content? at h
  split at h
  · exact List.eq_of_mem_replicate (List.mem_of_getElem? h)
  · cases h

theorem newPage_sound (hlaid : m.Laid) (hspot : Spot m.pages front rest i address.toInt)
    (hroom : m.HasRoom address.toInt) (hnext : ∀ p ∈ rest.head?, address.toInt < p.base.toInt) :
    (m.newPage i address).Sound := by
  obtain ⟨hstart, hbase, -⟩ := newPage_base hlaid hspot hroom
  obtain ⟨hlt, hstop, -⟩ := newPage_reach hlaid hspot hroom hnext
  have hsize := m.effectivePageSize.toInt_lt
  have hlast := hroom.stop
  have hlength : (m.newPage i address).cells.length = (m.newPage i address).size.toInt.toNat :=
    List.length_replicate
  unfold PageTable.alignedStop at hstop hlast
  unfold Page.reach at hlt hstop
  exact ⟨by omega, by omega, by omega, by unfold Page.reach; omega⟩

end

end Cells

end Linewise
