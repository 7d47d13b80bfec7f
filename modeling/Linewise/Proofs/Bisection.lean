import Mathlib.Order.Bounds.Defs
import Linewise.Memory.Cells

/-!
# Finding a page

Bisection for the last page that starts at or below an address. The middle of two indices is taken one
higher than half way, so it can be the number of pages; no base is read there, and every turn leaves fewer
indices (`bisects_search`). Where the bases of the pages increase, what is left always lies between a base
at or below the address and the bases above it (`Brackets`), and the last index left is the one sought
(`pageAt_isGreatest`).
-/

namespace Linewise.PageTable

/-! ## Turns -/

/-- A bisection that comes to its end: it does turns, none of which reads outside of the list, until no
index is left above `low`. -/
inductive Bisects (bases : List Int64) (address : Int64) : Nat → Nat → Nat → Prop
  | done {low high : Nat} (h : ¬ low < high) : Bisects bases address low high low
  | turn {low high low' high' i : Nat} (h : low < high)
      (hturn : searchTurn? bases address low high = some (low', high'))
      (hrest : Bisects bases address low' high' i) : Bisects bases address low high i

/-- What is known of the bases when the indices `low` to `high` are left: the base at `low` is at or below
the address, unless no turn has found such a base, and those behind `high` are above it. -/
structure Brackets (bases : List Int64) (address : Int64) (low high : Nat) : Prop where
  found : low = 0 ∨ ∃ base, bases[low]? = some base ∧ base ≤ address
  above : ∀ j base, high < j → bases[j]? = some base → address < base

variable {bases : List Int64} {address : Int64} {low high i : Nat}

/-- A turn finds a base at or below the address in the middle, or that there is none from there on. -/
theorem searchTurn?_cases (bases : List Int64) (address : Int64) (low high : Nat) :
    (∃ base, bases[(low + high) / 2 + 1]? = some base ∧ base ≤ address ∧
      searchTurn? bases address low high = some ((low + high) / 2 + 1, high)) ∨
    ((∀ base, bases[(low + high) / 2 + 1]? = some base → address < base) ∧
      searchTurn? bases address low high = some (low, (low + high) / 2)) := by
  unfold searchTurn?
  dsimp only
  by_cases hlt : (low + high) / 2 + 1 < bases.length
  · have hread := List.getElem?_eq_getElem hlt
    rw [if_pos hlt, hread, Option.map_some]
    by_cases hle : bases[(low + high) / 2 + 1] ≤ address
    · exact .inl ⟨_, rfl, hle, by rw [if_pos hle]⟩
    · refine .inr ⟨fun base hbase => ?_, by rw [if_neg hle, Nat.add_sub_cancel]⟩
      cases hbase
      exact Int64.not_le.mp hle
  · refine .inr ⟨fun base hbase => ?_, by rw [if_neg hlt, Nat.add_sub_cancel]⟩
    exact absurd (List.getElem?_eq_some_iff.mp hbase).1 hlt

/-- A bisection ends in any list, since every turn leaves fewer indices. -/
theorem bisects_search (fuel : Nat) : ∀ {low high : Nat}, high - low < fuel →
    Bisects bases address low high (search bases address fuel low high) := by
  induction fuel with
  | zero =>
      intro low high hfuel
      omega
  | succ fuel ih =>
      intro low high hfuel
      rw [search]
      split
      · rename_i hlt
        rcases searchTurn?_cases bases address low high with ⟨-, -, -, hturn⟩ | ⟨-, hturn⟩
        · rw [hturn]
          exact .turn hlt hturn (ih (by omega))
        · rw [hturn]
          exact .turn hlt hturn (ih (by omega))
      · rename_i hdone
        exact .done hdone

theorem bisects_pageAt (t : PageTable) (address : Int64) :
    Bisects t.bases address 0 t.bases.length (t.pageAt address) :=
  bisects_search _ (by omega)

/-! ## What is found -/

/-- Where a base is above the address, so are all that come after it. -/
theorem lt_base_of_le (hsorted : bases.Pairwise fun base next => base < next) {i j : Nat} (hij : i ≤ j)
    (hi : ∀ base, bases[i]? = some base → address < base) :
    ∀ base, bases[j]? = some base → address < base := by
  intro base hbase
  rcases Nat.eq_or_lt_of_le hij with rfl | hlt
  · exact hi base hbase
  · obtain ⟨hj, rfl⟩ := List.getElem?_eq_some_iff.mp hbase
    have hbelow := List.pairwise_iff_getElem.mp hsorted i j (by omega) hj hlt
    exact Int64.lt_trans (hi _ (List.getElem?_eq_getElem _)) hbelow

theorem Brackets.turn (hsorted : bases.Pairwise fun base next => base < next)
    (h : Brackets bases address low high) {low' high' : Nat}
    (hturn : searchTurn? bases address low high = some (low', high')) :
    Brackets bases address low' high' := by
  rcases searchTurn?_cases bases address low high with ⟨base, hbase, hle, heq⟩ | ⟨habove, heq⟩
  · cases hturn.symm.trans heq
    exact ⟨.inr ⟨base, hbase, hle⟩, h.above⟩
  · cases hturn.symm.trans heq
    exact ⟨h.found, fun j base hj hbase => lt_base_of_le hsorted hj habove base hbase⟩

theorem Bisects.brackets (hsorted : bases.Pairwise fun base next => base < next)
    (h : Bisects bases address low high i) (hbrackets : Brackets bases address low high) :
    Brackets bases address i i := by
  induction h with
  | done hdone => exact ⟨hbrackets.found, fun j base hj => hbrackets.above j base (by omega)⟩
  | turn _ hturn _ ih => exact ih (hbrackets.turn hsorted hturn)

/-- The base that is found is the last one at or below the address. -/
theorem brackets_pageAt {t : PageTable} (hsorted : t.bases.Pairwise fun base next => base < next)
    (address : Int64) : Brackets t.bases address (t.pageAt address) (t.pageAt address) := by
  refine (bisects_pageAt t address).brackets hsorted ⟨.inl rfl, fun j base hj hbase => ?_⟩
  rw [List.getElem?_eq_none (by omega)] at hbase
  cases hbase

/-- Where the bases of the pages increase, the search for an address comes to its end without a reading
outside of the list, at the greatest index whose base is at or below the address, or at index 0 if there is
no such index. -/
theorem pageAt_isGreatest {t : PageTable} (hsorted : t.bases.Pairwise fun base next => base < next)
    (address : Int64) :
    Bisects t.bases address 0 t.bases.length (t.pageAt address) ∧
      ((∃ base ∈ t.bases, base ≤ address) →
        IsGreatest {i | ∃ base, t.bases[i]? = some base ∧ base ≤ address} (t.pageAt address)) ∧
      ((∀ base ∈ t.bases, address < base) → t.pageAt address = 0) := by
  obtain ⟨hfound, habove⟩ := brackets_pageAt hsorted address
  -- an index with a base at or below the address is not behind the one that is found
  have hlast : ∀ i base, t.bases[i]? = some base → base ≤ address → i ≤ t.pageAt address := by
    intro i base hbase hle
    exact Nat.le_of_not_lt fun hlt => Int64.not_lt.mpr hle (habove i base hlt hbase)
  refine ⟨bisects_pageAt t address, ?_, fun hnone => ?_⟩
  · rintro ⟨base, hmem, hle⟩
    obtain ⟨i, hi⟩ := List.getElem?_of_mem hmem
    refine ⟨?_, fun j ⟨base, hbase, hle⟩ => hlast j base hbase hle⟩
    rcases hfound with hzero | hfound
    · have hfirst : i ≤ 0 := hzero ▸ hlast i base hi hle
      obtain rfl : i = 0 := Nat.le_zero.mp hfirst
      exact ⟨base, by rw [hzero, hi], hle⟩
    · exact hfound
  · rcases hfound with hzero | ⟨base, hbase, hle⟩
    · exact hzero
    · exact absurd (hnone base (List.mem_of_getElem? hbase)) (Int64.not_lt.mpr hle)

/-- Pages at both ends of the address space, and pages of different sizes between. -/
def spread : PageTable where
  pageSize := 4
  limit := none
  bases := [-9223372036854775808, -4, 0, 9223372036854775807]
  sizes := [2, 4, 3, 1]

/-- Between two pages, and in the table with the first page taken away, below all of them. -/
theorem spread_pageAt :
    (Bisects spread.bases 4611686018427387904 0 4 2 ∧
      IsGreatest {i : Nat | ∃ base, spread.bases[i]? = some base ∧ base ≤ 4611686018427387904} 2) ∧
    { spread with bases := spread.bases.tail, sizes := spread.sizes.tail }.pageAt (-5) = 0 := by
  have hsorted : spread.bases.Pairwise fun base next => base < next := by decide
  have htail : spread.bases.tail.Pairwise fun base next => base < next := by decide
  have habove : ∀ base ∈ spread.bases.tail, -5 < base := by
    refine List.forall_mem_cons.mpr ⟨by decide, List.forall_mem_cons.mpr ⟨by decide, ?_⟩⟩
    exact List.forall_mem_singleton.mpr (by decide)
  have hpage : spread.pageAt 4611686018427387904 = 2 := by decide
  obtain ⟨hbisects, hgreatest, -⟩ := pageAt_isGreatest hsorted 4611686018427387904
  obtain ⟨-, -, hnone⟩ := @pageAt_isGreatest
    { spread with bases := spread.bases.tail, sizes := spread.sizes.tail } htail (-5)
  rw [hpage] at hbisects hgreatest
  exact ⟨⟨hbisects, hgreatest ⟨0, by decide, by decide⟩⟩, hnone habove⟩

end Linewise.PageTable
