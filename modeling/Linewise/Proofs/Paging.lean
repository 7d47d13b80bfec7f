import Linewise.Proofs.Bisection
import Linewise.Proofs.Splicing

/-!
# Pages and the addresses they hold

Addresses are 64-bit words and what is computed from them wraps around; here they are read as integers.
Pages that lie in order, without overlap and inside the address space (`Layout`), hold every address at
most once, and `contents` is what they hold. In a memory whose pages lie so (`Cells.Laid`) bisection leads to
the one page that can hold an address (`spot_pageAt`), and `Cells.lookup` gives the contents
(`lookup_eq_contents`).
-/

namespace Linewise

/-! ## Address arithmetic without wrap-around -/

section

variable {a b : Int64}

theorem toInt_add_of_inside (hlow : -9223372036854775808 ≤ a.toInt + b.toInt)
    (hhigh : a.toInt + b.toInt < 9223372036854775808) : (a + b).toInt = a.toInt + b.toInt := by
  rw [Int64.toInt_add]
  exact Int.bmod_eq_of_le (by omega) (by omega)

theorem toInt_sub_of_inside (hlow : -9223372036854775808 ≤ a.toInt - b.toInt)
    (hhigh : a.toInt - b.toInt < 9223372036854775808) : (a - b).toInt = a.toInt - b.toInt := by
  rw [Int64.toInt_sub]
  exact Int.bmod_eq_of_le (by omega) (by omega)

/-- A difference that is too large for an address wraps around once. -/
theorem toInt_sub_of_outside (h : a.toInt - b.toInt < -9223372036854775808 ∨
      9223372036854775808 ≤ a.toInt - b.toInt) :
    (a - b).toInt = a.toInt - b.toInt + 18446744073709551616 ∨
      (a - b).toInt = a.toInt - b.toInt - 18446744073709551616 := by
  have := a.toInt_lt
  have := a.le_toInt
  have := b.toInt_lt
  have := b.le_toInt
  rw [Int64.toInt_sub, Int.bmod_def]
  omega

end

variable {α : Type}

/-! ## Pages -/

namespace Page

/-- The address after the last cell, computed as an address. -/
def stop (p : Page α) : Int64 := p.base + p.size

/-- The address after the last cell. It may be one past the last address there is. -/
def reach (p : Page α) : Int := p.base.toInt + p.cells.length

/-- The cell at an integer address. -/
def content? (p : Page α) (a : Int) : Option α :=
  if p.base.toInt ≤ a then p.cells[(a - p.base.toInt).toNat]? else none

/-- A page that has as many cells as its size says, at least one, not more than there are offsets, and
all of them at addresses. -/
structure Sound (p : Page α) : Prop where
  sized : p.size.toInt = p.cells.length
  occupied : 0 < p.cells.length
  short : p.cells.length < 9223372036854775808
  inside : p.reach ≤ 9223372036854775808

variable {p : Page α} {a : Int}

theorem content?_eq_none_of_lt (h : a < p.base.toInt) : p.content? a = none :=
  if_neg (Int.not_le.mpr h)

theorem content?_eq_none_of_le (h : p.reach ≤ a) : p.content? a = none := by
  unfold reach at h
  unfold content?
  split
  · exact List.getElem?_eq_none (by omega)
  · rfl

theorem content?_of_le (h : p.base.toInt ≤ a) :
    p.content? a = p.cells[(a - p.base.toInt).toNat]? := if_pos h

/-- The end of a page is computed without wrap-around unless it is the end of the address space. -/
theorem toInt_stop (hp : p.Sound) (h : p.reach < 9223372036854775808) : p.stop.toInt = p.reach := by
  have hlow := p.base.le_toInt
  have hsize := hp.sized
  unfold reach at h ⊢
  rw [stop, toInt_add_of_inside (by omega) (by omega), hsize]

/-- Reading at an offset that wraps around finds nothing, as the page has no cell there. -/
theorem cellFrom?_eq_content? (hp : p.Sound) (address : Int64) :
    Cells.cellFrom? p.base p.cells address = p.content? address.toInt := by
  have hshort := hp.short
  have hinside := hp.inside
  have hlow := address.le_toInt
  have hhigh := address.toInt_lt
  have hbase := p.base.le_toInt
  unfold reach at hinside
  unfold Cells.cellFrom?
  simp only [Int64.le_iff_toInt_le, Int64.toInt_zero, ← Int64.toNat_toInt]
  by_cases hwrap : -9223372036854775808 ≤ address.toInt - p.base.toInt ∧
      address.toInt - p.base.toInt < 9223372036854775808
  · rw [toInt_sub_of_inside hwrap.1 hwrap.2, content?]
    simp only [Int.sub_nonneg]
  · have hdistance := toInt_sub_of_outside (a := address) (b := p.base) (by omega)
    have hnone : p.content? address.toInt = none := by
      by_cases hle : p.base.toInt ≤ address.toInt
      · exact content?_eq_none_of_le (by unfold reach; omega)
      · exact content?_eq_none_of_lt (Int.not_le.mp hle)
    rw [hnone]
    split
    · exact List.getElem?_eq_none (by omega)
    · rfl

end Page

/-! ## Pages in order -/

/-- Pages in the order of their addresses, without overlap. -/
structure Layout (pages : List (Page α)) : Prop where
  apart : pages.Pairwise fun p q => p.reach ≤ q.base.toInt
  sound : ∀ p ∈ pages, p.Sound

/-- What pages hold at an integer address. -/
def contents (pages : List (Page α)) (a : Int) : Option α := pages.findSome? fun p => p.content? a

theorem contents_append (front rest : List (Page α)) (a : Int) :
    contents (front ++ rest) a = (contents front a).or (contents rest a) := List.findSome?_append

theorem contents_cons (p : Page α) (rest : List (Page α)) (a : Int) :
    contents (p :: rest) a = (p.content? a).or (contents rest a) := by
  rw [contents, List.findSome?_cons]
  cases p.content? a <;> rfl

theorem contents_eq_none {pages : List (Page α)} {a : Int} :
    contents pages a = none ↔ ∀ p ∈ pages, p.content? a = none := List.findSome?_eq_none_iff

theorem layout_nil : Layout ([] : List (Page α)) := ⟨.nil, nofun⟩

/-- A spot among pages for an address: the pages before it end at or below the address, and the pages
after the next one begin above it. So no page but the next one can hold the address. -/
structure Spot (pages front rest : List (Page α)) (i : Nat) (a : Int) : Prop where
  split : pages = front ++ rest
  index : front.length = i
  before : ∀ p ∈ front, p.reach ≤ a
  behind : ∀ p ∈ rest.tail, a < p.base.toInt

namespace Spot

variable {pages front rest : List (Page α)} {i : Nat} {a : Int}

theorem getElem? (h : Spot pages front rest i a) : pages[i]? = rest.head? := by
  rw [h.split, ← h.index, List.getElem?_append_right (Nat.le_refl _), Nat.sub_self,
    List.head?_eq_getElem?]

theorem contents_front (h : Spot pages front rest i a) : contents front a = none :=
  contents_eq_none.mpr fun p hp => Page.content?_eq_none_of_le (h.before p hp)

theorem contents_tail (h : Spot pages front rest i a) : contents rest.tail a = none :=
  contents_eq_none.mpr fun p hp => Page.content?_eq_none_of_lt (h.behind p hp)

theorem contents_eq (h : Spot pages front rest i a) :
    contents pages a = pages[i]?.bind fun p => p.content? a := by
  rw [h.getElem?, h.split, contents_append, h.contents_front, Option.none_or]
  cases rest with
  | nil => rfl
  | cons p back =>
      have hback : contents back a = none := h.contents_tail
      rw [contents_cons, hback, Option.or_none]
      rfl

end Spot

/-! ## Finding a page -/

namespace Cells

theorem base_lt_of_layout {pages : List (Page α)} (h : Layout pages) {i j : Nat} {p q : Page α}
    (hij : i < j) (hp : pages[i]? = some p) (hq : pages[j]? = some q) :
    p.reach ≤ q.base.toInt ∧ p.base < q.base := by
  obtain ⟨hi, rfl⟩ := List.getElem?_eq_some_iff.mp hp
  obtain ⟨hj, rfl⟩ := List.getElem?_eq_some_iff.mp hq
  have happart := List.pairwise_iff_getElem.mp h.apart i j hi hj hij
  have hoccupied := (h.sound _ (List.getElem_mem hi)).occupied
  refine ⟨happart, Int64.lt_iff_toInt_lt.mpr ?_⟩
  unfold Page.reach at happart
  omega

theorem increasing_of_layout {pages : List (Page α)} (h : Layout pages) :
    pages.Pairwise fun p q => p.base < q.base :=
  List.pairwise_iff_getElem.mpr fun _ _ hi hj hij =>
    (base_lt_of_layout h hij (List.getElem?_eq_getElem hi) (List.getElem?_eq_getElem hj)).2

/-- A memory whose lists go together, with its pages in order. -/
structure Laid (m : Cells α) : Prop where
  even : m.Even
  layout : Layout m.pages

theorem laid_empty (pageSize : Int64) (fill : α) (limit : Option Int64) : (empty pageSize fill limit).Laid :=
  ⟨even_empty pageSize fill limit, layout_nil⟩

/-- Neither the size of pages to come nor the limit matters. -/
theorem Laid.configure {m : Cells α} (h : m.Laid) (pageSize : Int64) (limit : Option Int64) :
    ({ m with pageSize, limit } : Cells α).Laid := ⟨⟨h.even.bases, h.even.sizes⟩, h.layout⟩

theorem Laid.increasing {m : Cells α} (h : m.Laid) : m.bases.Pairwise fun base next => base < next := by
  rw [← h.even.map_base]
  exact List.pairwise_map.mpr (increasing_of_layout h.layout)

/-- Bisection finds the spot of an address. -/
theorem spot_pageAt {m : Cells α} (h : m.Laid) (address : Int64) :
    Spot m.pages (m.pages.take (m.pageAt address)) (m.pages.drop (m.pageAt address))
      (m.pageAt address) address.toInt := by
  obtain ⟨hfound, habove⟩ := PageTable.brackets_pageAt h.increasing address
  simp only [← h.even.map_base, List.getElem?_map, Option.map_eq_some_iff] at hfound habove
  refine ⟨(List.take_append_drop _ _).symm, ?_, fun q hq => ?_, fun q hq => ?_⟩
  · have hle : m.pageAt address ≤ m.pages.length := by
      rcases hfound with hzero | ⟨_, ⟨p, hp, rfl⟩, -⟩
      · omega
      · exact Nat.le_of_lt (List.getElem?_eq_some_iff.mp hp).1
    rw [List.length_take, Nat.min_eq_left hle]
  · obtain ⟨j, hj, rfl⟩ := List.mem_take_iff_getElem.mp hq
    rcases hfound with hzero | ⟨_, ⟨p, hp, rfl⟩, hle⟩
    · omega
    · have hlength : j < m.pages.length := by omega
      have hreach := (base_lt_of_layout h.layout (by omega) (List.getElem?_eq_getElem hlength) hp).1
      have hbase := Int64.le_iff_toInt_le.mp hle
      omega
  · rw [List.tail_drop] at hq
    obtain ⟨j, hj, rfl⟩ := List.mem_drop_iff_getElem.mp hq
    refine Int64.lt_iff_toInt_lt.mp (habove (m.pageAt address + 1 + j) _ (by omega) ⟨_, ?_, rfl⟩)
    exact List.getElem?_eq_getElem _

/-- Looking up an address gives what the pages hold there. -/
theorem lookup_eq_contents {m : Cells α} (h : m.Laid) (address : Int64) :
    m.lookup address = contents m.pages address.toInt := by
  rw [(spot_pageAt h address).contents_eq, h.even.lookup_eq]
  cases hp : m.pages[m.pageAt address]? with
  | none => rfl
  | some p => exact Page.cellFrom?_eq_content? (h.layout.sound p (List.mem_of_getElem? hp)) address

theorem has_eq_isSome {m : Cells α} (h : m.Laid) (address : Int64) :
    m.has address = (contents m.pages address.toInt).isSome := by
  rw [has, lookup_eq_contents h]

/-- A load gives what the pages hold, else the fill value, unless the limit forbids it. -/
theorem load_eq_map {m : Cells α} (h : m.Laid) (address : Int64) :
    m.load address
      = (m.checkLimit address).map fun _ => (contents m.pages address.toInt).getD m.fill := by
  rw [load, lookup_eq_contents h]
  cases m.checkLimit address <;> rfl

/-- A load within the limit gives what the pages hold, else the fill value. -/
theorem load_eq_contents {m : Cells α} (h : m.Laid) {address : Int64}
    (hlimit : ∀ limit, m.limit = some limit → address ≤ limit) :
    m.load address = .ok ((contents m.pages address.toInt).getD m.fill) := by
  have hcheck : m.checkLimit address = .ok () := by
    unfold PageTable.checkLimit
    split
    · rename_i limit hm
      rw [if_neg (Int64.not_lt.mpr (hlimit limit hm))]
    · rfl
  rw [load_eq_map h, hcheck]
  rfl

end Cells

end Linewise
