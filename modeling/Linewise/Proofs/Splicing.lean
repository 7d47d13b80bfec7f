import Mathlib.Data.List.InsertIdx
import Linewise.Memory.Cells

/-!
# Three lists, one page

The bases and the sizes of pages are inserted by the table, and their cells by the memory, each into a list
of its own; only the index is the same. So the three lists stay equally long whatever is stored, where
addresses wrap around too (`Cells.Even.store`). Where they are, the memory is that of its `Cells.pages`, each
with what the lists have at its index (`Cells.Even.withPages_pages`), and making a page or writing into one is
inserting or replacing a page there (`Cells.ensurePage_of_lt`, `Cells.storeTurn_write`).
-/

namespace Linewise

/-! ## The table -/

namespace PageTable

variable {t : PageTable} {i : Nat} {address : Int64}

/-- A table has the page that is asked for, or inserts a base and a size at the index. -/
theorem ensure_cases (t : PageTable) (i : Nat) (address : Int64) :
    (∃ base size, t.bases[i]? = some base ∧ t.sizes[i]? = some size ∧ base ≤ address ∧
      t.ensure i address = (⟨base, size, false⟩, t)) ∨
    (∀ base size, t.bases[i]? = some base → t.sizes[i]? = some size → address < base) ∧
      t.ensure i address = t.allocate i address := by
  unfold ensure
  split
  · rename_i base size hbase hsize
    by_cases hle : base ≤ address
    · exact .inl ⟨base, size, hbase, hsize, hle, if_pos hle⟩
    · refine .inr ⟨fun base' size' hbase' _ => ?_, if_neg hle⟩
      obtain rfl : base = base' := Option.some.inj (hbase.symm.trans hbase')
      exact Int64.not_le.mp hle
  · rename_i hmissing
    exact .inr ⟨fun base size hbase hsize => (hmissing base size hbase hsize).elim, rfl⟩

end PageTable

namespace Cells

variable {α : Type}

/-! ## Lists of one length -/

/-- As many bases and as many sizes as there are blocks of cells. -/
structure Even (m : Cells α) : Prop where
  bases : m.bases.length = m.blocks.length
  sizes : m.sizes.length = m.blocks.length

theorem even_empty (pageSize : Int64) (fill : α) (limit : Option Int64) :
    (empty pageSize fill limit).Even := ⟨rfl, rfl⟩

section

variable [Scalar α] {m : Cells α} {i : Nat} {address : Int64} {values : List α} {p : Page α}

/-- The page that is made for an address, to stand at index `i`. -/
def newPage (m : Cells α) (i : Nat) (address : Int64) : Page α :=
  let slot := m.newSlot i address
  ⟨slot.base, slot.size, List.replicate slot.size.toNatClampNeg m.blank⟩

omit [Scalar α] in
/-- What belongs to a page, inserted into the three lists. -/
def insertPage (m : Cells α) (i : Nat) (p : Page α) : Cells α :=
  { m with
    bases := m.bases.insertIdx i p.base
    sizes := m.sizes.insertIdx i p.size
    blocks := m.blocks.insertIdx i p.cells }

/-- A memory has the page that is asked for, or inserts a new one at the index. -/
theorem ensurePage_cases (m : Cells α) (i : Nat) (address : Int64) :
    (∃ base size, m.bases[i]? = some base ∧ m.sizes[i]? = some size ∧ base ≤ address ∧
      m.ensurePage i address = (⟨base, size, m.blocks[i]?.getD []⟩, m)) ∨
    (∀ base size, m.bases[i]? = some base → m.sizes[i]? = some size → address < base) ∧
      m.ensurePage i address = (m.newPage i address, m.insertPage i (m.newPage i address)) := by
  rcases m.ensure_cases i address with ⟨base, size, hbase, hsize, hle, hensure⟩ | ⟨habove, hensure⟩
  · refine .inl ⟨base, size, hbase, hsize, hle, ?_⟩
    rw [ensurePage, hensure]
    rfl
  · refine .inr ⟨habove, ?_⟩
    rw [ensurePage, hensure]
    rfl

namespace Even

omit [Scalar α] in
theorem insertPage (h : m.Even) (i : Nat) (p : Page α) : (m.insertPage i p).Even where
  bases := by simp only [Cells.insertPage, List.length_insertIdx, h.bases]
  sizes := by simp only [Cells.insertPage, List.length_insertIdx, h.sizes]

theorem ensurePage (h : m.Even) (i : Nat) (address : Int64) : (m.ensurePage i address).2.Even := by
  rcases m.ensurePage_cases i address with ⟨base, size, -, -, -, hensure⟩ | ⟨-, hensure⟩
  · rwa [hensure]
  · rw [hensure]
    exact h.insertPage i _

theorem storeTurn (h : m.Even) (i : Nat) (address : Int64) (values : List α) :
    (m.storeTurn i address values).1.Even := by
  have hensured := h.ensurePage i address
  simp only [Cells.storeTurn]
  split
  · exact hensured
  · constructor <;> rw [List.length_set]
    · exact hensured.bases
    · exact hensured.sizes

theorem storeFrom (stop : Int64) (fuel : Nat) (h : m.Even) (i : Nat) (address : Int64) (values : List α) :
    (Cells.storeFrom stop fuel m i address values).Even := by
  induction fuel generalizing m i address values with
  | zero => exact h
  | succ fuel ih =>
      rw [Cells.storeFrom]
      split
      · exact ih (h.storeTurn i address values) _ _ _
      · exact h

/-- Whatever is stored, a base, a size and a block of cells are inserted together. -/
theorem store (h : m.Even) (address : Int64) (values : List α) : (m.store address values).Even :=
  h.storeFrom _ _ _ address values

end Even

end

/-! ## One list of pages -/

/-- The pages, each with what the three lists have at its index. -/
def pages (m : Cells α) : List (Page α) :=
  (m.bases.zip (m.sizes.zip m.blocks)).map fun (base, size, cells) => ⟨base, size, cells⟩

/-- The memory with other pages. -/
def withPages (m : Cells α) (pages : List (Page α)) : Cells α :=
  { m with bases := pages.map Page.base, sizes := pages.map Page.size, blocks := pages.map Page.cells }

section

variable (m : Cells α) (ps qs : List (Page α))

@[simp] theorem pages_withPages : (m.withPages ps).pages = ps := by
  simp only [pages, withPages, List.zip_map', List.map_map]
  exact List.map_id' ps

@[simp] theorem withPages_withPages : (m.withPages ps).withPages qs = m.withPages qs := rfl

theorem even_withPages : (m.withPages ps).Even := ⟨by simp [withPages], by simp [withPages]⟩

end

section

variable {m : Cells α} {i : Nat} {p : Page α}

theorem getElem?_pages_eq_some_iff : m.pages[i]? = some p ↔
    m.bases[i]? = some p.base ∧ m.sizes[i]? = some p.size ∧ m.blocks[i]? = some p.cells := by
  rw [pages, List.getElem?_map, Option.map_eq_some_iff]
  constructor
  · rintro ⟨⟨base, size, cells⟩, hread, rfl⟩
    obtain ⟨hbase, hrest⟩ := List.getElem?_zip_eq_some.mp hread
    obtain ⟨hsize, hcells⟩ := List.getElem?_zip_eq_some.mp hrest
    exact ⟨hbase, hsize, hcells⟩
  · rintro ⟨hbase, hsize, hcells⟩
    refine ⟨(p.base, p.size, p.cells), List.getElem?_zip_eq_some.mpr ⟨hbase, ?_⟩, rfl⟩
    exact List.getElem?_zip_eq_some.mpr ⟨hsize, hcells⟩

namespace Even

theorem map_base (h : m.Even) : m.pages.map Page.base = m.bases := by
  have hle : m.bases.length ≤ (m.sizes.zip m.blocks).length := by
    rw [List.length_zip, h.sizes, h.bases]
    omega
  rw [pages, List.map_map]
  exact List.map_fst_zip hle

theorem map_rest (h : m.Even) :
    m.pages.map (fun p => (p.size, p.cells)) = m.sizes.zip m.blocks := by
  have hle : (m.sizes.zip m.blocks).length ≤ m.bases.length := by
    rw [List.length_zip, h.sizes, h.bases]
    omega
  rw [pages, List.map_map]
  exact List.map_snd_zip hle

theorem map_size (h : m.Even) : m.pages.map Page.size = m.sizes := by
  have hfirst := congrArg (List.map Prod.fst) h.map_rest
  rwa [List.map_map, List.map_fst_zip (Nat.le_of_eq h.sizes)] at hfirst

theorem map_cells (h : m.Even) : m.pages.map Page.cells = m.blocks := by
  have hsecond := congrArg (List.map Prod.snd) h.map_rest
  rwa [List.map_map, List.map_snd_zip (Nat.le_of_eq h.sizes.symm)] at hsecond

/-- A memory with lists of one length is that of its pages. -/
theorem withPages_pages (h : m.Even) : m.withPages m.pages = m := by
  rw [withPages, h.map_base, h.map_size, h.map_cells]

theorem length_bases (h : m.Even) : m.bases.length = m.pages.length := by
  rw [← h.map_base, List.length_map]

theorem insertPage_eq (h : m.Even) (i : Nat) (p : Page α) :
    m.insertPage i p = m.withPages (m.pages.insertIdx i p) := by
  simp only [Cells.insertPage, withPages, List.map_insertIdx, h.map_base, h.map_size, h.map_cells]

/-- The cell that is looked up is one of the page that is found. -/
theorem lookup_eq (h : m.Even) (address : Int64) :
    m.lookup address = m.pages[m.pageAt address]?.bind fun p => cellFrom? p.base p.cells address := by
  rw [lookup]
  generalize m.pageAt address = i
  rw [← h.map_base, ← h.map_cells, List.getElem?_map, List.getElem?_map]
  cases m.pages[i]? <;> rfl

/-- The end of the page before. -/
theorem stopBefore?_eq (h : m.Even) (i : Nat) : m.stopBefore? i
    = (if i = 0 then none else m.pages[i - 1]?).map fun p => p.base + p.size := by
  rw [PageTable.stopBefore?]
  split
  · rfl
  · rw [← h.map_base, ← h.map_size, List.getElem?_map, List.getElem?_map]
    cases m.pages[i - 1]? <;> rfl

end Even

end

/-! ## The turns of a store -/

/-- A replaced page that is the same in some respect leaves the list of these the same. -/
theorem map_set_of_eq {β : Type} {f : Page α → β} {pages : List (Page α)} {i : Nat} {p q : Page α}
    (hread : pages[i]? = some p) (hf : f q = f p) : (pages.set i q).map f = pages.map f := by
  obtain ⟨hi, rfl⟩ := List.getElem?_eq_some_iff.mp hread
  rw [List.map_set, hf, ← List.map_set, List.set_getElem_self]

section

variable [Scalar α] {m m₀ : Cells α} {i : Nat} {address : Int64} {values : List α} {p : Page α}

theorem ensurePage_of_le (hp : m.pages[i]? = some p) (hle : p.base ≤ address) :
    m.ensurePage i address = (p, m) := by
  obtain ⟨hbase, hsize, hcells⟩ := getElem?_pages_eq_some_iff.mp hp
  rcases m.ensurePage_cases i address with ⟨base, size, hbase', hsize', -, hensure⟩ | ⟨habove, -⟩
  · cases hbase.symm.trans hbase'
    cases hsize.symm.trans hsize'
    rw [hensure, hcells, Option.getD_some]
  · exact absurd hle (Int64.not_le.mpr (habove _ _ hbase hsize))

theorem ensurePage_of_lt (h : m.Even) (hp : ∀ p ∈ m.pages[i]?, address < p.base) :
    m.ensurePage i address
      = (m.newPage i address, m.withPages (m.pages.insertIdx i (m.newPage i address))) := by
  rcases m.ensurePage_cases i address with ⟨base, size, hbase, hsize, hle, -⟩ | ⟨-, hensure⟩
  · -- a page stands at the index, as its base does
    rw [← h.map_base, List.getElem?_map, Option.map_eq_some_iff] at hbase
    obtain ⟨p, hread, rfl⟩ := hbase
    exact absurd hle (Int64.not_le.mpr (hp p hread))
  · rw [hensure, h.insertPage_eq]

theorem storeTurn_pass (hp : m.ensurePage i address = (p, m₀))
    (hpass : 0 < address - p.base ∧ p.size ≤ address - p.base) :
    m.storeTurn i address values = (m₀, address, values) := by
  rw [storeTurn, hp]
  dsimp only
  rw [if_pos hpass]

/-- Only the cells of a page are written to, so the page is replaced by one with the same base and size. -/
theorem storeTurn_write (h : m₀.Even) (hp : m.ensurePage i address = (p, m₀)) (hread : m₀.pages[i]? = some p)
    (hstay : ¬ (0 < address - p.base ∧ p.size ≤ address - p.base)) :
    m.storeTurn i address values
      = (m₀.withPages (m₀.pages.set i (p.write (address - p.base).toInt.toNat values).1),
        address + .ofNat (p.write (address - p.base).toInt.toNat values).2,
        values.drop (p.write (address - p.base).toInt.toNat values).2) := by
  have hbase := map_set_of_eq (f := Page.base) hread
    (show (p.write (address - p.base).toInt.toNat values).1.base = p.base from rfl)
  have hsize := map_set_of_eq (f := Page.size) hread
    (show (p.write (address - p.base).toInt.toNat values).1.size = p.size from rfl)
  rw [withPages, hbase, hsize, List.map_set, h.map_base, h.map_size, h.map_cells, storeTurn, hp]
  dsimp only
  rw [if_neg hstay]
  rfl

end

end Cells

end Linewise
