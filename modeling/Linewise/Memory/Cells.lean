import Linewise.Scalar

/-!
# Paged memory

Cells at signed 64-bit addresses, kept in pages. A page is allocated when a cell in it is first
stored to; it starts at a multiple of the page size, cut where a neighbouring page already lies, and
it is filled with the fill value, which is also what cells outside of all pages read as. Addresses
are computed with wrap-around, as 64-bit words are.

Where the pages lie is kept in a `PageTable`, apart from their cells: one list of base addresses and
one of sizes, both in order of the addresses. A memory has the cells of each page in a third list. A new
page is inserted into the first two lists by `PageTable.ensure` and into the third by `Cells.ensurePage`,
and what belongs to one page is read at the same index. `PageTable.pageAt` finds the last page at or below
an address by bisection.
-/

namespace Linewise

/-- Where pages lie, whatever is kept in them. -/
structure PageTable where
  /-- The size of pages to come; one that is not positive stands for 256. -/
  pageSize : Int64
  /-- The last address that can be loaded from, if there is one. Stores are not limited. -/
  limit : Option Int64
  /-- The base addresses of the pages. -/
  bases : List Int64
  /-- The sizes the pages were allocated with, as address differences. -/
  sizes : List Int64
deriving Repr

/-- Paged memory. -/
structure Cells (α : Type) extends PageTable where
  /-- What cells hold that were never stored to. -/
  fill : α
  /-- The cells of each page. -/
  blocks : List (List α)
deriving Repr

/-- What belongs to one page: consecutive cells from a base address on. -/
structure Page (α : Type) where
  base : Int64
  size : Int64
  cells : List α
deriving Repr

/-- A load from an address past the limit. -/
structure LimitError where
  address : Int64
deriving DecidableEq, Repr

/-- Where a page lies, and whether it has been made just now. -/
structure Slot where
  base : Int64
  size : Int64
  isNew : Bool
deriving DecidableEq, Repr

/-- The page size when none is given. -/
def Cells.defaultPageSize : Int64 := 256

namespace PageTable

/-- The page size in use. -/
def effectivePageSize (t : PageTable) : Int64 :=
  if t.pageSize ≤ 0 then Cells.defaultPageSize else t.pageSize

/-! ## Finding a page -/

/-- One turn of a bisection on the indices `low` to `high`: the indices that are left. The base in the
middle is read if its index is below the number of pages; none would be a reading outside of the list. -/
def searchTurn? (bases : List Int64) (address : Int64) (low high : Nat) : Option (Nat × Nat) :=
  let middle := (low + high) / 2 + 1
  if middle < bases.length then
    bases[middle]?.map fun base => if base ≤ address then (middle, high) else (low, middle - 1)
  else some (low, middle - 1)

/-- Bisection on the indices `low` to `high` for the last page at or below an address. -/
def search (bases : List Int64) (address : Int64) : Nat → Nat → Nat → Nat
  | 0, low, _ => low
  | fuel + 1, low, high =>
    if low < high then
      match searchTurn? bases address low high with
      | some (low, high) => search bases address fuel low high
      | none => low
    else low

/-- The index of the last page that starts at or below an address, 0 if there is none. -/
def pageAt (t : PageTable) (address : Int64) : Nat :=
  search t.bases address (t.bases.length + 1) 0 t.bases.length

/-- Fails for an address past the limit. -/
def checkLimit (t : PageTable) (address : Int64) : Except LimitError Unit :=
  match t.limit with
  | some limit => if limit < address then .error ⟨address⟩ else .ok ()
  | none => .ok ()

/-! ## Making a page -/

/-- The start of the page that an address belongs to. -/
def pageBase (t : PageTable) (address : Int64) : Int64 :=
  let base := address / t.effectivePageSize * t.effectivePageSize
  if address < base then base - t.effectivePageSize else base

/-- The end of the page before index `i`, if there is one. -/
def stopBefore? (t : PageTable) (i : Nat) : Option Int64 :=
  if i = 0 then none
  else do
    let base ← t.bases[i - 1]?
    let size ← t.sizes[i - 1]?
    return base + size

/-- Where a new page for an address lies that is to stand at index `i`: where the aligned page does, cut at
the end of the page before and at the start of the page after. -/
def newSlot (t : PageTable) (i : Nat) (address : Int64) : Slot :=
  let start := t.pageBase address
  let stop := start + t.effectivePageSize
  let base := match t.stopBefore? i with
    | some before => if start < before then before else start
    | none => start
  let stop := match t.bases[i]? with
    | some after => if after < stop then after else stop
    | none => stop
  ⟨base, stop - base, true⟩

/-- A new page for an address at index `i`, with the table that has it. -/
def allocate (t : PageTable) (i : Nat) (address : Int64) : Slot × PageTable :=
  let slot := t.newSlot i address
  (slot, { t with bases := t.bases.insertIdx i slot.base, sizes := t.sizes.insertIdx i slot.size })

/-- The page at index `i` if it starts at or below the address, else a new page there; with the table that
has it. -/
def ensure (t : PageTable) (i : Nat) (address : Int64) : Slot × PageTable :=
  match t.bases[i]?, t.sizes[i]? with
  | some base, some size => if base ≤ address then (⟨base, size, false⟩, t) else t.allocate i address
  | _, _ => t.allocate i address

end PageTable

/-- A page with values written from an offset on, as far as they fit, and their count. -/
def Page.write {α : Type} (p : Page α) (offset : Nat) (values : List α) : Page α × Nat :=
  let count := min values.length (p.cells.length - offset)
  (⟨p.base, p.size, p.cells.take offset ++ values.take count ++ p.cells.drop (offset + count)⟩, count)

namespace Cells

variable {α : Type}

/-- Memory without pages. -/
def empty (pageSize : Int64) (fill : α) (limit : Option Int64) : Cells α :=
  { pageSize, limit, fill, bases := [], sizes := [], blocks := [] }

/-- The number of allocated cells, by the sizes of their pages. -/
def size (m : Cells α) : Int := m.sizes.foldr (fun size n => size.toInt + n) 0

/-! ## Loading -/

/-- The cell at an address, among cells from a base address on. -/
def cellFrom? (base : Int64) (cells : List α) (address : Int64) : Option α :=
  let offset := address - base
  if 0 ≤ offset then cells[offset.toNatClampNeg]? else none

/-- The cell at an address, if a page holds it. -/
def lookup (m : Cells α) (address : Int64) : Option α := do
  let base ← m.bases[m.pageAt address]?
  let cells ← m.blocks[m.pageAt address]?
  cellFrom? base cells address

/-- Whether a page holds an address. -/
def has (m : Cells α) (address : Int64) : Bool := (m.lookup address).isSome

/-- The content at an address. Nothing is allocated. -/
def load (m : Cells α) (address : Int64) : Except LimitError α := do
  m.checkLimit address
  return (m.lookup address).getD m.fill

/-- The elements of a list from an index on, if the index is not outside of the list. -/
def suffix? (xs : List α) (i : Int64) : Option (List α) :=
  if 0 ≤ i ∧ i.toInt ≤ xs.length then some (xs.drop i.toNatClampNeg) else none

/-- Lays the cells that pages hold from `address` up to `stop` over a buffer for these addresses. The
bases and the cells of the pages are read in step. Fails where an index would be out of range. -/
def overlay (stop : Int64) : List Int64 → List (List α) → Int64 → List α → Option (List α)
  | [], _, _, buffer => some buffer
  | base :: bases, blocks, address, buffer =>
    if address < stop ∧ base < stop then
      match blocks with
      | [] => none
      | cells :: blocks =>
        let skip := address - base
        if 0 < skip then
          if .ofNat cells.length ≤ skip then overlay stop bases blocks address buffer
          else do
            let cells ← suffix? cells skip
            let count := min buffer.length cells.length
            let later ← overlay stop bases blocks (address + .ofNat count) (buffer.drop count)
            return cells.take count ++ later
        else do
          let ahead ← suffix? buffer (-skip)
          let count := min ahead.length cells.length
          let later ← overlay stop bases blocks (base + .ofNat count) (ahead.drop count)
          return buffer.take (-skip).toNatClampNeg ++ cells.take count ++ later
    else some buffer

/-- Loads the contents of as many cells from `address` on as a buffer has elements into the buffer, or
nothing at all if the last of them is past the limit; the outcome, and the buffer after it. -/
def loadInto (m : Cells α) (address : Int64) (buffer : List α) :
    Option (Except LimitError Unit × List α) :=
  if buffer.isEmpty then some (.ok (), buffer)
  else
    let stop := address + .ofNat buffer.length
    match m.checkLimit (stop - 1) with
    | .error e => some (.error e, buffer)
    | .ok () => do
      let first := m.pageAt address
      let filled := buffer.map fun _ => m.fill
      let loaded ← overlay stop (m.bases.drop first) (m.blocks.drop first) address filled
      return (.ok (), loaded)

/-- The contents of `count` cells from `address` on, in a buffer of their own. -/
def loadMany (m : Cells α) (address : Int64) (count : Nat) : Except LimitError (List α) :=
  match m.loadInto address (List.replicate count m.fill) with
  | some (outcome, loaded) => outcome.map fun _ => loaded
  | none => .ok []

/-- The addresses and contents of cells from a base address on, in order. -/
def entriesFrom (base : Int64) (cells : List α) : List (Int64 × α) :=
  cells.zipIdx.map fun (x, i) => (base + .ofNat i, x)

/-- All allocated addresses and their contents, page by page. -/
def entries (m : Cells α) : List (Int64 × α) :=
  (m.bases.zip m.blocks).flatMap fun (base, cells) => entriesFrom base cells

/-! ## Storing -/

/-- What the cells of a new page hold: the fill value, a zero without its sign. -/
def blank [Scalar α] (m : Cells α) : α := if Scalar.isZero m.fill then Scalar.zero else m.fill

/-- The page that the table has for an address at index `i`, with the memory that has it: a new one gets
blank cells, which are inserted where the table has inserted its base and its size. -/
def ensurePage [Scalar α] (m : Cells α) (i : Nat) (address : Int64) : Page α × Cells α :=
  let (slot, table) := m.ensure i address
  if slot.isNew then
    let cells := List.replicate slot.size.toNatClampNeg m.blank
    (⟨slot.base, slot.size, cells⟩, { m with toPageTable := table, blocks := m.blocks.insertIdx i cells })
  else (⟨slot.base, slot.size, m.blocks[i]?.getD []⟩, m)

/-- One turn of a store, at the page with index `i`: passes over the page, or stores the values that fit
into it. The memory after it, with the address and the values to go on with. -/
def storeTurn [Scalar α] (m : Cells α) (i : Nat) (address : Int64) (values : List α) :
    Cells α × Int64 × List α :=
  let (p, m) := m.ensurePage i address
  let skip := address - p.base
  if 0 < skip ∧ p.size ≤ skip then (m, address, values)
  else
    let (p, count) := p.write skip.toNatClampNeg values
    ({ m with blocks := m.blocks.set i p.cells }, address + .ofNat count, values.drop count)

/-- Stores values from `address` up to `stop`, turn by turn from the page with index `i` on. Each turn
passes over a page or stores a value. -/
def storeFrom [Scalar α] (stop : Int64) : Nat → Cells α → Nat → Int64 → List α → Cells α
  | 0, m, _, _, _ => m
  | fuel + 1, m, i, address, values =>
    if address < stop then
      let (m, address, values) := m.storeTurn i address values
      storeFrom stop fuel m (i + 1) address values
    else m

/-- Stores values from `address` on, allocating pages where there are none. -/
def store [Scalar α] (m : Cells α) (address : Int64) (values : List α) : Cells α :=
  storeFrom (address + .ofNat values.length) (m.bases.length + values.length + 1) m
    (m.pageAt address) address values

end Cells

end Linewise
