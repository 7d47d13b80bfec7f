import Linewise.Proofs.Memory

/-!
# The table of pages

What keeps the search for pages right is an order among them: there are as many bases and sizes as there are
blocks of cells, the sizes are those of the blocks, the bases increase, and each page ends before the next
begins (`Cells.InOrder`). In this order every allocated
address belongs to one page, so listing the cells page by page visits each allocated address once, from
the lowest to the highest, with the value that a load gives (`Cells.Accounted`). Stores and changes of the
page size keep the order, every store comes to its end, and what is allocated stays so
(`after_inOrder`).
-/

namespace Linewise

variable {α : Type}

/-! ## The cells of a page -/

namespace Page

/-- The addresses and contents of the cells, in order. -/
def entries (p : Page α) : List (Int64 × α) := Cells.entriesFrom p.base p.cells

variable {p : Page α} {a : Int64} {x : α}

theorem toInt_base_add (hp : p.Sound) {i : Nat} (hi : i < p.cells.length) :
    (p.base + .ofNat i).toInt = p.base.toInt + i := by
  have hshort := hp.short
  have hinside := hp.inside
  have hlow := p.base.le_toInt
  have hcell : (Int64.ofNat i).toInt = i := Int64.toInt_ofNat_of_lt (by omega)
  unfold reach at hinside
  rw [toInt_add_of_inside, hcell] <;> rw [hcell] <;> omega

theorem isSome_content?_iff {b : Int} : (p.content? b).isSome ↔ p.base.toInt ≤ b ∧ b < p.reach := by
  unfold content? reach
  split
  · rw [isSome_getElem?]
    omega
  · simp
    omega

theorem mem_entries_iff (hp : p.Sound) : (a, x) ∈ p.entries ↔ p.content? a.toInt = some x := by
  constructor
  · intro h
    obtain ⟨⟨y, i⟩, hi, heq⟩ := List.mem_map.mp h
    obtain ⟨rfl, rfl⟩ := Prod.mk.inj heq
    have hget := List.mem_zipIdx_iff_getElem?.mp hi
    have hlt := (List.getElem?_eq_some_iff.mp hget).1
    rw [toInt_base_add hp hlt, content?_of_le (by omega), ← hget]
    congr 1
    omega
  · intro h
    obtain ⟨hle, hreach⟩ := isSome_content?_iff.mp (Option.isSome_of_eq_some h)
    rw [content?_of_le hle] at h
    have hlt := (List.getElem?_eq_some_iff.mp h).1
    have ha : p.base + .ofNat (a.toInt - p.base.toInt).toNat = a := by
      rw [← Int64.toInt_inj, toInt_base_add hp hlt]
      omega
    exact List.mem_map.mpr ⟨(x, _), List.mem_zipIdx_iff_getElem?.mpr h, congrArg (·, x) ha⟩

theorem pairwise_entries (hp : p.Sound) : p.entries.Pairwise fun e f => e.1 < f.1 := by
  refine List.pairwise_iff_getElem.mpr fun i j hi hj hij => ?_
  have hlength : p.entries.length = p.cells.length := by simp [entries, Cells.entriesFrom]
  have hat : ∀ k (hk : k < p.entries.length), p.entries[k].1 = p.base + .ofNat k := by
    intro k hk
    simp [entries, Cells.entriesFrom]
  rw [hat, hat, Int64.lt_iff_toInt_lt, toInt_base_add hp (by omega), toInt_base_add hp (by omega)]
  omega

end Page

/-! ## All cells -/

namespace Layout

variable {pages : List (Page α)} {a : Int64} {x : α}

/-- What one page holds at an address is what the pages hold there. -/
theorem contents_eq_some_iff (h : Layout pages) {b : Int} :
    contents pages b = some x ↔ ∃ p ∈ pages, p.content? b = some x := by
  constructor
  · exact List.exists_of_findSome?_eq_some
  · rintro ⟨p, hp, hcontent⟩
    obtain ⟨front, back, rfl⟩ := List.append_of_mem hp
    have hle := (Page.isSome_content?_iff.mp (Option.isSome_of_eq_some hcontent)).1
    rw [contents_append, h.contents_front hle, Option.none_or, contents_cons, hcontent, Option.some_or]

theorem mem_entries_iff (h : Layout pages) :
    (a, x) ∈ pages.flatMap Page.entries ↔ contents pages a.toInt = some x := by
  rw [List.mem_flatMap, h.contents_eq_some_iff]
  constructor
  · rintro ⟨p, hp, hmem⟩
    exact ⟨p, hp, (Page.mem_entries_iff (h.sound p hp)).mp hmem⟩
  · rintro ⟨p, hp, hcontent⟩
    exact ⟨p, hp, (Page.mem_entries_iff (h.sound p hp)).mpr hcontent⟩

/-- Page by page the addresses increase. -/
theorem pairwise_entries (h : Layout pages) :
    (pages.flatMap Page.entries).Pairwise fun e f => e.1 < f.1 := by
  refine List.pairwise_flatMap.mpr ⟨fun p hp => Page.pairwise_entries (h.sound p hp), ?_⟩
  refine h.apart.imp_of_mem fun {p q} hp hq hreach e he f hf => ?_
  have hpe := (Page.mem_entries_iff (h.sound p hp)).mp he
  have hqf := (Page.mem_entries_iff (h.sound q hq)).mp hf
  have hbelow := (Page.isSome_content?_iff.mp (Option.isSome_of_eq_some hpe)).2
  have habove := (Page.isSome_content?_iff.mp (Option.isSome_of_eq_some hqf)).1
  exact Int64.lt_iff_toInt_lt.mpr (by omega)

end Layout

namespace Cells

/-! ## The table -/

/-- As many bases and sizes as blocks of cells, which make up pages in order and apart from each other. -/
structure InOrder (m : Cells α) : Prop where
  lengths : m.bases.length = m.blocks.length ∧ m.sizes.length = m.blocks.length
  sized : ∀ (i : Nat) (size : Int64) (cells : List α), m.sizes[i]? = some size → m.blocks[i]? = some cells →
    0 < size ∧ size.toInt = cells.length
  increasing : m.bases.Pairwise fun base next => base < next
  apart : ∀ (i : Nat) (base size next : Int64), m.bases[i]? = some base → m.sizes[i]? = some size →
    m.bases[i + 1]? = some next → base.toInt + size.toInt ≤ next.toInt

/-- An address inside of a page. -/
def Allocated (m : Cells α) (a : Int64) : Prop :=
  ∃ (i : Nat) (base size : Int64), m.bases[i]? = some base ∧ m.sizes[i]? = some size ∧
    base.toInt ≤ a.toInt ∧ a.toInt < base.toInt + size.toInt

/-- A memory whose listing visits the allocated addresses in order, each once and with its value, and which
knows them and their number. -/
structure Accounted (m : Cells α) : Prop where
  increasing : (m.entries.map Prod.fst).Pairwise fun a b => a < b
  visited : ∀ a, a ∈ m.entries.map Prod.fst ↔ m.Allocated a
  valued : ∀ a x, (a, x) ∈ m.entries → { m with limit := none }.load a = .ok x
  has_iff : ∀ a, m.has a ↔ a ∈ m.entries.map Prod.fst
  size_eq : m.size = m.entries.length

section

variable {m : Cells α}

/-- The lists have what belongs to the pages at each index. -/
theorem Laid.getElem? (h : m.Laid) (i : Nat) : m.bases[i]? = m.pages[i]?.map Page.base ∧
    m.sizes[i]? = m.pages[i]?.map Page.size ∧ m.blocks[i]? = m.pages[i]?.map Page.cells := by
  rw [← List.getElem?_map, ← List.getElem?_map, ← List.getElem?_map, h.even.map_base, h.even.map_size,
    h.even.map_cells]
  exact ⟨rfl, rfl, rfl⟩

theorem Laid.inOrder (h : m.Laid) : m.InOrder where
  lengths := ⟨h.even.bases, h.even.sizes⟩
  sized := by
    intro i size cells hsize hcells
    obtain ⟨-, hsizes, hblocks⟩ := h.getElem? i
    obtain ⟨p, hp, rfl⟩ := Option.map_eq_some_iff.mp (hsizes.symm.trans hsize)
    rw [hp] at hblocks
    cases hblocks.symm.trans hcells
    have hsound := h.layout.sound p (List.mem_of_getElem? hp)
    have hoccupied := hsound.occupied
    have hsized := hsound.sized
    exact ⟨Int64.lt_iff_toInt_lt.mpr (by rw [Int64.toInt_zero]; omega), hsized⟩
  increasing := h.increasing
  apart := by
    intro i base size next hbase hsize hnext
    obtain ⟨hbases, hsizes, -⟩ := h.getElem? i
    obtain ⟨hafter, -⟩ := h.getElem? (i + 1)
    obtain ⟨p, hp, rfl⟩ := Option.map_eq_some_iff.mp (hbases.symm.trans hbase)
    obtain ⟨q, hq, rfl⟩ := Option.map_eq_some_iff.mp (hafter.symm.trans hnext)
    rw [hp] at hsizes
    cases hsizes.symm.trans hsize
    have hreach := (base_lt_of_layout h.layout (Nat.lt_succ_self i) hp hq).1
    rw [(h.layout.sound p (List.mem_of_getElem? hp)).sized]
    exact hreach

theorem allocated_iff (h : m.Laid) (a : Int64) :
    m.Allocated a ↔ (contents m.pages a.toInt).isSome := by
  rw [Option.isSome_iff_exists]
  constructor
  · rintro ⟨i, base, size, hbase, hsize, hlow, hhigh⟩
    obtain ⟨hbases, hsizes, -⟩ := h.getElem? i
    obtain ⟨p, hp, rfl⟩ := Option.map_eq_some_iff.mp (hbases.symm.trans hbase)
    rw [hp] at hsizes
    cases hsizes.symm.trans hsize
    have hmem := List.mem_of_getElem? hp
    rw [(h.layout.sound p hmem).sized] at hhigh
    obtain ⟨x, hx⟩ := Option.isSome_iff_exists.mp (Page.isSome_content?_iff.mpr ⟨hlow, hhigh⟩)
    exact ⟨x, h.layout.contents_eq_some_iff.mpr ⟨p, hmem, hx⟩⟩
  · rintro ⟨x, hx⟩
    obtain ⟨p, hmem, hcontent⟩ := h.layout.contents_eq_some_iff.mp hx
    obtain ⟨hlow, hhigh⟩ := Page.isSome_content?_iff.mp (Option.isSome_of_eq_some hcontent)
    obtain ⟨i, hp⟩ := List.getElem?_of_mem hmem
    obtain ⟨hbases, hsizes, -⟩ := h.getElem? i
    rw [hp] at hbases hsizes
    refine ⟨i, p.base, p.size, hbases, hsizes, hlow, ?_⟩
    rw [(h.layout.sound p hmem).sized]
    exact hhigh

/-- The listing goes page by page. -/
theorem Laid.entries_eq (h : m.Laid) : m.entries = m.pages.flatMap Page.entries := by
  rw [entries, ← h.even.map_base, ← h.even.map_cells, List.zip_map', List.flatMap_map]
  rfl

theorem Laid.mem_entries_iff (h : m.Laid) {a : Int64} {x : α} :
    (a, x) ∈ m.entries ↔ contents m.pages a.toInt = some x := by
  rw [h.entries_eq, h.layout.mem_entries_iff]

theorem visited_iff (h : m.Laid) (a : Int64) :
    a ∈ m.entries.map Prod.fst ↔ (contents m.pages a.toInt).isSome := by
  rw [Option.isSome_iff_exists, List.mem_map]
  constructor
  · rintro ⟨⟨b, x⟩, hmem, rfl⟩
    exact ⟨x, h.mem_entries_iff.mp hmem⟩
  · rintro ⟨x, hx⟩
    exact ⟨(a, x), h.mem_entries_iff.mpr hx, rfl⟩

theorem size_eq_length_entries (h : m.Laid) : m.size = m.entries.length := by
  have hsized := h.layout.sound
  rw [size, ← h.even.map_size, h.entries_eq]
  generalize m.pages = pages at hsized
  clear h
  induction pages with
  | nil => rfl
  | cons p rest ih =>
      have hlength : p.entries.length = p.cells.length := by simp [Page.entries, entriesFrom]
      rw [List.map_cons, List.foldr_cons, List.flatMap_cons, List.length_append, hlength, Int.natCast_add,
        (hsized p List.mem_cons_self).sized, ih fun q hq => hsized q (List.mem_cons_of_mem _ hq)]

theorem Laid.accounted (h : m.Laid) : m.Accounted where
  increasing := by
    rw [h.entries_eq]
    exact List.pairwise_map.mpr h.layout.pairwise_entries
  visited a := (visited_iff h a).trans (allocated_iff h a).symm
  valued a x hmem := by
    have hunlimited := h.configure m.pageSize none
    refine (load_eq_contents hunlimited fun _ hlimit => by cases hlimit).trans ?_
    show Except.ok ((contents m.pages a.toInt).getD m.fill) = _
    rw [h.mem_entries_iff.mp hmem, Option.getD_some]
  has_iff a := by
    rw [has_eq_isSome h]
    exact (visited_iff h a).symm
  size_eq := size_eq_length_entries h

end

/-! ## What is allocated stays -/

section

variable [Scalar α] {m : Cells α}

/-- The lists go together after any accesses, where addresses wrap around too. -/
theorem Even.after (h : m.Even) (history : List (Access α)) : (m.after history).Even := by
  induction history generalizing m with
  | nil => exact h
  | cons access later ih =>
      refine ih (m := m.access access) ?_
      cases access with
      | store address values => exact h.store address values
      | resize pageSize => exact ⟨h.bases, h.sizes⟩
      | load address => exact h

/-- A store takes no cell away. -/
theorem isSome_of_stored {m' : Cells α} {a : Int} {values : List α} (h : Stored m m' a values) {b : Int}
    (hb : (contents m.pages b).isSome) : (contents m'.pages b).isSome := by
  by_cases hinside : a ≤ b ∧ b < a + values.length
  · obtain ⟨k, rfl⟩ : ∃ k : Nat, b = a + k := ⟨(b - a).toNat, by omega⟩
    have hk : k < values.length := by omega
    rw [h.written k hk, List.getElem?_eq_getElem hk]
    rfl
  · rcases h.kept b (by omega) with hsame | ⟨hnone, -⟩
    · rwa [hsame]
    · rw [hnone] at hb
      cases hb

theorem has_access (h : Modest m) {access : Access α} (hwithin : access.Within 2305843009213693952)
    {a : Int64} (ha : m.has a) : (m.access access).has a := by
  obtain ⟨hpermits, hmodest⟩ := h.access hwithin
  rw [has_eq_isSome h.laid] at ha
  rw [has_eq_isSome hmodest.laid]
  cases access with
  | store address values => exact isSome_of_stored (store_stored h.laid hpermits) ha
  | resize pageSize => exact ha
  | load address => exact ha

theorem has_after (h : Modest m) {history : List (Access α)}
    (hwithin : ∀ access ∈ history, access.Within 2305843009213693952) {a : Int64} (ha : m.has a) :
    (m.after history).has a := by
  induction history generalizing m with
  | nil => exact ha
  | cons access later ih =>
      obtain ⟨hfirst, hlater⟩ := List.forall_mem_cons.mp hwithin
      exact ih (h.access hfirst).2 hlater (has_access h hfirst ha)

end

end Cells

/-- With addresses, ends and page sizes up to 2⁶¹, the pages of a memory are in order after any accesses,
and its listing accounts for all that is allocated; every further store comes to its end, and every address
that was allocated once is allocated still. -/
theorem after_inOrder [Scalar α] {pageSize : Int64} {fill : α} {limit : Option Int64}
    {history : List (Access α)} (hsize : pageSize.toInt.natAbs ≤ 2305843009213693952)
    (hwithin : ∀ access ∈ history, access.Within 2305843009213693952) :
    let m := (Cells.empty pageSize fill limit).after history
    m.InOrder ∧ m.Accounted ∧
      (∀ address values, (Access.store address values).Within 2305843009213693952 →
        Cells.Finishes (address + .ofNat values.length) m (m.pageAt address) address values
          (m.store address values)) ∧
      ∀ earlier, earlier <+: history →
        ∀ a, ((Cells.empty pageSize fill limit).after earlier).has a → m.has a := by
  intro m
  have hempty := Modest.empty hsize fill limit
  have hmodest : Modest m := hempty.after hwithin
  refine ⟨hmodest.laid.inOrder, hmodest.laid.accounted,
    fun address values hstore => Cells.store_finishes hmodest.laid (hmodest.access hstore).1, ?_⟩
  rintro earlier ⟨later, rfl⟩ a ha
  have hbefore : Modest ((Cells.empty pageSize fill limit).after earlier) :=
    hempty.after fun access haccess => hwithin access (List.mem_append_left _ haccess)
  have hafter : m = ((Cells.empty pageSize fill limit).after earlier).after later := List.foldl_append
  rw [hafter]
  exact Cells.has_after hbefore (fun access haccess => hwithin access (List.mem_append_right _ haccess)) ha

/-- Pages of different sizes, one of them fitted in between two others. -/
def crowdedStores : List (Access Number) :=
  [.store (-3) [1, 2, 3, 4, 5, 6], .resize 2, .store 9 [7], .resize 5, .store 6 [8]]

/-- The aligned page of the last store begins at 5 and would reach over the page at 8. -/
theorem crowdedStores_inOrder :
    let m := (Cells.empty 4 0 (some 3)).after crowdedStores
    m.InOrder ∧ m.Accounted ∧ m.bases = [-4, 0, 5, 8] ∧ m.sizes = [4, 4, 3, 2] ∧ m.size = 13 ∧
      m.entries.map Prod.fst = [-4, -3, -2, -1, 0, 1, 2, 3, 5, 6, 7, 8, 9] ∧
      Cells.Finishes 3 m 1 1 [7, 7] (m.store 1 [7, 7]) ∧ m.has (-3) := by
  intro m
  have hsize : (4 : Int64).toInt.natAbs ≤ 2305843009213693952 := by decide
  have hwithin : ∀ access ∈ crowdedStores, access.Within 2305843009213693952 := by decide
  obtain ⟨horder, haccounted, hfinishes, hkept⟩ := after_inOrder hsize hwithin
  refine ⟨horder, haccounted, by decide +kernel, by decide +kernel, by decide +kernel, by decide +kernel,
    ?_, hkept (crowdedStores.take 1) (List.take_prefix _ _) (-3) (by decide +kernel)⟩
  have hpage : m.pageAt 1 = 1 := by decide +kernel
  have hfinish := hfinishes 1 [7, 7] (by decide)
  rwa [hpage] at hfinish

end Linewise
