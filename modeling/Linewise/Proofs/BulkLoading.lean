import Linewise.Proofs.Memory

/-!
# Loading into a buffer

A bulk load goes through the pages from the spot of its address on and lays what they hold over a buffer
of fill values. A page that ends before the window is passed over, one that begins inside of it leaves a
gap of fill values in front, and the window may end in the middle of a page or beyond all of them. What
comes out is said without pages as `readings`: one value for each address. So a bulk load agrees with
single loads, fails if one of these does, and never leaves the bounds of a list (`loadInto_eq_loads`).
-/

namespace Linewise

variable {α : Type}

/-! ## What consecutive cells read as -/

/-- What the `count` cells from an integer address on read as. -/
def readings (fill : α) (pages : List (Page α)) (a : Int) (count : Nat) : List α :=
  (List.range count).map fun i : Nat => (contents pages (a + i)).getD fill

section

variable {fill : α} {pages rest : List (Page α)} {p : Page α} {a : Int}

theorem readings_add (count later : Nat) : readings fill pages a (count + later)
    = readings fill pages a count ++ readings fill pages (a + count) later := by
  rw [readings, List.range_add, List.map_append, List.map_map]
  congr 1
  refine List.map_congr_left fun i _ => ?_
  rw [Function.comp_apply, Int.natCast_add, ← Int.add_assoc]

theorem readings_congr {count : Nat} {other : List (Page α)}
    (h : ∀ x, a ≤ x → x < a + count → contents pages x = contents other x) :
    readings fill pages a count = readings fill other a count := by
  refine List.map_congr_left fun i hi => ?_
  have hi := List.mem_range.mp hi
  rw [h _ (by omega) (by omega)]

/-- Addresses that no page holds read as the fill value. -/
theorem readings_of_free {count : Nat} (h : ∀ x, a ≤ x → x < a + count → contents pages x = none) :
    readings fill pages a count = List.replicate count fill := by
  refine List.eq_replicate_of_mem (fun x hx => ?_) |>.trans (by rw [readings, List.length_map, List.length_range])
  obtain ⟨i, hi, rfl⟩ := List.mem_map.mp hx
  have hi := List.mem_range.mp hi
  rw [h _ (by omega) (by omega), Option.getD_none]

/-- Addresses below all pages are free. -/
theorem Layout.contents_below (h : Layout (p :: rest)) {x : Int} (hx : x < p.base.toInt) :
    contents (p :: rest) x = none := by
  refine contents_eq_none.mpr fun q hq => Page.content?_eq_none_of_lt ?_
  have hbase := (show Layout ([] ++ p :: rest) from h).base_le q hq
  omega

/-- A page that has ended is passed over. -/
theorem readings_cons_behind {count : Nat} (h : p.reach ≤ a) :
    readings fill (p :: rest) a count = readings fill rest a count := by
  refine readings_congr fun x hx _ => ?_
  rw [contents_cons, Page.content?_eq_none_of_le (by omega), Option.none_or]

/-- In front of a page there are no cells. -/
theorem readings_cons_ahead (h : Layout (p :: rest)) {gap : Nat} (hgap : a + gap = p.base.toInt)
    (later : Nat) : readings fill (p :: rest) a (gap + later)
      = List.replicate gap fill ++ readings fill (p :: rest) p.base.toInt later := by
  rw [readings_add, hgap, readings_of_free fun x _ hx => h.contents_below (by omega)]

/-- From an address inside of a page on the cells of the page are read, up to its end. -/
theorem readings_cons_inside {offset : Nat} (ha : p.base.toInt + offset = a) (count : Nat) :
    readings fill (p :: rest) a count
      = (p.cells.drop offset).take (min count (p.cells.length - offset))
        ++ readings fill rest (a + (min count (p.cells.length - offset) : Nat))
          (count - min count (p.cells.length - offset)) := by
  generalize hn : min count (p.cells.length - offset) = n
  have hfound : readings fill (p :: rest) a n = (p.cells.drop offset).take n := by
    refine List.ext_getElem ?_ fun i hi hi' => ?_
    · rw [readings, List.length_map, List.length_range, List.length_take, List.length_drop]
      omega
    · rw [readings, List.length_map, List.length_range] at hi
      have hcell : p.content? (a + i) = p.cells[offset + i]? := by
        rw [Page.content?_of_le (by omega)]
        congr 1
        omega
      simp only [readings, List.getElem_map, List.getElem_range, List.getElem_take, List.getElem_drop]
      rw [contents_cons, hcell, List.getElem?_eq_getElem (by omega), Option.some_or, Option.getD_some]
  have hlater : readings fill (p :: rest) (a + n) (count - n) = readings fill rest (a + n) (count - n) := by
    by_cases hlast : count - n = 0
    · rw [hlast]
      rfl
    · exact readings_cons_behind (by unfold Page.reach; omega)
  have hcount : n + (count - n) = count := by omega
  rw [← hfound, ← hlater, ← readings_add, hcount]

end

/-! ## Laying pages over a buffer -/

namespace Cells

theorem suffix?_of_le {xs : List α} {i : Int64} {k : Nat} (hi : i.toInt = k) (hk : k ≤ xs.length) :
    suffix? xs i = some (xs.drop k) := by
  have hnat : i.toNatClampNeg = k := by
    rw [← Int64.toNat_toInt, hi]
    rfl
  rw [suffix?, if_pos ⟨by rw [Int64.le_iff_toInt_le, hi]; exact Int.natCast_nonneg k, by omega⟩, hnat]

section

/-- Lays pages over a buffer for the addresses from `address` up to `stop`. -/
def overlayPages (stop : Int64) (pages : List (Page α)) (address : Int64) (buffer : List α) :
    Option (List α) :=
  overlay stop (pages.map Page.base) (pages.map Page.cells) address buffer

variable {stop address : Int64} {p : Page α} {rest : List (Page α)} {buffer : List α}

theorem overlayPages_nil : overlayPages stop [] address buffer = some buffer := by
  rw [overlayPages, List.map_nil, overlay]

theorem overlayPages_cons : overlayPages stop (p :: rest) address buffer
    = if address < stop ∧ p.base < stop then
        let skip := address - p.base
        if 0 < skip then
          if .ofNat p.cells.length ≤ skip then overlayPages stop rest address buffer
          else do
            let cells ← suffix? p.cells skip
            let count := min buffer.length cells.length
            let later ← overlayPages stop rest (address + .ofNat count) (buffer.drop count)
            return cells.take count ++ later
        else do
          let ahead ← suffix? buffer (-skip)
          let count := min ahead.length p.cells.length
          let later ← overlayPages stop rest (p.base + .ofNat count) (ahead.drop count)
          return buffer.take (-skip).toNatClampNeg ++ p.cells.take count ++ later
      else some buffer := by
  rw [overlayPages, List.map_cons, List.map_cons, overlay]
  rfl

theorem overlay_over (h : ¬ (address < stop ∧ p.base < stop)) :
    overlayPages stop (p :: rest) address buffer = some buffer := by
  rw [overlayPages_cons, if_neg h]

/-- A page that ends below the window is passed over. -/
theorem overlay_pass (h : address < stop ∧ p.base < stop) (hskip : 0 < address - p.base)
    (hbehind : .ofNat p.cells.length ≤ address - p.base) :
    overlayPages stop (p :: rest) address buffer = overlayPages stop rest address buffer := by
  rw [overlayPages_cons, if_pos h]
  dsimp only
  rw [if_pos hskip, if_pos hbehind]

/-- The window begins inside of the page. -/
theorem overlay_inside (h : address < stop ∧ p.base < stop) (hskip : 0 < address - p.base)
    (hreach : ¬ .ofNat p.cells.length ≤ address - p.base) {offset : Nat} (hoffset : (address - p.base).toInt = offset)
    (hle : offset ≤ p.cells.length) {n : Nat} (hn : min buffer.length (p.cells.length - offset) = n) :
    overlayPages stop (p :: rest) address buffer
      = (overlayPages stop rest (address + .ofNat n) (buffer.drop n)).map
          ((p.cells.drop offset).take n ++ ·) := by
  rw [overlayPages_cons, if_pos h]
  dsimp only
  rw [if_pos hskip, if_neg hreach, suffix?_of_le hoffset hle]
  simp only [Option.bind_eq_bind, Option.bind_some, List.length_drop, hn]
  cases overlayPages stop rest (address + .ofNat n) (buffer.drop n) <;> rfl

/-- The page begins inside of the window, or where it begins. -/
theorem overlay_ahead (h : address < stop ∧ p.base < stop) (hskip : ¬ 0 < address - p.base)
    {gap : Nat} (hgap : (-(address - p.base)).toInt = gap) (hle : gap ≤ buffer.length)
    {n : Nat} (hn : min (buffer.length - gap) p.cells.length = n) :
    overlayPages stop (p :: rest) address buffer
      = (overlayPages stop rest (p.base + .ofNat n) ((buffer.drop gap).drop n)).map
          (buffer.take gap ++ p.cells.take n ++ ·) := by
  have hnat : (-(address - p.base)).toNatClampNeg = gap := by
    rw [← Int64.toNat_toInt, hgap]
    rfl
  rw [overlayPages_cons, if_pos h]
  dsimp only
  rw [if_neg hskip, suffix?_of_le hgap hle, hnat]
  simp only [Option.bind_eq_bind, Option.bind_some, List.length_drop, hn]
  cases overlayPages stop rest (p.base + .ofNat n) ((buffer.drop gap).drop n) <;> rfl

end

/-- Laying pages over a window of fill values up to `stop` is never out of range, and gives what the cells
read as. -/
def Lays (fill : α) (stop : Int64) (pages : List (Page α)) : Prop :=
  ∀ ⦃address : Int64⦄ ⦃count : Nat⦄, count < 9223372036854775808 → stop.toInt = address.toInt + count →
    overlayPages stop pages address (List.replicate count fill) = some (readings fill pages address.toInt count)

namespace Lays

variable {fill : α} {stop address : Int64} {p : Page α} {rest : List (Page α)} {count : Nat}

/-- What the pages hold of the window once its first `n` cells are read. -/
theorem advance (h : Lays fill stop rest) {n : Nat} (hn : n ≤ count) (hshort : count < 9223372036854775808)
    (hstop : stop.toInt = address.toInt + count) :
    overlayPages stop rest (address + .ofNat n) (List.replicate (count - n) fill)
      = some (readings fill rest (address.toInt + n) (count - n)) := by
  have hhigh := stop.toInt_lt
  have hlow := address.le_toInt
  have hcell : (Int64.ofNat n).toInt = n := Int64.toInt_ofNat_of_lt (by omega)
  have hadvance : (address + .ofNat n).toInt = address.toInt + n := by
    rw [toInt_add_of_inside, hcell] <;> rw [hcell] <;> omega
  rw [← hadvance]
  exact h (by omega) (by omega)

/-- The window begins inside of the first page. -/
theorem inside (h : Lays fill stop rest) (hopen : address < stop ∧ p.base < stop)
    (hskip : (address - p.base).toInt = address.toInt - p.base.toInt) (hp : p.Sound)
    (hinside : p.base.toInt < address.toInt) (hreach : address.toInt < p.reach)
    (hshort : count < 9223372036854775808) (hstop : stop.toInt = address.toInt + count) :
    overlayPages stop (p :: rest) address (List.replicate count fill)
      = some (readings fill (p :: rest) address.toInt count) := by
  obtain ⟨offset, hoffset⟩ : ∃ offset : Nat, p.base.toInt + offset = address.toInt :=
    ⟨(address.toInt - p.base.toInt).toNat, by omega⟩
  have hle : offset ≤ p.cells.length := by
    unfold Page.reach at hreach
    omega
  have hpositive : 0 < address - p.base := by
    rw [Int64.lt_iff_toInt_lt, hskip]
    exact Int.sub_pos.mpr hinside
  have hahead : ¬ .ofNat p.cells.length ≤ address - p.base := by
    rw [Int64.le_iff_toInt_le, hskip, Int64.toInt_ofNat_of_lt hp.short]
    unfold Page.reach at hreach
    omega
  rw [overlay_inside hopen hpositive hahead (by omega) hle rfl, readings_cons_inside hoffset,
    List.length_replicate, List.drop_replicate, h.advance (Nat.min_le_left _ _) hshort hstop]
  rfl

/-- The first page begins inside of the window, or where it begins. -/
theorem ahead (h : Lays fill stop rest) (hlayout : Layout (p :: rest)) (hopen : address < stop ∧ p.base < stop)
    (hskip : (address - p.base).toInt = address.toInt - p.base.toInt)
    (hahead : address.toInt ≤ p.base.toInt) (hshort : count < 9223372036854775808)
    (hstop : stop.toInt = address.toInt + count) :
    overlayPages stop (p :: rest) address (List.replicate count fill)
      = some (readings fill (p :: rest) address.toInt count) := by
  have hbase := Int64.lt_iff_toInt_lt.mp hopen.2
  obtain ⟨gap, hgap⟩ : ∃ gap : Nat, address.toInt + gap = p.base.toInt :=
    ⟨(p.base.toInt - address.toInt).toNat, by omega⟩
  obtain ⟨left, rfl⟩ : ∃ left, count = gap + left := ⟨count - gap, by omega⟩
  have hback : (-(address - p.base)).toInt = gap := by
    rw [Int64.toInt_neg, hskip, Int.bmod_eq_of_le] <;> omega
  have hnegative : ¬ 0 < address - p.base := by
    rw [Int64.lt_iff_toInt_lt, hskip]
    exact mt Int.sub_pos.mp (by omega)
  have hpage : p.base.toInt + (0 : Nat) = p.base.toInt := Int.add_zero _
  rw [overlay_ahead hopen hnegative hback (by simp) rfl, readings_cons_ahead hlayout hgap,
    readings_cons_inside hpage, List.length_replicate, List.drop_replicate, Nat.add_sub_cancel_left,
    List.drop_replicate, Nat.sub_zero, h.advance (Nat.min_le_left _ _) (by omega) (by omega),
    List.take_replicate, Nat.min_eq_left (Nat.le_add_right _ _), List.drop_zero, Option.map_some,
    List.append_assoc]

/-- One more page in front, less than 2⁶³ below the end of the window. -/
theorem cons (h : Lays fill stop rest) (hlayout : Layout (p :: rest))
    (hnear : stop.toInt - p.base.toInt < 9223372036854775808) : Lays fill stop (p :: rest) := by
  intro address count hshort hstop
  have hp : p.Sound := hlayout.sound p List.mem_cons_self
  by_cases hopen : address.toInt < stop.toInt ∧ p.base.toInt < stop.toInt
  · have hopen' : address < stop ∧ p.base < stop := by
      rwa [Int64.lt_iff_toInt_lt, Int64.lt_iff_toInt_lt]
    have hskip : (address - p.base).toInt = address.toInt - p.base.toInt :=
      toInt_sub_of_inside (by omega) (by omega)
    -- the page ends before the window, the window begins inside of it, or the other way round
    by_cases hinside : p.base.toInt < address.toInt
    · by_cases hreach : p.reach ≤ address.toInt
      · have hpositive : 0 < address - p.base := by
          rw [Int64.lt_iff_toInt_lt, hskip]
          exact Int.sub_pos.mpr hinside
        have hbehind : .ofNat p.cells.length ≤ address - p.base := by
          rw [Int64.le_iff_toInt_le, hskip, Int64.toInt_ofNat_of_lt hp.short]
          unfold Page.reach at hreach
          omega
        rw [overlay_pass hopen' hpositive hbehind, readings_cons_behind hreach]
        exact h hshort hstop
      · exact h.inside hopen' hskip hp hinside (Int.not_le.mp hreach) hshort hstop
    · exact h.ahead hlayout hopen' hskip (Int.not_lt.mp hinside) hshort hstop
  · rw [overlay_over (by rwa [Int64.lt_iff_toInt_lt, Int64.lt_iff_toInt_lt]),
      readings_of_free fun x _ _ => hlayout.contents_below (by omega)]

end Lays

theorem lays_of_near {fill : α} {stop : Int64} {pages : List (Page α)} (h : Layout pages)
    (hnear : ∀ p ∈ pages, stop.toInt - p.base.toInt < 9223372036854775808) : Lays fill stop pages := by
  induction pages with
  | nil =>
      intro address count _ _
      rw [overlayPages_nil, readings_of_free fun _ _ _ => rfl]
  | cons p rest ih =>
      have hrest : Layout rest :=
        ⟨(List.pairwise_cons.mp h.apart).2, fun q hq => h.sound q (List.mem_cons_of_mem _ hq)⟩
      have hlater := ih hrest fun q hq => hnear q (List.mem_cons_of_mem _ hq)
      exact hlater.cons h (hnear p List.mem_cons_self)

/-! ## Bulk loads and single loads -/

/-- Pages that end below an address do not matter from there on. -/
theorem readings_drop_pageAt {m : Cells α} (h : m.Laid) (address : Int64) (count : Nat) :
    readings m.fill (m.pages.drop (m.pageAt address)) address.toInt count
      = readings m.fill m.pages address.toInt count := by
  have hspot := spot_pageAt h address
  refine readings_congr fun x hx _ => ?_
  have hfront : contents (m.pages.take (m.pageAt address)) x = none := by
    refine contents_eq_none.mpr fun p hp => Page.content?_eq_none_of_le ?_
    have hreach := hspot.before p hp
    omega
  conv => rhs; rw [hspot.split]
  rw [contents_append, hfront, Option.none_or]

/-- The check of the limit lets an address pass if it lets a higher one pass. -/
theorem checkLimit_of_le {m : Cells α} {a b : Int64} (h : a ≤ b) (hb : m.checkLimit b = .ok ()) :
    m.checkLimit a = .ok () := by
  cases hlimit : m.limit with
  | none => rw [PageTable.checkLimit, hlimit]
  | some limit =>
      simp only [PageTable.checkLimit, hlimit] at hb ⊢
      split at hb
      · cases hb
      · rename_i hle
        rw [if_neg (Int64.not_lt.mpr (Int64.le_trans h (Int64.not_lt.mp hle)))]

/-- A bulk load over a window in which no address wraps around. -/
theorem loadInto_eq {m : Cells α} (h : Modest m) {address last : Int64} {buffer : List α}
    (hbuffer : buffer ≠ []) (hfirst : address.toInt.natAbs ≤ 2305843009213693952)
    (hlast : last.toInt = address.toInt + buffer.length - 1)
    (hbound : last.toInt.natAbs ≤ 2305843009213693952) :
    m.loadInto address buffer = match m.checkLimit last with
      | .error e => some (.error e, buffer)
      | .ok () => some (.ok (), readings m.fill m.pages address.toInt buffer.length) := by
  have hlength := List.length_pos_iff.mpr hbuffer
  have hshort : (Int64.ofNat buffer.length).toInt = buffer.length :=
    Int64.toInt_ofNat_of_lt (by omega)
  have hstop : (address + .ofNat buffer.length).toInt = address.toInt + buffer.length := by
    rw [toInt_add_of_inside, hshort] <;> rw [hshort] <;> omega
  have hone : (1 : Int64).toInt = 1 := rfl
  have hend : address + .ofNat buffer.length - 1 = last := by
    rw [← Int64.toInt_inj, toInt_sub_of_inside, hstop, hlast, hone] <;> rw [hstop, hone] <;> omega
  have hlayout : Layout (m.pages.drop (m.pageAt address)) :=
    ⟨h.laid.layout.apart.sublist (List.drop_sublist _ _),
      fun p hp => h.laid.layout.sound p (List.mem_of_mem_drop hp)⟩
  have hoverlay : overlay (address + .ofNat buffer.length) (m.bases.drop (m.pageAt address))
      (m.blocks.drop (m.pageAt address)) address (buffer.map fun _ => m.fill)
        = some (readings m.fill m.pages address.toInt buffer.length) := by
    rw [List.map_const', ← readings_drop_pageAt h.laid, ← h.laid.even.map_base, ← h.laid.even.map_cells,
      ← List.map_drop, ← List.map_drop]
    refine lays_of_near hlayout (fun p hp => ?_) (by omega) hstop
    have hbase := h.bases p (List.mem_of_mem_drop hp)
    omega
  rw [loadInto, if_neg (by simpa using hbuffer)]
  dsimp only
  rw [hend, hoverlay]
  cases m.checkLimit last <;> rfl

end Cells

/-- With addresses and page sizes up to 2⁶¹, a bulk load leaves the bounds of no list, and agrees with
single loads: it fails if one of these fails, and the buffer is then as it was; else the buffer is what
they give. -/
theorem loadInto_eq_loads [Scalar α] {pageSize : Int64} {fill : α} {limit : Option Int64}
    {history : List (Access α)} {address : Int64} {buffer : List α}
    (hsize : pageSize.toInt.natAbs ≤ 2305843009213693952)
    (hwithin : ∀ access ∈ history, access.Within 2305843009213693952)
    (hfirst : address.toInt.natAbs ≤ 2305843009213693952)
    (hlast : (address.toInt + buffer.length - 1).natAbs ≤ 2305843009213693952) :
    let m := (Cells.empty pageSize fill limit).after history
    let loads := (List.range buffer.length).map fun i => m.load (address + .ofNat i)
    ∃ outcome loaded, m.loadInto address buffer = some (outcome, loaded) ∧
      ((∃ e, outcome = .error e) ↔ ∃ e, .error e ∈ loads) ∧
      ((∃ e, outcome = .error e) → loaded = buffer) ∧
      (outcome = .ok () → loads = loaded.map .ok) := by
  intro m loads
  have hmodest : Modest m := (Modest.empty hsize fill limit).after hwithin
  by_cases hbuffer : buffer = []
  · subst hbuffer
    exact ⟨.ok (), [], rfl, by simp [loads], by simp, fun _ => rfl⟩
  have hlength := List.length_pos_iff.mpr hbuffer
  -- the addresses of the window do not wrap around
  have hinside : ∀ i < buffer.length, (address + .ofNat i).toInt = address.toInt + i := by
    intro i hi
    have hshort : (Int64.ofNat i).toInt = i := Int64.toInt_ofNat_of_lt (by omega)
    rw [toInt_add_of_inside, hshort] <;> rw [hshort] <;> omega
  have hloads : ∀ i < buffer.length, m.load (address + .ofNat i)
      = (m.checkLimit (address + .ofNat i)).map fun _ =>
        (contents m.pages (address.toInt + i)).getD m.fill := by
    intro i hi
    rw [Cells.load_eq_map hmodest.laid, hinside i hi]
  have hend := hinside (buffer.length - 1) (by omega)
  have hload := @Cells.loadInto_eq α m hmodest address (address + .ofNat (buffer.length - 1)) buffer hbuffer
    hfirst (by omega) (by omega)
  cases hcheck : m.checkLimit (address + .ofNat (buffer.length - 1)) with
  | error e =>
      rw [hcheck] at hload
      refine ⟨.error e, buffer, hload, ⟨fun _ => ⟨e, ?_⟩, fun _ => ⟨e, rfl⟩⟩, fun _ => rfl, nofun⟩
      refine List.mem_map.mpr ⟨buffer.length - 1, List.mem_range.mpr (by omega), ?_⟩
      rw [hloads _ (by omega), hcheck]
      rfl
  | ok _ =>
      rw [hcheck] at hload
      have hall : loads = (readings m.fill m.pages address.toInt buffer.length).map .ok := by
        rw [readings, List.map_map]
        refine List.map_congr_left fun i hi => ?_
        have hi := List.mem_range.mp hi
        have hle : address + .ofNat i ≤ address + .ofNat (buffer.length - 1) := by
          rw [Int64.le_iff_toInt_le, hinside i hi, hend]
          omega
        rw [hloads i hi, Cells.checkLimit_of_le hle hcheck]
        rfl
      refine ⟨.ok (), _, hload, ?_, nofun, fun _ => hall⟩
      rw [hall]
      simp

/-- Three pages, the last one smaller than the others and apart from them. -/
def scatteredStores : List (Access Number) := [.store (-3) [1, 2, 3, 4, 5, 6], .resize 2, .store 9 [7]]

/-- A window that begins below the first page and ends above the last, and one that begins inside of a
page and ends past the limit. -/
theorem scatteredStores_loadInto :
    let m := (Cells.empty 4 0 (some 12)).after scatteredStores
    (∃ loaded, m.loadInto (-5) (List.replicate 16 8) = some (.ok (), loaded) ∧
        (List.range 16).map (fun i => m.load (-5 + .ofNat i)) = loaded.map .ok ∧
        loaded = [0, 0, 1, 2, 3, 4, 5, 6, 0, 0, 0, 0, 0, 0, 7, 0]) ∧
      ∃ e, m.loadInto 9 [8, 8, 8, 8, 8] = some (.error e, [8, 8, 8, 8, 8]) := by
  intro m
  have hsize : (4 : Int64).toInt.natAbs ≤ 2305843009213693952 := by decide
  have hwithin : ∀ access ∈ scatteredStores, access.Within 2305843009213693952 := by decide
  have hwide : (m.loadInto (-5) (List.replicate 16 8)).map (fun r => (r.1.toOption, r.2))
      = some (some (), [0, 0, 1, 2, 3, 4, 5, 6, 0, 0, 0, 0, 0, 0, 7, 0]) := by decide +kernel
  have hpast : (m.loadInto 9 [8, 8, 8, 8, 8]).map (fun r => r.1.toOption) = some none := by
    decide +kernel
  constructor
  · obtain ⟨outcome, loaded, hload, -, -, hloads⟩ : ∃ outcome loaded,
        m.loadInto (-5) (List.replicate 16 8) = some (outcome, loaded) ∧ _ ∧ _ ∧ _ :=
      loadInto_eq_loads hsize hwithin (by decide) (by decide)
    rw [hload] at hwide
    cases outcome with
    | error e => cases hwide
    | ok _ => exact ⟨loaded, hload, hloads rfl, congrArg Prod.snd (Option.some.inj hwide)⟩
  · obtain ⟨outcome, loaded, hload, -, hkept, -⟩ : ∃ outcome loaded,
        m.loadInto 9 [8, 8, 8, 8, 8] = some (outcome, loaded) ∧ _ ∧ _ ∧ _ :=
      loadInto_eq_loads hsize hwithin (by decide) (by decide)
    rw [hload] at hpast
    cases outcome with
    | error e => exact ⟨e, by rw [hload, hkept ⟨e, rfl⟩]⟩
    | ok _ => cases hpast

end Linewise
