import Linewise.Proofs.Splicing
import Linewise.Proofs.Wrapping
import Linewise.Tape.Numeric

/-!
# Values within bounds

Whatever is done with a tape, a cell holds the default or what a write has returned: a store puts nothing into
pages but what is stored and what new pages are made of (`Cells.Holding.store`), wherever the pages are.
What a write returns is the value reduced modulo the length of the range, so it is within the bounds if some
value within them differs by a multiple of that length (`Reducible`). Between whole bounds these are the
whole values, but not all fractions: what is left above the upper bound by less than one stays there.
-/

namespace Linewise

/-- What is in a page after a write was there or is written. -/
theorem Page.mem_write {α : Type} {p : Page α} {x : α} {offset : Nat} {values : List α}
    (h : x ∈ (p.write offset values).1.cells) : x ∈ p.cells ∨ x ∈ values := by
  simp only [write, List.mem_append] at h
  rcases h with (h | h) | h
  · exact .inl (List.mem_of_mem_take h)
  · exact .inr (List.mem_of_mem_take h)
  · exact .inl (List.mem_of_mem_drop h)

namespace Cells

variable {α : Type} [Scalar α] {P : α → Prop} {m : Cells α} {address : Int64} {values : List α} {x : α}

omit [Scalar α] in
theorem mem_of_cellFrom? {base : Int64} {cells : List α} (h : cellFrom? base cells address = some x) :
    x ∈ cells := by
  simp only [cellFrom?] at h
  split at h
  · exact List.mem_of_getElem? h
  · cases h

omit [Scalar α] in
theorem mem_of_entriesFrom {base : Int64} {cells : List α} (h : (address, x) ∈ entriesFrom base cells) :
    x ∈ cells := by
  obtain ⟨⟨y, i⟩, hy, heq⟩ := List.mem_map.mp h
  obtain ⟨-, rfl⟩ := Prod.mk.inj heq
  exact List.fst_mem_of_mem_zipIdx hy

/-- A memory that has nothing but `P` in its cells, allocated or not, and makes new pages of it. -/
structure Holding (P : α → Prop) (m : Cells α) : Prop where
  fill : P m.fill
  blank : P m.blank
  cells : ∀ block ∈ m.blocks, ∀ x ∈ block, P x

namespace Holding

theorem empty (pageSize : Int64) {fill : α} (limit : Option Int64) (hfill : P fill)
    (hblank : P (Cells.empty pageSize fill limit).blank) : Holding P (.empty pageSize fill limit) :=
  ⟨hfill, hblank, nofun⟩

theorem mono {Q : α → Prop} (h : Holding P m) (hPQ : ∀ x, P x → Q x) : Holding Q m :=
  ⟨hPQ _ h.fill, hPQ _ h.blank, fun block hblock x hx => hPQ x (h.cells block hblock x hx)⟩

theorem ensurePage (h : Holding P m) (i : Nat) (address : Int64) :
    Holding P (m.ensurePage i address).2 ∧ ∀ x ∈ (m.ensurePage i address).1.cells, P x := by
  rcases m.ensurePage_cases i address with ⟨base, size, -, -, -, hensure⟩ | ⟨-, hensure⟩
  · rw [hensure]
    refine ⟨h, fun x hx => ?_⟩
    cases hblock : m.blocks[i]? with
    | none =>
        rw [hblock] at hx
        cases hx
    | some block =>
        rw [hblock] at hx
        exact h.cells block (List.mem_of_getElem? hblock) x hx
  · rw [hensure]
    have hnew : ∀ x ∈ (m.newPage i address).cells, P x := by
      intro x hx
      rw [List.eq_of_mem_replicate hx]
      exact h.blank
    refine ⟨⟨h.fill, h.blank, fun block hblock => ?_⟩, hnew⟩
    rcases List.eq_or_mem_of_mem_insertIdx hblock with rfl | hblock
    · exact hnew
    · exact h.cells block hblock

theorem storeTurn (h : Holding P m) (i : Nat) (address : Int64) (hvalues : ∀ x ∈ values, P x) :
    Holding P (m.storeTurn i address values).1 ∧ ∀ x ∈ (m.storeTurn i address values).2.2, P x := by
  obtain ⟨hm, hpage⟩ := h.ensurePage i address
  simp only [Cells.storeTurn]
  split
  · exact ⟨hm, hvalues⟩
  · refine ⟨⟨hm.fill, hm.blank, fun block hblock => ?_⟩, fun x hx => hvalues x (List.mem_of_mem_drop hx)⟩
    rcases List.mem_or_eq_of_mem_set hblock with hblock | rfl
    · exact hm.cells block hblock
    · intro x hx
      rcases Page.mem_write hx with hx | hx
      · exact hpage x hx
      · exact hvalues x hx

theorem storeFrom (stop : Int64) (fuel : Nat) (h : Holding P m) (i : Nat) (address : Int64)
    (hvalues : ∀ x ∈ values, P x) : Holding P (Cells.storeFrom stop fuel m i address values) := by
  -- a turn keeps to `P` whichever page it comes to, so neither the layout nor the fuel matters
  induction fuel generalizing m i address values with
  | zero => exact h
  | succ fuel ih =>
      rw [Cells.storeFrom]
      split
      · obtain ⟨hm, hrest⟩ := h.storeTurn i address hvalues
        exact ih hm (i + 1) _ hrest
      · exact h

/-- A store puts nothing into cells but what is stored and what new pages are made of. -/
theorem store (h : Holding P m) (address : Int64) (hvalues : ∀ x ∈ values, P x) :
    Holding P (m.store address values) :=
  h.storeFrom _ _ _ address hvalues

theorem lookup (h : Holding P m) (hx : m.lookup address = some x) : P x := by
  obtain ⟨base, -, hread⟩ := Option.bind_eq_some_iff.mp hx
  obtain ⟨cells, hcells, hcell⟩ := Option.bind_eq_some_iff.mp hread
  exact h.cells cells (List.mem_of_getElem? hcells) x (mem_of_cellFrom? hcell)

theorem load (h : Holding P m) (hx : m.load address = .ok x) : P x := by
  cases hlimit : m.checkLimit address with
  | error e =>
      rw [Cells.load, hlimit] at hx
      cases hx
  | ok _ =>
      rw [Cells.load, hlimit] at hx
      obtain rfl : (m.lookup address).getD m.fill = x := Except.ok.inj hx
      cases hlookup : m.lookup address with
      | none => exact h.fill
      | some y => exact h.lookup hlookup

theorem entries (h : Holding P m) (hx : (address, x) ∈ m.entries) : P x := by
  obtain ⟨⟨base, cells⟩, hpage, hentry⟩ := List.mem_flatMap.mp hx
  exact h.cells cells (List.of_mem_zip hpage).2 x (mem_of_entriesFrom hentry)

end Holding

end Cells

namespace Tape

/-! ## What a tape holds -/

section

variable {α : Type} [Scalar α] {t t₀ t' : Tape α} {x : α} {history : List (α × α)}

/-- A tape that nothing was done with. -/
def Fresh (t : Tape α) : Prop := ∃ pageSize limit, t.cells = .empty pageSize t.default limit

/-- The tapes that a fresh one becomes when its pointer is moved, cells are read and values are written;
with the values that were written, each before what the write returned, the latest first. A reading that
fails changes nothing. -/
inductive Reached (t₀ : Tape α) : List (α × α) → Tape α → Prop where
  | start : Reached t₀ [] t₀
  | move {history : List (α × α)} {t : Tape α} (pointer : α) :
      Reached t₀ history t → Reached t₀ history { t with pointer }
  | get {history : List (α × α)} {t t' : Tape α} {x : α} :
      Reached t₀ history t → t.get = .ok (x, t') → Reached t₀ history t'
  | set {history : List (α × α)} {t : Tape α} (value : α) :
      Reached t₀ history t → Reached t₀ ((value, (t.set value).1) :: history) (t.set value).2

/-- What can be in a cell: the default, what new pages are made of, or what a write returned. -/
def Origin (t₀ : Tape α) (history : List (α × α)) (x : α) : Prop :=
  x = t₀.default ∨ x = t₀.cells.blank ∨ ∃ value, (value, x) ∈ history

/-- A tape with the bounds and the default it started with, and what it has in its cells. -/
structure Kept (t₀ : Tape α) (history : List (α × α)) (t : Tape α) : Prop where
  frame : t = { t₀ with pointer := t.pointer, cells := t.cells }
  returned : ∀ entry ∈ history, entry.2 = wrap t₀.min t₀.max entry.1
  cells : t.cells.Holding (Origin t₀ history)

theorem get_eq_ok (h : t.get = .ok (x, t')) :
    t' = t ∨ ∃ a, t' = { t with cells := t.cells.store a [t.default] } := by
  simp only [get] at h
  repeat' split at h
  all_goals cases h
  · exact .inl rfl
  · exact .inl rfl
  · exact .inr ⟨_, rfl⟩

theorem set_eq (t : Tape α) (value : α) : (t.set value).1 = wrap t.min t.max value ∧
    ((t.set value).2 = t ∨
      ∃ a, (t.set value).2 = { t with cells := t.cells.store a [wrap t.min t.max value] }) := by
  simp only [set]
  split
  · exact ⟨rfl, .inl rfl⟩
  · exact ⟨rfl, .inr ⟨_, rfl⟩⟩

theorem Fresh.kept (h : t₀.Fresh) : Kept t₀ [] t₀ where
  frame := rfl
  returned := nofun
  cells := by
    obtain ⟨pageSize, limit, hcells⟩ := h
    refine ⟨.inl ?_, .inr (.inl rfl), ?_⟩ <;> rw [hcells]
    · rfl
    · nofun

namespace Kept

theorem move (h : Kept t₀ history t) (pointer : α) : Kept t₀ history { t with pointer } :=
  ⟨by rw [h.frame], h.returned, h.cells⟩

/-- A reading stores the default at most. -/
theorem get (h : Kept t₀ history t) (hget : t.get = .ok (x, t')) : Kept t₀ history t' := by
  rcases get_eq_ok hget with rfl | ⟨a, rfl⟩
  · exact h
  · have hdefault : t.default = t₀.default := by rw [h.frame]
    refine ⟨by rw [h.frame], h.returned, h.cells.store a fun y hy => ?_⟩
    rw [List.mem_singleton.mp hy]
    exact .inl hdefault

/-- A write stores what it returns at most. -/
theorem set (h : Kept t₀ history t) (value : α) :
    Kept t₀ ((value, (t.set value).1) :: history) (t.set value).2 := by
  obtain ⟨hreturned, htape⟩ := set_eq t value
  have hmin : t.min = t₀.min := by rw [h.frame]
  have hmax : t.max = t₀.max := by rw [h.frame]
  rw [hmin, hmax] at hreturned htape
  have hentries : ∀ entry ∈ (value, (t.set value).1) :: history, entry.2 = wrap t₀.min t₀.max entry.1 :=
    List.forall_mem_cons.mpr ⟨hreturned, h.returned⟩
  have hcells : t.cells.Holding (Origin t₀ ((value, (t.set value).1) :: history)) := by
    refine h.cells.mono fun y hy => hy.imp_right (.imp_right ?_)
    rintro ⟨v, hv⟩
    exact ⟨v, List.mem_cons_of_mem _ hv⟩
  rcases htape with htape | ⟨a, htape⟩
  · exact ⟨by rw [htape]; exact h.frame, hentries, by rw [htape]; exact hcells⟩
  · rw [htape]
    refine ⟨by rw [h.frame], hentries, hcells.store a fun y hy => ?_⟩
    rw [List.mem_singleton.mp hy, ← hreturned]
    exact .inr (.inr ⟨value, List.mem_cons_self⟩)

end Kept

/-- A value that an allocated cell has, or that is loaded from a cell. -/
def Shows (t : Tape α) (x : α) : Prop := (∃ a, (a, x) ∈ t.cells.entries) ∨ ∃ a, t.cells.load a = .ok x

theorem Kept.shows (h : Kept t₀ history t) (hx : t.Shows x) : Origin t₀ history x := by
  rcases hx with ⟨a, hx⟩ | ⟨a, hx⟩
  · exact h.cells.entries hx
  · exact h.cells.load hx

theorem Reached.kept (hfresh : t₀.Fresh) (h : Reached t₀ history t) : Kept t₀ history t := by
  -- on what was done last: only a write adds an origin, and it is the value that it returned
  induction h with
  | start => exact hfresh.kept
  | move pointer _ ih => exact ih.move pointer
  | get _ hget ih => exact ih.get hget
  | set value _ ih => exact ih.set value

end

end Tape

/-! ## Exact tapes -/

/-- Some value from `lo` to `hi` differs from `v` by a multiple of the length of the range. -/
def Reducible (lo hi v : ℚ) : Prop := ∃ k : ℤ, lo ≤ v - k * (hi - lo + 1) ∧ v - k * (hi - lo + 1) ≤ hi

theorem reduced_le_iff {lo hi v : ℚ} (hle : lo ≤ hi) : reduced lo hi v ≤ hi ↔ Reducible lo hi v := by
  constructor
  · intro h
    exact ⟨_, le_reduced (by linarith), h⟩
  · rintro ⟨k, hlower, hupper⟩
    rw [← eq_reduced hlower (by linarith)]
    exact hupper

/-- Between whole bounds every whole value is reducible. -/
theorem reducible_whole {lo hi : ℤ} (hle : lo ≤ hi) (v : ℤ) : Reducible lo hi v := by
  rw [← reduced_le_iff (by exact_mod_cast hle), reduced_cast (by omega)]
  have hlt := Int.emod_lt_of_pos (v - lo) (show 0 < hi - lo + 1 by omega)
  norm_cast
  omega

namespace Exact

/-- A rational from `lo` to `hi`. -/
def Within (lo hi : ℚ) (x : Exact) : Prop := ∃ q, x = .finite q ∧ lo ≤ q ∧ q ≤ hi

theorem wrap_finite {lo hi : ℚ} (hle : lo ≤ hi) (v : ℚ) :
    Tape.wrap (.finite lo) (.finite hi) (.finite v) = Exact.finite (reduced lo hi v) :=
  faithful.wrap_between rfl rfl rfl (by linarith) ⟨trivial, trivial, trivial, trivial, trivial⟩

theorem blank_eq_fill (m : Cells Exact) : m.blank = m.fill := by
  rw [Cells.blank]
  split
  · rename_i hzero
    exact (of_decide_eq_true hzero).symm
  · rfl

end Exact

/-- Between two bounds a write returns a value from the lower bound on that is less than one above the upper
bound, and within the bounds exactly if the written value is reducible; so are all whole values between whole
bounds. A cell shows the default or what a write returned. So, if all written values are reducible, what
writes return and what cells show is within the bounds, the default apart. -/
theorem writes_stay_within {lo hi : ℚ} {t₀ t : Tape Exact} {history : List (Exact × Exact)}
    (hfresh : t₀.Fresh) (hmin : t₀.min = .finite lo) (hmax : t₀.max = .finite hi) (hle : lo ≤ hi)
    (h : Tape.Reached t₀ history t) :
    (∀ v x, (.finite v, x) ∈ history →
        ∃ q, x = .finite q ∧ lo ≤ q ∧ q < hi + 1 ∧ (q ≤ hi ↔ Reducible lo hi v)) ∧
      (∀ x, t.Shows x → x = t₀.default ∨ ∃ v, (v, x) ∈ history) ∧
      (∀ m n v : ℤ, lo = m → hi = n → Reducible lo hi v) ∧
      ((∀ entry ∈ history, ∃ v, entry.1 = .finite v ∧ Reducible lo hi v) →
        (∀ entry ∈ history, entry.2.Within lo hi) ∧ ∀ x, t.Shows x → x = t₀.default ∨ x.Within lo hi) := by
  have hkept := h.kept hfresh
  have hreturned : ∀ v x, (.finite v, x) ∈ history →
      ∃ q, x = .finite q ∧ lo ≤ q ∧ q < hi + 1 ∧ (q ≤ hi ↔ Reducible lo hi v) := by
    intro v x hx
    have hwrap := hkept.returned _ hx
    rw [hmin, hmax, Exact.wrap_finite hle] at hwrap
    exact ⟨_, hwrap, le_reduced (by linarith), reduced_lt (by linarith), reduced_le_iff hle⟩
  have hshown : ∀ x, t.Shows x → x = t₀.default ∨ ∃ v, (v, x) ∈ history := by
    intro x hx
    have hblank : t₀.cells.blank = t₀.default := by
      obtain ⟨pageSize, limit, hcells⟩ := hfresh
      rw [Exact.blank_eq_fill, hcells]
      rfl
    rcases hkept.shows hx with hdefault | hmade | hwritten
    · exact .inl hdefault
    · exact .inl (hmade.trans hblank)
    · exact .inr hwritten
  refine ⟨hreturned, hshown, ?_, fun hreducible => ?_⟩
  · rintro m n v rfl rfl
    exact reducible_whole (by exact_mod_cast hle) v
  · have hwithin : ∀ entry ∈ history, entry.2.Within lo hi := by
      rintro ⟨value, x⟩ hentry
      obtain ⟨v, rfl, hv⟩ := hreducible _ hentry
      obtain ⟨q, hq, hlower, -, hupper⟩ := hreturned v x hentry
      exact ⟨q, hq, hlower, hupper.mpr hv⟩
    refine ⟨hwithin, fun x hx => (hshown x hx).imp_right ?_⟩
    rintro ⟨v, hv⟩
    exact hwithin _ hv

/-- An exact tape with bounds 0 and `hi`, and a default above these. -/
def shortTape (hi : ℚ) : Tape Exact :=
  { size := .infinite false, min := .finite 0, max := .finite hi, default := .finite (hi + 5),
    pointer := .finite 0, cells := .empty 4 (.finite (hi + 5)) (some 9) }

/-- The tape with a fraction above its bounds written, and its pointer moved to a cell beside. -/
def strolledTape : Tape Exact := { ((shortTape 9).set (.finite (23 / 2))).2 with pointer := .finite 2 }

/-- A fraction above the bounds and a whole value below them are written, and a cell is read between. -/
theorem strolledTape_stays_within : ∃ x t, strolledTape.get = .ok (x, t) ∧
    (∀ value ∈ [((shortTape 9).set (.finite (23 / 2))).1, (t.set (.finite (-21))).1], value.Within 0 9) ∧
    ∀ y, (t.set (.finite (-21))).2.Shows y → y = .finite 14 ∨ y.Within 0 9 := by
  have hread : strolledTape.get.toOption.isSome = true := by decide +kernel
  cases hget : strolledTape.get with
  | error e =>
      rw [hget] at hread
      cases hread
  | ok result =>
      obtain ⟨x, t⟩ := result
      have hstart : Tape.Reached (shortTape 9) [] (shortTape 9) := .start
      have hwritten := hstart.set (.finite (23 / 2))
      have hmoved : Tape.Reached (shortTape 9) _ strolledTape := hwritten.move (.finite 2)
      have hreached := (hmoved.get hget).set (.finite (-21))
      have hbounds : (0 : ℚ) ≤ 9 := by norm_num
      obtain ⟨-, -, -, hstay⟩ := writes_stay_within ⟨4, some 9, rfl⟩ rfl rfl hbounds hreached
      have hfraction : Reducible 0 9 (23 / 2) := ⟨1, by norm_num, by norm_num⟩
      have hwhole : Reducible 0 9 (-21) := ⟨-3, by norm_num, by norm_num⟩
      obtain ⟨hreturned, hshown⟩ := hstay (by simp [hfraction, hwhole])
      refine ⟨x, t, rfl, ?_, fun y hy => ?_⟩
      · simpa [and_comm] using hreturned
      · rcases hshown y hy with hdefault | hwithin
        · left
          rw [hdefault, shortTape]
          norm_num
        · exact .inr hwithin

/-- A fraction above the bounds is left there if no value within the bounds is a multiple of the length of
the range away. -/
theorem not_within_always :
    (¬ ∀ (lo hi : ℚ) (t₀ t : Tape Exact) (history : List (Exact × Exact)), t₀.Fresh → t₀.min = .finite lo →
      t₀.max = .finite hi → lo ≤ hi → Tape.Reached t₀ history t → (∀ entry ∈ history, ∃ v, entry.1 = .finite v) →
      ∀ entry ∈ history, entry.2.Within lo hi) ∧
    ((Tape.ofBounds 4 [.infinite false, 0, 0]).set (.ofBits 0x3FE0000000000000)).1
      = .ofBits 0x3FE0000000000000 := by
  refine ⟨fun h => ?_, by decide +kernel⟩
  have hstart : Tape.Reached (shortTape 0) [] (shortTape 0) := .start
  have hreached := hstart.set (.finite (1 / 2))
  obtain ⟨q, hq, -, hupper⟩ :=
    h 0 0 _ _ _ ⟨4, some 9, rfl⟩ rfl rfl le_rfl hreached (by simp) _ List.mem_cons_self
  have hhalf : ((shortTape 0).set (.finite (1 / 2))).1 = .finite (1 / 2) := by decide +kernel
  obtain rfl : 1 / 2 = q := Exact.finite.inj (hhalf.symm.trans hq)
  norm_num at hupper

end Linewise
