import Linewise.Proofs.Allocation

/-!
# Storing into pages

A store goes through the pages from the spot of its address on. Each turn passes over a page, or finds
or makes the page that holds the address and writes as many values as fit. As long as no address that is
computed on the way wraps around (`Cells.Clear`), the turns add up to what a store is meant to do
(`Stored`): the values are where they belong, and nothing else changes, except that cells of new pages
hold the blank value now.
-/

namespace Linewise

variable {α : Type}

/-! ## Writing into a page -/

namespace Page

variable {p : Page α} {offset : Nat} {values : List α}

theorem length_write (h : offset ≤ p.cells.length) :
    (p.write offset values).1.cells.length = p.cells.length := by
  simp only [write, List.length_append, List.length_take, List.length_drop]
  omega

theorem reach_write (h : offset ≤ p.cells.length) : (p.write offset values).1.reach = p.reach := by
  rw [reach, reach, length_write h]
  rfl

theorem Sound.write (hp : p.Sound) (h : offset ≤ p.cells.length) : (p.write offset values).1.Sound where
  sized := by
    rw [length_write h]
    exact hp.sized
  occupied := by
    rw [length_write h]
    exact hp.occupied
  short := by
    rw [length_write h]
    exact hp.short
  inside := by
    rw [reach_write h]
    exact hp.inside

/-- The cells that are written to hold the values. -/
theorem content?_write_inside (h : offset ≤ p.cells.length) {k : Nat}
    (hk : k < (p.write offset values).2) :
    (p.write offset values).1.content? (p.base.toInt + offset + k) = values[k]? := by
  have hbase : (p.write offset values).1.base = p.base := rfl
  have hoffset : (p.base.toInt + offset + k - p.base.toInt).toNat = offset + k := by omega
  simp only [Page.write] at hk
  rw [content?_of_le (by rw [hbase]; omega), hbase, hoffset]
  simp only [Page.write]
  rw [List.getElem?_append_left (by simp only [List.length_append, List.length_take]; omega),
    List.getElem?_append_right (by simp only [List.length_take]; omega), List.length_take,
    List.getElem?_take_of_lt (by omega)]
  congr 1
  omega

/-- The other cells are as they were. -/
theorem content?_write_outside (h : offset ≤ p.cells.length) {b : Int}
    (hb : b < p.base.toInt + offset ∨ p.base.toInt + offset + (p.write offset values).2 ≤ b) :
    (p.write offset values).1.content? b = p.content? b := by
  have hbase : (p.write offset values).1.base = p.base := rfl
  by_cases hle : p.base.toInt ≤ b
  · rw [content?_of_le (by rw [hbase]; exact hle), content?_of_le hle, hbase]
    simp only [Page.write] at hb ⊢
    rcases hb with hb | hb
    · rw [List.append_assoc, List.getElem?_append_left (by simp only [List.length_take]; omega),
        List.getElem?_take_of_lt (by omega)]
    · rw [List.getElem?_append_right (by simp only [List.length_append, List.length_take]; omega),
        List.getElem?_drop]
      congr 1
      simp only [List.length_append, List.length_take]
      omega
  · rw [content?_eq_none_of_lt (by rw [hbase]; omega), content?_eq_none_of_lt (by omega)]

end Page

/-! ## Pages among others -/

section

variable {front rest back : List (Page α)} {p p' : Page α}

theorem Spot.insertIdx {pages : List (Page α)} {i : Nat} {a : Int} (h : Spot pages front rest i a)
    (p : Page α) : pages.insertIdx i p = front ++ p :: rest := by
  obtain ⟨rfl, rfl, -, -⟩ := h
  induction front with
  | nil => rfl
  | cons q front ih => exact congrArg (q :: ·) ih

theorem Layout.insert (h : Layout (front ++ rest)) (hp : p.Sound)
    (hfront : ∀ q ∈ front, q.reach ≤ p.base.toInt) (hrest : ∀ q ∈ rest, p.reach ≤ q.base.toInt) :
    Layout (front ++ p :: rest) where
  apart := by
    obtain ⟨hf, hr, hcross⟩ := List.pairwise_append.mp h.apart
    refine List.pairwise_append.mpr ⟨hf, List.pairwise_cons.mpr ⟨hrest, hr⟩, fun q hq r hr' => ?_⟩
    rcases List.mem_cons.mp hr' with rfl | hr'
    · exact hfront q hq
    · exact hcross q hq r hr'
  sound := by
    intro q hq
    rcases List.mem_append.mp hq with hq | hq
    · exact h.sound q (List.mem_append_left _ hq)
    · rcases List.mem_cons.mp hq with rfl | hq
      · exact hp
      · exact h.sound q (List.mem_append_right _ hq)

/-- A page that is cut out leaves room for one with the same cells. -/
theorem Layout.replace (h : Layout (front ++ p :: back)) (hp : p'.Sound) (hbase : p'.base = p.base)
    (hreach : p'.reach = p.reach) : Layout (front ++ p' :: back) := by
  obtain ⟨hf, hpb, hcross⟩ := List.pairwise_append.mp h.apart
  obtain ⟨hp', hb⟩ := List.pairwise_cons.mp hpb
  have hrest : Layout (front ++ back) := by
    refine ⟨List.pairwise_append.mpr ⟨hf, hb, fun q hq r hr => ?_⟩, fun q hq => h.sound q ?_⟩
    · exact hcross q hq r (List.mem_cons_of_mem _ hr)
    · rcases List.mem_append.mp hq with hq | hq
      · exact List.mem_append_left _ hq
      · exact List.mem_append_right _ (List.mem_cons_of_mem _ hq)
  refine hrest.insert hp (fun q hq => ?_) fun q hq => ?_
  · rw [hbase]
    exact hcross q hq p List.mem_cons_self
  · rw [hreach]
    exact hp' q hq

/-- An address that one page holds is held by no page before it. -/
theorem Layout.contents_front (h : Layout (front ++ p :: back)) {a : Int} (ha : p.base.toInt ≤ a) :
    contents front a = none := by
  obtain ⟨-, -, hcross⟩ := List.pairwise_append.mp h.apart
  refine contents_eq_none.mpr fun q hq => Page.content?_eq_none_of_le ?_
  have := hcross q hq p List.mem_cons_self
  omega

end

/-! ## What a store does -/

/-- Values have been stored from an address on. They are there, and the other cells are as they were,
except that new pages hold the blank value; a new page begins between the aligned start of an address
that was stored to and that address. -/
structure Stored [Scalar α] (m m' : Cells α) (a : Int) (values : List α) : Prop where
  layout : Layout m'.pages
  frame : m' = m.withPages m'.pages
  written : ∀ k < values.length, contents m'.pages (a + k) = values[k]?
  kept : ∀ b, b < a ∨ a + values.length ≤ b → contents m'.pages b = contents m.pages b ∨
    contents m.pages b = none ∧ contents m'.pages b = some m.blank
  bases : ∀ p ∈ m'.pages, (∃ q ∈ m.pages, p.base = q.base) ∨
    ∃ x, a ≤ x ∧ x ≤ a + values.length ∧ m.alignedStart x ≤ p.base.toInt ∧ p.base.toInt ≤ x

namespace Stored

variable [Scalar α] {m m₁ m₂ : Cells α} {a : Int} {values values₁ values₂ : List α}

theorem refl (h : m.Laid) (a : Int) : Stored m m a [] :=
  ⟨h.layout, h.even.withPages_pages.symm, nofun, fun _ _ => .inl rfl, fun p hp => .inl ⟨p, hp, rfl⟩⟩

theorem laid (h : Stored m m₁ a values) : m₁.Laid where
  even := by
    rw [h.frame]
    exact Cells.even_withPages m m₁.pages
  layout := h.layout

theorem fill_eq (h : Stored m m₁ a values) : m₁.fill = m.fill := by
  rw [h.frame]
  rfl

theorem limit_eq (h : Stored m m₁ a values) : m₁.limit = m.limit := by
  rw [h.frame]
  rfl

theorem blank_eq (h : Stored m m₁ a values) : m₁.blank = m.blank := by
  rw [h.frame]
  rfl

theorem alignedStart_eq (h : Stored m m₁ a values) (x : Int) : m₁.alignedStart x = m.alignedStart x := by
  rw [h.frame]
  rfl

theorem alignedStop_eq (h : Stored m m₁ a values) (x : Int) : m₁.alignedStop x = m.alignedStop x := by
  rw [h.frame]
  rfl

/-- Storing values in two parts is storing them. -/
theorem trans (h₁ : Stored m m₁ a values₁) (h₂ : Stored m₁ m₂ (a + values₁.length) values₂) :
    Stored m m₂ a (values₁ ++ values₂) where
  layout := h₂.layout
  frame := by rw [h₂.frame, Cells.pages_withPages, h₁.frame, Cells.withPages_withPages]
  written := by
    intro k hk
    rw [List.length_append] at hk
    by_cases hfirst : k < values₁.length
    · -- the second part lies above what the first has written
      have hwritten := h₁.written k hfirst
      rw [List.getElem?_append_left hfirst]
      rcases h₂.kept (a + k) (.inl (by omega)) with hkept | ⟨hnone, -⟩
      · rw [hkept, hwritten]
      · rw [hwritten, List.getElem?_eq_getElem hfirst] at hnone
        cases hnone
    · have hwritten := h₂.written (k - values₁.length) (by omega)
      have haddress : a + values₁.length + (k - values₁.length : Nat) = a + k := by omega
      rw [List.getElem?_append_right (by omega), ← hwritten, haddress]
  kept := by
    intro b hb
    rw [List.length_append] at hb
    have hkept₁ := h₁.kept b (by omega)
    have hkept₂ := h₂.kept b (by omega)
    rw [h₁.blank_eq] at hkept₂
    rcases hkept₂ with hsame | ⟨hnone, hblank⟩
    · rw [hsame]
      exact hkept₁
    · rcases hkept₁ with hsame | ⟨-, hblank₁⟩
      · exact .inr ⟨hsame ▸ hnone, hblank⟩
      · rw [hblank₁] at hnone
        cases hnone
  bases := by
    intro p hp
    rw [List.length_append]
    rcases h₂.bases p hp with ⟨q, hq, hbase⟩ | ⟨x, hlow, hhigh, hstart, hle⟩
    · rcases h₁.bases q hq with ⟨r, hr, hbase'⟩ | ⟨x, hlow, hhigh, hstart, hle⟩
      · exact .inl ⟨r, hr, hbase.trans hbase'⟩
      · rw [hbase]
        exact .inr ⟨x, hlow, by omega, hstart, hle⟩
    · rw [h₁.alignedStart_eq] at hstart
      exact .inr ⟨x, by omega, by omega, hstart, hle⟩

/-- Stored values leave room for what is stored above them. -/
theorem hasRoom {x : Int} (h : Stored m m₁ a values)
    (hx : a + values.length ≤ x) (hroom : m.HasRoom x) : m₁.HasRoom x where
  start := by
    rw [h.alignedStart_eq]
    exact hroom.start
  stop := by
    rw [h.alignedStop_eq]
    exact hroom.stop
  last := by
    rw [h.alignedStop_eq]
    intro hlast p hp
    rcases h.bases p hp with ⟨q, hq, hbase⟩ | ⟨y, -, hhigh, -, hle⟩
    · rw [hbase]
      exact hroom.last hlast q hq
    · omega

/-- What is empty after a store was empty before. -/
theorem contents_eq_none (h : Stored m m₁ a values) {x : Int} (hx : a + values.length ≤ x)
    (hnone : contents m₁.pages x = none) : contents m.pages x = none := by
  rcases h.kept x (.inr hx) with hsame | ⟨hm, -⟩
  · rw [← hsame]
    exact hnone
  · exact hm

end Stored

namespace Cells

section

variable [Scalar α] {m : Cells α} {front rest back : List (Page α)} {p : Page α} {i : Nat}
  {address stop : Int64} {values : List α}

/-- Making the page of an address stores nothing yet. -/
theorem stored_newPage (hlaid : m.Laid) (hspot : Spot m.pages front rest i address.toInt)
    (hroom : m.HasRoom address.toInt) (hnext : ∀ p ∈ rest.head?, address.toInt < p.base.toInt) :
    Stored m (m.withPages (front ++ m.newPage i address :: rest)) address.toInt [] := by
  obtain ⟨hstart, hbase, hfront⟩ := newPage_base hlaid hspot hroom
  obtain ⟨-, -, hrest⟩ := newPage_reach hlaid hspot hroom hnext
  have hinserted : Layout (front ++ m.newPage i address :: rest) :=
    Layout.insert (hspot.split ▸ hlaid.layout) (newPage_sound hlaid hspot hroom hnext) hfront hrest
  constructor <;> rw [pages_withPages]
  case layout => exact hinserted
  case written => exact nofun
  case kept =>
    intro b _
    rw [hspot.split, contents_append, contents_cons, contents_append]
    cases hnew : (m.newPage i address).content? b with
    | none => exact .inl rfl
    | some x =>
        -- the new page lies between its neighbours, so none of them holds the address
        have hlow : (m.newPage i address).base.toInt ≤ b := by
          refine Int.not_lt.mp fun hlt => ?_
          rw [Page.content?_eq_none_of_lt hlt] at hnew
          cases hnew
        have hhigh : b < (m.newPage i address).reach := by
          refine Int.not_le.mp fun hle => ?_
          rw [Page.content?_eq_none_of_le hle] at hnew
          cases hnew
        have hf : contents front b = none := hinserted.contents_front hlow
        have hr : contents rest b = none := by
          refine contents_eq_none.mpr fun q hq => Page.content?_eq_none_of_lt ?_
          have := hrest q hq
          omega
        rw [hf, hr, content?_newPage hnew]
        exact .inr ⟨rfl, rfl⟩
  case bases =>
    intro q hq
    rcases List.mem_append.mp hq with hq | hq
    · exact .inl ⟨q, by rw [hspot.split]; exact List.mem_append_left _ hq, rfl⟩
    · rcases List.mem_cons.mp hq with rfl | hq
      · exact .inr ⟨address.toInt, Int.le_refl _, by simp, hstart, hbase⟩
      · exact .inl ⟨q, by rw [hspot.split]; exact List.mem_append_right _ hq, rfl⟩

/-- Writing into the page that holds an address stores as many values as fit. -/
theorem stored_write (hlayout : Layout m.pages) (hsplit : m.pages = front ++ p :: back) {offset : Nat}
    (hoffset : offset ≤ p.cells.length) (haddress : p.base.toInt + offset = address.toInt)
    (values : List α) :
    Stored m (m.withPages (front ++ (p.write offset values).1 :: back)) address.toInt
      (values.take (p.write offset values).2) := by
  rw [hsplit] at hlayout
  have hp : p.Sound := hlayout.sound p (List.mem_append_right _ List.mem_cons_self)
  have hcount : (p.write offset values).2 ≤ values.length := Nat.min_le_left _ _
  have hreplaced : Layout (front ++ (p.write offset values).1 :: back) :=
    hlayout.replace (hp.write hoffset) rfl (Page.reach_write hoffset)
  constructor <;> rw [pages_withPages]
  case layout => exact hreplaced
  case written =>
    intro k hk
    rw [List.length_take] at hk
    have hfront : contents front (address.toInt + k) = none :=
      hlayout.contents_front (by omega)
    have hinside : (p.write offset values).1.content? (p.base.toInt + offset + k) = values[k]? :=
      Page.content?_write_inside hoffset (by omega)
    rw [haddress] at hinside
    rw [contents_append, hfront, Option.none_or, contents_cons, hinside,
      List.getElem?_take_of_lt (by omega), List.getElem?_eq_getElem (by omega)]
    rfl
  case kept =>
    intro b hb
    rw [List.length_take, Nat.min_eq_left hcount] at hb
    rw [hsplit, contents_append, contents_cons, Page.content?_write_outside hoffset (by omega),
      contents_append, contents_cons]
    exact .inl rfl
  case bases =>
    intro q hq
    rw [hsplit]
    rcases List.mem_append.mp hq with hq | hq
    · exact .inl ⟨q, List.mem_append_left _ hq, rfl⟩
    · rcases List.mem_cons.mp hq with rfl | hq
      · exact .inl ⟨p, List.mem_append_right _ List.mem_cons_self, rfl⟩
      · exact .inl ⟨q, List.mem_append_right _ (List.mem_cons_of_mem _ hq), rfl⟩

/-! ## The turns of a store -/

/-- Where a store stands between two turns: the spot of the address from which on the values are still
to be stored, with nothing ahead that would make a computed address wrap around. -/
structure Cursor (m : Cells α) (front rest : List (Page α)) (i : Nat) (address stop : Int64)
    (values : List α) : Prop where
  laid : m.Laid
  spot : Spot m.pages front rest i address.toInt
  stop : stop.toInt = address.toInt + values.length
  near : ∀ p ∈ rest.head?, address.toInt - p.base.toInt < 9223372036854775808
  room : ∀ x, address.toInt ≤ x → x < address.toInt + values.length → contents m.pages x = none →
    m.HasRoom x

omit [Scalar α] in
/-- As far as there are values, addresses do not wrap around. -/
theorem Cursor.toInt_advance (h : Cursor m front rest i address stop values) (count : Nat)
    (hcount : count ≤ values.length) (hshort : count < 9223372036854775808) :
    (address + .ofNat count).toInt = address.toInt + count := by
  have hlow := address.le_toInt
  have hhigh := stop.toInt_lt
  have hstop := h.stop
  have hcell : (Int64.ofNat count).toInt = count := Int64.toInt_ofNat_of_lt hshort
  rw [toInt_add_of_inside, hcell] <;> rw [hcell] <;> omega

omit [Scalar α] in
/-- Passing over a page that ends at or below the address. -/
theorem Cursor.pass (h : Cursor m front (p :: back) i address stop values) (hp : p.reach ≤ address.toInt) :
    Cursor m (front ++ [p]) back (i + 1) address stop values where
  laid := h.laid
  spot := by
    refine ⟨by simpa using h.spot.split, by simp [h.spot.index], fun q hq => ?_, fun q hq => ?_⟩
    · rcases List.mem_append.mp hq with hq | hq
      · exact h.spot.before q hq
      · rw [List.mem_singleton.mp hq]
        exact hp
    · exact h.spot.behind q (List.mem_of_mem_tail hq)
  stop := h.stop
  near := by
    intro q hq
    have habove := h.spot.behind q (List.mem_of_mem_head? hq)
    omega
  room := h.room

/-- Making the page of the address, if there is none. -/
theorem Cursor.make (h : Cursor m front rest i address stop values) (hvalues : values ≠ [])
    (hnext : ∀ p ∈ rest.head?, address.toInt < p.base.toInt) :
    Stored m (m.withPages (front ++ m.newPage i address :: rest)) address.toInt [] ∧
      Cursor (m.withPages (front ++ m.newPage i address :: rest)) front (m.newPage i address :: rest)
        i address stop values ∧
      (m.newPage i address).base.toInt ≤ address.toInt ∧ address.toInt < (m.newPage i address).reach := by
  have hlength := List.length_pos_iff.mpr hvalues
  have hempty : contents m.pages address.toInt = none := by
    rw [h.spot.contents_eq, h.spot.getElem?]
    cases hhead : rest.head? with
    | none => rfl
    | some p => exact Page.content?_eq_none_of_lt (hnext p hhead)
  have hroom := h.room _ (Int.le_refl _) (by omega) hempty
  obtain ⟨hstart, hbase, -⟩ := newPage_base h.laid h.spot hroom
  obtain ⟨hlt, hstop, hrest⟩ := newPage_reach h.laid h.spot hroom hnext
  have hstored := stored_newPage h.laid h.spot hroom hnext
  have hsplit := pages_withPages m (front ++ m.newPage i address :: rest)
  refine ⟨hstored, ⟨hstored.laid, ⟨hsplit, h.spot.index, h.spot.before, fun p hp => ?_⟩, h.stop, ?_, ?_⟩,
    hbase, hlt⟩
  · have := hrest p hp
    omega
  · rintro p ⟨⟩
    have hsize := m.effectivePageSize.toInt_lt
    have hspan := m.lt_alignedStop address.toInt
    unfold PageTable.alignedStop at hspan
    omega
  · intro x hlow hhigh hnone
    have habove : address.toInt + ([] : List α).length ≤ x := by simpa using hlow
    exact hstored.hasRoom habove (h.room x hlow hhigh (hstored.contents_eq_none habove hnone))

/-- Writing into the page that holds the address, up to the end of that page. -/
theorem Cursor.write (h : Cursor m front (p :: back) i address stop values) {offset : Nat}
    (hoffset : p.base.toInt + offset = address.toInt)
    (hfull : address.toInt + (p.write offset values).2 = p.reach) :
    Cursor (m.withPages (front ++ (p.write offset values).1 :: back))
      (front ++ [(p.write offset values).1]) back (i + 1)
      (address + .ofNat (p.write offset values).2) stop (values.drop (p.write offset values).2) := by
  have hlayout := h.laid.layout
  rw [h.spot.split] at hlayout
  obtain ⟨-, hpages, -⟩ := List.pairwise_append.mp hlayout.apart
  obtain ⟨hbehind, hback⟩ := List.pairwise_cons.mp hpages
  have hp : p.Sound := hlayout.sound p (List.mem_append_right _ List.mem_cons_self)
  have hle : offset ≤ p.cells.length := by
    unfold Page.reach at hfull
    omega
  have hstored := stored_write h.laid.layout h.spot.split hle hoffset values
  generalize hw : p.write offset values = w at *
  obtain ⟨p', count⟩ := w
  have hcount : count = min values.length (p.cells.length - offset) := congrArg Prod.snd hw.symm
  have htake : (values.take count).length = count := by
    rw [List.length_take]
    omega
  have hreach : (p.write offset values).1.reach = p.reach := Page.reach_write hle
  rw [hw] at hreach
  have hshort := hp.short
  have hnext := h.toInt_advance count (by omega) (by omega)
  dsimp only at *
  refine ⟨hstored.laid, ⟨by simp, by simp [h.spot.index], fun q hq => ?_, fun q hq => ?_⟩, ?_, ?_, ?_⟩
  · rw [hnext]
    rcases List.mem_append.mp hq with hq | hq
    · have := h.spot.before q hq
      omega
    · rw [List.mem_singleton.mp hq, hreach]
      omega
  · rw [hnext, hfull]
    -- the next page begins above the one just written, and has cells of its own
    cases back with
    | nil => cases hq
    | cons r back =>
        have hr := hbehind r List.mem_cons_self
        have hq' := (List.pairwise_cons.mp hback).1 q hq
        have hoccupied := (hlayout.sound r (by simp)).occupied
        unfold Page.reach at hq' hr ⊢
        omega
  · rw [hnext, h.stop, List.length_drop]
    omega
  · intro q hq
    have hr := hbehind q (List.mem_of_mem_head? hq)
    rw [hnext]
    omega
  · intro x hlow hhigh hnone
    rw [hnext] at hlow
    rw [hnext, List.length_drop] at hhigh
    have habove : address.toInt + (values.take count).length ≤ x := by omega
    refine hstored.hasRoom habove (h.room x (by omega) (by omega) (hstored.contents_eq_none habove hnone))

/-! ## The whole store -/

omit [Scalar α] in
/-- A page is passed over if it ends at or below the address. -/
theorem passes_iff (hp : p.Sound) (hbase : p.base.toInt ≤ address.toInt)
    (hnear : address.toInt - p.base.toInt < 9223372036854775808) :
    0 < address - p.base ∧ p.size ≤ address - p.base ↔ p.reach ≤ address.toInt := by
  have hoccupied := hp.occupied
  rw [Int64.lt_iff_toInt_lt, Int64.le_iff_toInt_le, Int64.toInt_zero, hp.sized,
    toInt_sub_of_inside (by omega) hnear]
  unfold Page.reach
  omega

theorem storeFrom_of_not_lt (fuel : Nat) (h : ¬ address < stop) :
    storeFrom stop fuel m i address values = m := by
  cases fuel with
  | zero => rfl
  | succ fuel => rw [storeFrom, if_neg h]

/-- What a turn of a store does: it stores the first of the values, and unless these were all, the store
goes on at the spot of the address that follows them. -/
structure Turned (m : Cells α) (rest : List (Page α)) (i : Nat) (address stop : Int64) (values : List α)
    (m' : Cells α) (address' : Int64) (values' : List α) : Prop where
  stored : ∃ done, values = done ++ values' ∧ address'.toInt = address.toInt + done.length ∧
    Stored m m' address.toInt done
  goesOn : values' ≠ [] → ∃ front' rest', Cursor m' front' rest' (i + 1) address' stop values' ∧
    values'.length + rest'.length < values.length + rest.length

/-- The turn that writes into the page of the address. -/
theorem Cursor.turned_write (h : Cursor m front (p :: back) i address stop values)
    (hbase : p.base.toInt ≤ address.toInt) (hreach : address.toInt < p.reach) (hvalues : values ≠ []) :
    Turned m back i address stop values
      (m.withPages (m.pages.set i (p.write (address - p.base).toInt.toNat values).1))
      (address + .ofNat (p.write (address - p.base).toInt.toNat values).2)
      (values.drop (p.write (address - p.base).toInt.toNat values).2) := by
  have hp : p.Sound :=
    h.laid.layout.sound p (by rw [h.spot.split]; exact List.mem_append_right _ List.mem_cons_self)
  have hshort := hp.short
  have hlength := List.length_pos_iff.mpr hvalues
  have hskip : (address - p.base).toInt = address.toInt - p.base.toInt := by
    unfold Page.reach at hreach
    exact toInt_sub_of_inside (by omega) (by omega)
  generalize hoffset : (address - p.base).toInt.toNat = offset
  have hstart : p.base.toInt + offset = address.toInt := by omega
  have hle : offset < p.cells.length := by
    unfold Page.reach at hreach
    omega
  have hset : m.pages.set i (p.write offset values).1 = front ++ (p.write offset values).1 :: back := by
    rw [h.spot.split, ← h.spot.index, List.set_append_right _ _ (Nat.le_refl _), Nat.sub_self]
    rfl
  have hcount : (p.write offset values).2 = min values.length (p.cells.length - offset) := rfl
  have htake : (values.take (p.write offset values).2).length = (p.write offset values).2 := by
    rw [List.length_take]
    omega
  rw [hset]
  refine ⟨⟨values.take (p.write offset values).2, (List.take_append_drop _ _).symm, ?_, ?_⟩, fun hleft => ?_⟩
  · rw [htake]
    exact h.toInt_advance _ (by omega) (by omega)
  · exact Cells.stored_write h.laid.layout h.spot.split (by omega) hstart values
  · -- if values are left, the page is written to up to its end
    have hpart : (p.write offset values).2 < values.length := by
      have := List.length_pos_iff.mpr hleft
      rw [List.length_drop] at this
      omega
    refine ⟨_, back, h.write hstart (by unfold Page.reach at hreach ⊢; omega), ?_⟩
    rw [List.length_drop]
    omega

/-- A store that has values left does a turn. -/
theorem Cursor.turned (h : Cursor m front rest i address stop values) (hvalues : values ≠ []) :
    ∃ m' address' values', m.storeTurn i address values = (m', address', values') ∧
      Turned m rest i address stop values m' address' values' := by
  by_cases hnext : ∀ p ∈ rest.head?, address.toInt < p.base.toInt
  · -- no page begins at or below the address where one would have to, so a page is made
    obtain ⟨hmade, hcursor, hbase, hreach⟩ := h.make hvalues hnext
    have hsound : (m.newPage i address).Sound :=
      hmade.layout.sound _ (by rw [pages_withPages]; exact List.mem_append_right _ List.mem_cons_self)
    have habove : ∀ p ∈ m.pages[i]?, address < p.base := by
      rw [h.spot.getElem?]
      exact fun p hp => Int64.lt_iff_toInt_lt.mpr (hnext p hp)
    have hensure := ensurePage_of_lt h.laid.even habove
    rw [h.spot.insertIdx] at hensure
    have hread := hcursor.spot.getElem?
    have hstay := mt (passes_iff hsound hbase (hcursor.near _ rfl)).mp (Int.not_le.mpr hreach)
    obtain ⟨⟨done, hvalues, haddress, hstored⟩, hgoesOn⟩ := hcursor.turned_write hbase hreach hvalues
    refine ⟨_, _, _, storeTurn_write hmade.laid.even hensure hread hstay,
      ⟨done, hvalues, haddress, ?_⟩, hgoesOn⟩
    rw [← Int.add_zero address.toInt] at hstored
    exact hmade.trans hstored
  · obtain ⟨p, hp, hle⟩ : ∃ p ∈ rest.head?, p.base.toInt ≤ address.toInt := by
      simpa using hnext
    obtain ⟨back, rfl⟩ : ∃ back, rest = p :: back := List.head?_eq_some_iff.mp hp
    have hsound : p.Sound :=
      h.laid.layout.sound p (by rw [h.spot.split]; exact List.mem_append_right _ List.mem_cons_self)
    have hread : m.pages[i]? = some p := h.spot.getElem?.trans hp
    have hensure := ensurePage_of_le hread (Int64.le_iff_toInt_le.mpr hle)
    have hpasses := passes_iff hsound hle (h.near p rfl)
    by_cases hreach : p.reach ≤ address.toInt
    · refine ⟨_, _, _, storeTurn_pass hensure (hpasses.mpr hreach),
        ⟨[], rfl, (Int.add_zero _).symm, .refl h.laid _⟩, fun _ => ⟨_, back, h.pass hreach, ?_⟩⟩
      rw [List.length_cons]
      omega
    · obtain ⟨hstored, hgoesOn⟩ := h.turned_write hle (Int.not_le.mp hreach) hvalues
      refine ⟨_, _, _, storeTurn_write h.laid.even hensure hread (mt hpasses.mp hreach), hstored,
        fun hleft => ?_⟩
      obtain ⟨front', rest', hcursor, hlength⟩ := hgoesOn hleft
      refine ⟨front', rest', hcursor, ?_⟩
      rw [List.length_cons]
      omega

/-- A store that comes to an end: it does turns until the address is no longer below `stop`, and leaves
the last memory. -/
inductive Finishes (stop : Int64) : Cells α → Nat → Int64 → List α → Cells α → Prop
  | done {m : Cells α} {i : Nat} {address : Int64} {values : List α} (h : ¬ address < stop) :
      Finishes stop m i address values m
  | turn {m m' m'' : Cells α} {i : Nat} {address address' : Int64} {values values' : List α}
      (h : address < stop) (hturn : m.storeTurn i address values = (m', address', values'))
      (hrest : Finishes stop m' (i + 1) address' values' m'') : Finishes stop m i address values m''

/-- From where a store stands it stores what is left to store, and comes to its end. -/
theorem storeFrom_stored (fuel : Nat) :
    ∀ {m : Cells α} {front rest : List (Page α)} {i : Nat} {address : Int64} {values : List α},
      Cursor m front rest i address stop values → values.length + rest.length < fuel →
      Stored m (storeFrom stop fuel m i address values) address.toInt values ∧
        Finishes stop m i address values (storeFrom stop fuel m i address values) := by
  induction fuel with
  | zero =>
      intro m front rest i address values _ hfuel
      omega
  | succ fuel ih =>
      intro m front rest i address values h hfuel
      have hstop := h.stop
      by_cases hvalues : values = []
      · subst hvalues
        have hend : ¬ address < stop := by
          rw [Int64.lt_iff_toInt_lt, hstop]
          simp
        rw [storeFrom, if_neg hend]
        exact ⟨.refl h.laid _, .done hend⟩
      have hlt : address < stop := by
        have hlength := List.length_pos_iff.mpr hvalues
        exact Int64.lt_iff_toInt_lt.mpr (by omega)
      obtain ⟨m', address', values', hturn, ⟨done, hsplit, haddress, hstored⟩, hgoesOn⟩ := h.turned hvalues
      rw [storeFrom, if_pos hlt, hturn]
      have hlater : Stored m' (storeFrom stop fuel m' (i + 1) address' values')
            (address.toInt + done.length) values' ∧
          Finishes stop m' (i + 1) address' values' (storeFrom stop fuel m' (i + 1) address' values') := by
        rw [← haddress]
        by_cases hleft : values' = []
        · -- the next turn finds that nothing is left
          have hend : ¬ address' < stop := by
            rw [Int64.lt_iff_toInt_lt, haddress, hstop, hsplit, hleft, List.append_nil]
            omega
          rw [storeFrom_of_not_lt fuel hend, hleft]
          exact ⟨.refl hstored.laid _, .done hend⟩
        · obtain ⟨front', rest', hcursor, hlength⟩ := hgoesOn hleft
          exact ih hcursor (by omega)
      obtain ⟨hrest, hfinishes⟩ := hlater
      refine ⟨?_, .turn hlt hturn hfinishes⟩
      rw [hsplit]
      exact hstored.trans hrest

/-- A store of some cells in which no computed address wraps around: it ends below the last address,
the page that is found for its address begins less than 2⁶³ below, and there is room for the page of each
cell that no page holds. -/
structure Clear (m : Cells α) (address : Int64) (count : Nat) : Prop where
  stop : address.toInt + count < 9223372036854775808
  near : ∀ p, m.pages[m.pageAt address]? = some p →
    address.toInt - p.base.toInt < 9223372036854775808
  room : ∀ x, address.toInt ≤ x → x < address.toInt + count → contents m.pages x = none → m.HasRoom x

omit [Scalar α] in
theorem Clear.toInt_stop (h : m.Clear address values.length) :
    (address + .ofNat values.length).toInt = address.toInt + values.length := by
  have hlow := address.le_toInt
  have hclear := h.stop
  rw [Int64.toInt_add, Int64.toInt_ofNat', Int.add_bmod_bmod]
  exact Int.bmod_eq_of_le (by simp; omega) (by simp; omega)

omit [Scalar α] in
/-- A clear store stands at the spot of its address when it begins. -/
theorem Clear.cursor (hlaid : m.Laid) (h : m.Clear address values.length) :
    Cursor m (m.pages.take (m.pageAt address)) (m.pages.drop (m.pageAt address)) (m.pageAt address) address
      (address + .ofNat values.length) values :=
  have hspot := spot_pageAt hlaid address
  ⟨hlaid, hspot, h.toInt_stop, fun p hp => h.near p (hspot.getElem?.trans hp), h.room⟩

/-- A store that is clear does what a store is meant to do. -/
theorem store_stored (hlaid : m.Laid) (h : m.Clear address values.length) :
    Stored m (m.store address values) address.toInt values := by
  refine (storeFrom_stored _ (h.cursor hlaid) ?_).1
  rw [List.length_drop, hlaid.even.length_bases]
  omega

/-- A store that is clear comes to its end. -/
theorem store_finishes (hlaid : m.Laid) (h : m.Clear address values.length) :
    Finishes (address + .ofNat values.length) m (m.pageAt address) address values
      (m.store address values) := by
  refine (storeFrom_stored _ (h.cursor hlaid) ?_).2
  rw [List.length_drop, hlaid.even.length_bases]
  omega

end

end Cells

end Linewise
