import Linewise.Proofs.Ledger
import Mathlib.Data.Fintype.Card
import Mathlib.Data.List.Duplicate

/-!
# Stacks on stacks

A stack can lie on another one, or on itself: what lies there is a reference. The text of a value follows
the references, and it ends if none of the stacks that it comes to contains itself, directly or through
others (`Heap.isSome_text?_iff`). Only a push makes a stack contain itself, one of a value that leads to the
stack that it is pushed on (`Entry.orderly`). There are programs that do that: `not_acyclic_always`.
-/

namespace Linewise

open Machine Linewise.Action Relation

/-! ## Texts through references -/

namespace Value

variable {stackText : StackRef → Option Text}

/-- The text of one of several items. -/
def itemVia (stackText : StackRef → Option Text) : Value → Option Text
  | .undefined => some []
  | v => textVia stackText v

theorem itemsVia_cons (v : Value) (rest : List Value) : itemsVia stackText (v :: rest) = do
    let text ← itemVia stackText v
    let texts ← itemsVia stackText rest
    return text :: texts := by
  cases v <;> rfl

mutual

/-- A value lacks a text if a stack that it refers to does. -/
theorem textVia_eq_none_iff : ∀ v : Value,
    v.textVia stackText = none ↔ ∃ ref ∈ v.stackRefs, stackText ref = none
  | .stack ref => by simp [textVia, stackRefs]
  | .list items => by simp [textVia, stackRefs, itemsVia_eq_none_iff items]
  | .undefined | .bool _ | .text _ | .number _ | .numbers _ | .texts _ | .tape _ | .pattern _
  | .executable _ => by simp [textVia, stackRefs]

theorem itemsVia_eq_none_iff : ∀ items : List Value,
    itemsVia stackText items = none ↔ ∃ ref ∈ itemRefs items, stackText ref = none
  | [] => by simp [itemsVia, itemRefs]
  | v :: rest => by
      have hv := textVia_eq_none_iff v
      have hrest := itemsVia_eq_none_iff rest
      have hitem : itemVia stackText v = none ↔ ∃ ref ∈ v.stackRefs, stackText ref = none := by
        cases v with
        | undefined => simp [itemVia, stackRefs]
        | _ => exact hv
      simp only [itemRefs, List.mem_append, or_and_right, exists_or, ← hitem, ← hrest, itemsVia_cons]
      cases itemVia stackText v with
      | none => simp
      | some text => cases itemsVia stackText rest <;> simp

end

mutual

/-- Only the texts of the stacks that a value refers to matter. -/
theorem textVia_congr {other : StackRef → Option Text} : ∀ v : Value,
    (∀ ref ∈ v.stackRefs, stackText ref = other ref) → v.textVia stackText = v.textVia other
  | .stack ref, h => h ref (by simp [stackRefs])
  | .list items, h => by rw [textVia, textVia, itemsVia_congr items h]
  | .undefined, _ | .bool _, _ | .text _, _ | .number _, _ | .numbers _, _ | .texts _, _ | .tape _, _
  | .pattern _, _ | .executable _, _ => rfl

theorem itemsVia_congr {other : StackRef → Option Text} : ∀ items : List Value,
    (∀ ref ∈ itemRefs items, stackText ref = other ref) → itemsVia stackText items = itemsVia other items
  | [], _ => rfl
  | v :: rest, h => by
      have hv := textVia_congr v fun ref hr => h ref (List.mem_append_left _ hr)
      have hrest := itemsVia_congr rest fun ref hr => h ref (List.mem_append_right _ hr)
      have hitem : itemVia stackText v = itemVia other v := by
        cases v with
        | undefined => rfl
        | _ => exact hv
      rw [itemsVia_cons, itemsVia_cons, hitem, hrest]

end

theorem mem_itemRefs {items : List Value} {ref : StackRef} :
    ref ∈ itemRefs items ↔ ∃ v ∈ items, ref ∈ v.stackRefs := by
  induction items with
  | nil => simp [itemRefs]
  | cons v rest ih => simp [itemRefs, ih]

end Value

namespace Heap

variable {h : Heap} {a b ref : StackRef}

/-- A stack holds another one, in one of its items. -/
def Holds (h : Heap) (a b : StackRef) : Prop := ∃ v ∈ (h.stack a).items, b ∈ v.stackRefs

/-- No stack contains itself, directly or through others. -/
def Acyclic (h : Heap) : Prop := ∀ ref, ¬ TransGen h.Holds ref ref

/-- From a stack one comes to a stack that contains itself. -/
def LeadsToCycle (h : Heap) (ref : StackRef) : Prop :=
  ∃ r, ReflTransGen h.Holds ref r ∧ TransGen h.Holds r r

/-- Following references from a stack ends. -/
abbrev Ends (h : Heap) : StackRef → Prop := Acc fun inner outer => h.Holds outer inner

/-- A stack that holds something is on the heap. -/
theorem Holds.lt (hab : h.Holds a b) : a.index < h.stackSlots.size := by
  obtain ⟨v, hv, -⟩ := hab
  by_contra hout
  rw [stack, Array.getD_eq_getD_getElem?, Array.getElem?_eq_none (Nat.not_lt.mp hout)] at hv
  cases hv

theorem mem_links : (a, b) ∈ h.links ↔ h.Holds a b := by
  have hplace : (∃ i < h.stackSlots.size, b ∈ Value.itemRefs (h.stack ⟨i⟩).items ∧ (⟨i⟩ : StackRef) = a) ↔
      a.index < h.stackSlots.size ∧ b ∈ Value.itemRefs (h.stack a).items := by
    constructor
    · rintro ⟨i, hi, hb, rfl⟩
      exact ⟨hi, hb⟩
    · exact fun ⟨hi, hb⟩ => ⟨a.index, hi, hb, rfl⟩
  have hlinks : (a, b) ∈ h.links ↔ a.index < h.stackSlots.size ∧ b ∈ Value.itemRefs (h.stack a).items := by
    rw [← hplace]
    simp [links]
  rw [hlinks, Value.mem_itemRefs]
  exact ⟨And.right, fun hab => ⟨Holds.lt hab, hab⟩⟩

/-- A stack lacks a text if one that it holds does. -/
theorem stackText_succ_eq_none_iff (depth : Nat) : h.stackText (depth + 1) ref = none ↔
    ∃ r, h.Holds ref r ∧ h.stackText depth r = none := by
  rw [stackText, Option.map_eq_none_iff, Value.itemsVia_eq_none_iff]
  simp [Holds, Value.mem_itemRefs, Stack.toList]

/-- More depth does not change a text. -/
theorem stackText_succ_of_some {depth : Nat} (hsome : h.stackText depth ref ≠ none) :
    h.stackText (depth + 1) ref = h.stackText depth ref := by
  induction depth generalizing ref with
  | zero => exact absurd rfl hsome
  | succ depth ih =>
      rw [stackText, stackText]
      refine congrArg _ (Value.itemsVia_congr _ fun r hr => ih fun hnone => hsome ?_)
      rw [stackText, Option.map_eq_none_iff]
      exact Value.itemsVia_eq_none_iff _ |>.mpr ⟨r, hr, hnone⟩

theorem ends_of_stackText {depth : Nat} (hsome : h.stackText depth ref ≠ none) : h.Ends ref := by
  induction depth generalizing ref with
  | zero => exact absurd rfl hsome
  | succ depth ih =>
      refine .intro ref fun r hr => ih fun hnone => hsome ?_
      exact (stackText_succ_eq_none_iff depth).mpr ⟨r, hr, hnone⟩

/-- A text that is not finished at some depth has come through so many stacks one after the other. -/
theorem exists_walk {depth : Nat} (hnone : h.stackText depth ref = none) :
    ∃ walk : List StackRef, walk.length = depth ∧ (∀ r ∈ walk, ∃ s, h.Holds r s) ∧
      walk.Pairwise (TransGen h.Holds) ∧ ∀ r ∈ walk, ReflTransGen h.Holds ref r := by
  induction depth generalizing ref with
  | zero => exact ⟨[], rfl, by simp, .nil, by simp⟩
  | succ depth ih =>
      obtain ⟨next, hholds, hnext⟩ := (stackText_succ_eq_none_iff depth).mp hnone
      obtain ⟨walk, hlength, hgoes, hpairs, hreach⟩ := ih hnext
      refine ⟨ref :: walk, by rw [List.length_cons, hlength], ?_, ?_, ?_⟩
      · exact List.forall_mem_cons.mpr ⟨⟨next, hholds⟩, hgoes⟩
      · exact List.pairwise_cons.mpr ⟨fun r hr => .head' hholds (hreach r hr), hpairs⟩
      · exact List.forall_mem_cons.mpr ⟨.refl, fun r hr => .head hholds (hreach r hr)⟩

/-- More stacks than there are cannot be passed without coming to one twice. -/
theorem leadsToCycle_of_stackText (hnone : h.stackText h.depth ref = none) : h.LeadsToCycle ref := by
  obtain ⟨walk, hlength, hgoes, hpairs, hreach⟩ := exists_walk hnone
  have hlt : ∀ r ∈ walk, r.index < h.stackSlots.size := by
    intro r hr
    obtain ⟨s, hs⟩ := hgoes r hr
    exact hs.lt
  have hrepeats : ¬ walk.Nodup := by
    intro hnodup
    have hplaces : (walk.map StackRef.index).Nodup :=
      hnodup.map fun r s hrs => by cases r; cases s; exact congrArg StackRef.mk hrs
    have hle : (walk.map StackRef.index).length ≤ (List.range h.stackSlots.size).length := by
      refine (hplaces.subperm fun i hi => ?_).length_le
      obtain ⟨r, hr, rfl⟩ := List.mem_map.mp hi
      exact List.mem_range.mpr (hlt r hr)
    rw [List.length_map, List.length_range, hlength, depth] at hle
    omega
  obtain ⟨r, htwice⟩ := List.exists_duplicate_iff_not_nodup.mpr hrepeats
  have hcycle : TransGen h.Holds r r := by
    have hsub := hpairs.sublist (List.duplicate_iff_sublist.mp htwice)
    exact (List.pairwise_cons.mp hsub).1 r (by simp)
  exact ⟨r, hreach r htwice.mem, hcycle⟩

/-- On the way to a cycle there is always a next stack. -/
theorem LeadsToCycle.next (hc : h.LeadsToCycle ref) : ∃ r, h.Holds ref r ∧ h.LeadsToCycle r := by
  obtain ⟨r, hreach, hcycle⟩ := hc
  rcases hreach.cases_head with rfl | ⟨next, hholds, hrest⟩
  · obtain ⟨next, hholds, hback⟩ := TransGen.head'_iff.mp hcycle
    exact ⟨next, hholds, ref, hback, hcycle⟩
  · exact ⟨next, hholds, r, hrest, hcycle⟩

theorem LeadsToCycle.not_ends (hc : h.LeadsToCycle ref) : ¬ h.Ends ref := by
  intro hends
  induction hends with
  | intro ref _ ih =>
      obtain ⟨r, hholds, hr⟩ := hc.next
      exact ih r hholds hr

theorem stackText_eq_none_of_leadsToCycle (hc : h.LeadsToCycle ref) (depth : Nat) :
    h.stackText depth ref = none := by
  by_contra hsome
  exact hc.not_ends (ends_of_stackText hsome)

theorem stackText_eq_none_iff : h.stackText h.depth ref = none ↔ h.LeadsToCycle ref :=
  ⟨leadsToCycle_of_stackText, fun hc => stackText_eq_none_of_leadsToCycle hc _⟩

theorem ends_iff : h.Ends ref ↔ ¬ h.LeadsToCycle ref := by
  refine ⟨fun hends hc => hc.not_ends hends, fun hno => ?_⟩
  have hsome : h.stackText h.depth ref ≠ none := fun hnone => hno (leadsToCycle_of_stackText hnone)
  exact ends_of_stackText hsome

/-- A value has a text if following references from it ends. -/
theorem isSome_text?_iff (h : Heap) (v : Value) :
    (h.text? v).isSome ↔ ∀ ref ∈ v.stackRefs, h.Ends ref := by
  rw [Option.isSome_iff_ne_none, Ne, text?, Value.textVia_eq_none_iff]
  simp [stackText_eq_none_iff, ends_iff]

/-- The text of a stack is that of the list of its items. -/
theorem text?_stack (h : Heap) (ref : StackRef) :
    h.text? (.stack ref) = h.text? (.list (h.stack ref).toList) := by
  show h.stackText h.depth ref = h.stackText (h.depth + 1) ref
  by_cases hnone : h.stackText h.depth ref = none
  · rw [hnone, stackText_eq_none_of_leadsToCycle (stackText_eq_none_iff.mp hnone)]
  · rw [stackText_succ_of_some hnone]

theorem acyclic_of_links (hlinks : h.links = []) : h.Acyclic := by
  intro ref hcycle
  obtain ⟨next, hholds, -⟩ := TransGen.head'_iff.mp hcycle
  have hlink := mem_links.mpr hholds
  rw [hlinks] at hlink
  cases hlink

theorem Acyclic.ends (hacyclic : h.Acyclic) (ref : StackRef) : h.Ends ref :=
  ends_iff.mpr fun ⟨r, _, hcycle⟩ => hacyclic r hcycle

/-! ## Putting values on stacks -/

theorem Acyclic.of_holds {h' : Heap} (hacyclic : h.Acyclic) (hsub : ∀ a b, h'.Holds a b → h.Holds a b) :
    h'.Acyclic :=
  fun ref hcycle => hacyclic ref (TransGen.mono hsub _ _ hcycle)

theorem holds_of_holds_take {s : Stack Value} (hs : s.items ⊆ (h.stack ref).items)
    (hab : (h.setStack ref s).Holds a b) : h.Holds a b := by
  obtain ⟨v, hv, hb⟩ := hab
  rcases mem_setStack hv with hold | ⟨rfl, hnew⟩
  · exact ⟨v, hold, hb⟩
  · exact ⟨v, hs hnew, hb⟩

theorem holds_of_holds_push {v : Value}
    (hab : (h.setStack ref ((h.stack ref).push v)).Holds a b) :
    h.Holds a b ∨ a = ref ∧ b ∈ v.stackRefs := by
  obtain ⟨w, hw, hb⟩ := hab
  rcases mem_setStack hw with hold | ⟨rfl, hnew⟩
  · exact .inl ⟨w, hold, hb⟩
  · rcases List.mem_cons.mp hnew with rfl | hold
    · exact .inr ⟨rfl, hb⟩
    · exact .inl ⟨w, hold, hb⟩

/-- A push of a value that does not lead to the stack that it is pushed on. -/
theorem Acyclic.push {v : Value} (hacyclic : h.Acyclic)
    (hv : ∀ r ∈ v.stackRefs, ¬ ReflTransGen h.Holds r ref) :
    (h.setStack ref ((h.stack ref).push v)).Acyclic := by
  -- a way over the new link takes it once: one cannot come back to where it begins
  have hway : ∀ {a b}, TransGen (h.setStack ref ((h.stack ref).push v)).Holds a b →
      TransGen h.Holds a b ∨
        ReflTransGen h.Holds a ref ∧ ∃ r ∈ v.stackRefs, ReflTransGen h.Holds r b := by
    intro a b hab
    induction hab with
    | single hstep =>
        rcases holds_of_holds_push hstep with hold | ⟨rfl, hr⟩
        · exact .inl (.single hold)
        · exact .inr ⟨.refl, _, hr, .refl⟩
    | tail _ hstep ih =>
        rcases holds_of_holds_push hstep with hold | ⟨rfl, hr⟩
        · rcases ih with hways | ⟨hto, r, hr, hon⟩
          · exact .inl (hways.tail hold)
          · exact .inr ⟨hto, r, hr, hon.tail hold⟩
        · rcases ih with hways | ⟨_, r, hr', hback⟩
          · exact .inr ⟨hways.to_reflTransGen, _, hr, .refl⟩
          · exact absurd hback (hv r hr')
  intro r hcycle
  rcases hway hcycle with hold | ⟨hto, s, hs, hon⟩
  · exact hacyclic r hold
  · exact hv s hs (hon.trans hto)

/-- A push leaves what stacks hold. -/
theorem Holds.push (hab : h.Holds a b) (ref : StackRef) (v : Value) :
    (h.setStack ref ((h.stack ref).push v)).Holds a b := by
  obtain ⟨w, hw, hb⟩ := hab
  refine ⟨w, ?_, hb⟩
  rw [stack_setStack]
  split
  · rename_i hplace
    rw [← hplace.1]
    exact List.mem_cons_of_mem v hw
  · exact hw

/-- A push of a value that leads to the stack that it is pushed on. -/
theorem transGen_push {v : Value} (hplace : ref.index < h.stackSlots.size) {r : StackRef}
    (hr : r ∈ v.stackRefs) (hback : ReflTransGen h.Holds r ref) :
    TransGen (h.setStack ref ((h.stack ref).push v)).Holds ref ref := by
  have hnew : (h.setStack ref ((h.stack ref).push v)).Holds ref r := by
    refine ⟨v, ?_, hr⟩
    rw [stack_setStack, if_pos ⟨rfl, hplace⟩]
    exact List.mem_cons_self
  exact .head' hnew (ReflTransGen.mono (fun a b hab => hab.push ref v) _ _ hback)

end Heap

namespace Occurrence

/-- A value was put on a stack that it leads to. -/
def Closes : Occurrence → Prop
  | .nested onto refs links => ∃ ref ∈ refs, ReflTransGen (fun a b => (a, b) ∈ links) ref onto
  | _ => False

/-- If a value was put on a stack, all stacks lay on newer ones, and so did those of the value. -/
def descends : Occurrence → Bool
  | .nested onto refs links =>
      refs.all (fun ref => ref.index < onto.index) && links.all (fun link => link.2.index < link.1.index)
  | _ => true

/-- Who only puts stacks on newer ones closes no cycle. -/
theorem not_closes_of_descends {o : Occurrence} (h : o.descends) : ¬ o.Closes := by
  cases o with
  | nested onto refs links =>
      simp only [descends, Bool.and_eq_true, List.all_eq_true, decide_eq_true_eq] at h
      obtain ⟨hrefs, hlinks⟩ := h
      rintro ⟨ref, href, hway⟩
      have hle : ∀ r, ReflTransGen (fun a b => (a, b) ∈ links) ref r → r.index ≤ ref.index := by
        intro r hr
        induction hr with
        | refl => exact Nat.le_refl _
        | tail _ hlink ih => exact Nat.le_trans (Nat.le_of_lt (hlinks _ hlink)) ih
      exact absurd (hrefs ref href) (Nat.not_lt.mpr (hle onto hway))
  | _ => exact id

end Occurrence

namespace Ledger

/-- Stacks that contain themselves come about only if a push among the occurrences closes a cycle. -/
def Orderly (l : Ledger) (new : List Occurrence) (l' : Ledger) : Prop :=
  l.heap.Acyclic → (∀ o ∈ new, ¬ o.Closes) → l'.heap.Acyclic

theorem Entry.orderly {l l' : Ledger} (h : Entry l l') :
    ∃ new, l'.history = new.reverse ++ l.history ∧ Orderly l new l' := by
  cases h with
  | note o => exact ⟨[o], rfl, fun hacyclic _ => hacyclic⟩
  | define name ex => exact ⟨[.defined name ex], rfl, fun hacyclic _ => hacyclic⟩
  | synonym name existing => exact ⟨[.aliased name existing], rfl, fun hacyclic _ => hacyclic⟩
  | still heap hsame =>
      refine ⟨[], rfl, fun hacyclic _ => hacyclic.of_holds fun a b hab => ?_⟩
      rwa [Heap.Holds, hsame] at hab
  | take ref s hs =>
      exact ⟨[], rfl, fun hacyclic _ => hacyclic.of_holds fun _ _ => Heap.holds_of_holds_take hs⟩
  | push ref v hv => exact ⟨[], rfl, fun hacyclic _ => hacyclic.push (by simp [hv])⟩
  | nest ref v =>
      refine ⟨[.nested ref v.stackRefs l.heap.links], rfl, fun hacyclic hopen => hacyclic.push ?_⟩
      intro r hr hback
      simp only [List.mem_singleton, forall_eq, Occurrence.Closes, Heap.mem_links] at hopen
      exact hopen ⟨r, hr, hback⟩

theorem tells_orderly : Tells Orderly where
  nothing _ := fun hacyclic _ => hacyclic
  append hfirst hsecond := by
    intro hacyclic hopen
    obtain ⟨hfirst', hsecond'⟩ := List.forall_mem_append.mp hopen
    exact hsecond (hfirst hacyclic hfirst') hsecond'
  entry := Entry.orderly

end Ledger

open Ledger

/-- Runs and single commands, from stacks of which none contains itself, come to such stacks again, unless a
value is pushed on a stack that it leads to; that push makes the stack contain itself. On such stacks every
value has a text. In general a value has one if following references from it ends, that is, if it does not
lead to a stack that contains itself, and the text of a stack is that of its items. -/
theorem cycles_are_pushed (m : Machine) (hm : m.heap.Acyclic) :
    (∀ fuel, (∀ o ∈ doings fuel m, ¬ o.Closes) →
      (run fuel m).2.heap.Acyclic ∧ ∀ v, ((run fuel m).2.heap.text? v).isSome) ∧
    (∀ depth tokens, (∀ o ∈ m.since ((exec depth tokens).after m), ¬ o.Closes) →
      ((exec depth tokens).after m).heap.Acyclic ∧
        ∀ v, (((exec depth tokens).after m).heap.text? v).isSome) ∧
    (∀ ref v r, ref.index < m.heap.stackSlots.size → r ∈ v.stackRefs → ReflTransGen m.heap.Holds r ref →
      TransGen ((pushOnto ref v).after m).heap.Holds ref ref) ∧
    ∀ h : Heap, (∀ v, (h.text? v).isSome ↔ ∀ ref ∈ v.stackRefs, h.Ends ref) ∧
      (∀ ref, h.Ends ref ↔ ¬ h.LeadsToCycle ref) ∧
      ∀ ref, h.text? (.stack ref) = h.text? (.list (h.stack ref).toList) := by
  have htexts : ∀ {h : Heap}, h.Acyclic → h.Acyclic ∧ ∀ v, (h.text? v).isSome := fun hacyclic =>
    ⟨hacyclic, fun v => (Heap.isSome_text?_iff _ v).mpr fun ref _ => hacyclic.ends ref⟩
  refine ⟨fun fuel hopen => ?_, fun depth tokens hopen => ?_, fun ref v r hplace hr hback => ?_, fun h => ?_⟩
  · exact htexts (tells_orderly.since (run_entries fuel m) hm hopen)
  · exact htexts (tells_orderly.since (exec_changes depth tokens m).entries hm hopen)
  · have hne : v.stackRefs ≠ [] := List.ne_nil_of_mem hr
    rw [(pushOnto_of_nested ref hne m).2]
    exact Heap.transGen_push hplace hr hback
  · exact ⟨h.isSome_text?_iff, fun _ => Heap.ends_iff, h.text?_stack⟩

/-- A machine with a program that puts stacks on newer ones. -/
def towering : Machine :=
  { initial .standard with
    sources := .ofSources [.ofText "p" "push b stack a\npush a string x\npush c stack b\n"] }

/-- What lies on the lowest stack shows in the text of the highest one. -/
theorem towering_ends :
    towering.heap.Acyclic ∧ (∀ o ∈ doings 5 towering, ¬ o.Closes) ∧
      (run 5 towering).2.heap.links = [(⟨2⟩, ⟨1⟩), (⟨3⟩, ⟨2⟩)] ∧
      (run 5 towering).2.heap.text? (.stack ⟨3⟩) = some (Text.ofString "x") ∧
      (run 5 towering).2.heap.Acyclic := by
  have hacyclic : towering.heap.Acyclic := Heap.acyclic_of_links (by decide +kernel)
  have hopen : ∀ o ∈ doings 5 towering, ¬ o.Closes := by
    have hdescends : ∀ o ∈ doings 5 towering, o.descends := by decide +kernel
    exact fun o ho => Occurrence.not_closes_of_descends (hdescends o ho)
  refine ⟨hacyclic, hopen, by decide +kernel, by decide +kernel, ?_⟩
  exact ((cycles_are_pushed towering hacyclic).1 5 hopen).1

/-- A machine with a program that pushes a stack on itself. -/
def selfPushing : Machine :=
  { initial .standard with sources := .ofSources [.ofText "p" "push s stack s\n"] }

/-- A program can make a stack contain itself, and then the stack has no text. -/
theorem not_acyclic_always :
    selfPushing.heap.Acyclic ∧ (run 5 selfPushing).1 = .finished ∧
      TransGen (run 5 selfPushing).2.heap.Holds ⟨1⟩ ⟨1⟩ ∧
      (run 5 selfPushing).2.heap.text? (.stack ⟨1⟩) = none := by
  refine ⟨Heap.acyclic_of_links (by decide +kernel), by decide +kernel, ?_, by decide +kernel⟩
  exact .single (Heap.mem_links.mp (by decide +kernel))

end Linewise
