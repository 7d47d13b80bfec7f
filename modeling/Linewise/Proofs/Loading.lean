import Linewise.Proofs.Loop
import Linewise.Proofs.Utf8
import Mathlib.Data.List.Forall2

/-!
# Loading a program

Lines that end in line feeds are read back from the sources they were written to, in order and each with
its words, wherever one source ends and the next begins (`Offers`). `loadLines_offers` is what loading
makes of them, and `declaresOwn_addLines` what becomes of their labels.
-/

namespace Linewise

open Machine Linewise.Action

namespace Text

/-- Lines with their line feeds, one after the other. -/
def unlines (texts : List Text) : Text := texts.flatMap fun t => t ++ [10]

/-- A text that can be a line of a source: well-formed, and without a line feed. -/
def IsLine (t : Text) : Prop := t.isWellFormed = true ∧ 10 ∉ t

/-! ## Words -/

/-- A blank at the end only adds an empty piece. -/
theorem splitBlanks_append_blank (rs : List Rune) {r : Rune} (hr : r.isBlank = true) :
    splitBlanks (rs ++ [r]) = splitBlanks rs ++ [[]] := by
  induction rs with
  | nil => simp [splitBlanks, hr]
  | cons q rest ih =>
      rw [List.cons_append, splitBlanks, splitBlanks, ih]
      by_cases hq : q.isBlank = true
      · rw [if_pos hq, if_pos hq]
        rfl
      · rw [if_neg hq, if_neg hq]
        cases hrest : splitBlanks rest with
        | nil => exact absurd hrest (splitBlanks_ne_nil rest)
        | cons piece pieces => rfl

/-- A carriage return at the end of a line is a blank and belongs to no word. -/
theorem words_dropEnding (s : Text) : words (dropEnding [13] s) = words s := by
  unfold dropEnding
  split
  · rename_i hsuffix
    obtain ⟨front, rfl⟩ := List.isSuffixOf_iff_suffix.mp hsuffix
    have hreturn : (⟨Char.ofNat 13, [13]⟩ : Rune).isBlank = true := by decide
    rw [List.length_append, Nat.add_sub_cancel, List.take_left, words, words,
      runes_append_ascii (by decide) front [], runes_cons_ascii (by decide)]
    show _ = (splitBlanks (runes front ++ [⟨Char.ofNat 13, [13]⟩])).filter _
    rw [splitBlanks_append_blank _ hreturn, List.filter_append]
    simp
  · rfl

/-! ## Characters of lines -/

theorem chars_append_lineFeed (s tail : Text) :
    chars (s ++ 10 :: tail) = chars s ++ '\n' :: chars tail := by
  rw [chars, runes_append_ascii (by decide), runes_cons_ascii (by decide), List.map_append]
  rfl

/-- A line has no character that is a line feed. -/
theorem IsLine.lineFeed_not_mem {t : Text} (h : t.IsLine) : '\n' ∉ t.chars := by
  intro hmem
  have hin : (10 : UInt8) ∈ ofChars t.chars := List.mem_flatMap.mpr ⟨'\n', hmem, by decide⟩
  rw [ofChars_chars h.1] at hin
  exact h.2 hin

/-- A line is read back with its words. -/
theorem IsLine.words_lineText {t : Text} (h : t.IsLine) : words (SourceReader.lineText t.chars) = words t := by
  rw [SourceReader.lineText, ofChars_chars h.1, words_dropEnding]

end Text

open Text

/-! ## Reading lines -/

namespace SourceReader

/-- The first line is cut off at its line feed. -/
theorem cutLine_append {cs : List Char} (h : '\n' ∉ cs) (rest : List Char) :
    cutLine (cs ++ '\n' :: rest) = (cs, some rest) := by
  induction cs with
  | nil => rfl
  | cons c cs ih =>
      have hc : c ≠ '\n' := fun he => h (he ▸ List.mem_cons_self)
      have hcs := ih fun hmem => h (List.mem_cons_of_mem _ hmem)
      rw [List.cons_append, cutLine, if_neg hc, hcs]

/-- A source that holds lines and simply ends. -/
def Holds (s : Source) (texts : List Text) : Prop := s.text = unlines texts ∧ s.failure = none

/-- The lines that a reader has still to give. -/
inductive Offers : SourceReader → List Text → Prop
  | closed {queue : List Source} {groups : List (List Text)} (closed : Nat)
      (h : List.Forall₂ Holds queue groups) : Offers ⟨none, queue, closed⟩ groups.flatten
  | opened {source : Source} (group : List Text) {queue : List Source} {groups : List (List Text)}
      (line closed : Nat) (hs : source.failure = none) (h : List.Forall₂ Holds queue groups) :
      Offers ⟨some ⟨source, (unlines group).chars, line⟩, queue, closed⟩ (group ++ groups.flatten)

/-- What a request gives: the next line, with its words, or the end if there is none. -/
inductive Gives (texts : List Text) : LineResult × SourceReader → Prop
  | line {t : Text} {rest : List Text} (l : SourceLine) {r : SourceReader} (ht : texts = t :: rest)
      (hwords : l.text.words = t.words) (hr : Offers r rest) : Gives texts (.line l, r)
  | ended (r : SourceReader) (ht : texts = []) : Gives texts (.ended, r)

theorem readOpen_nil (queue : List Source) (closed : Nat) {source : Source} (line : Nat)
    (hs : source.failure = none) :
    readOpen queue closed ⟨source, (unlines []).chars, line⟩ = none := by
  unfold readOpen
  rw [hs]
  rfl

theorem readOpen_cons (queue : List Source) (closed : Nat) (source : Source) (line : Nat) {t : Text}
    (ht : t.IsLine) (rest : List Text) :
    readOpen queue closed ⟨source, (unlines (t :: rest)).chars, line⟩
      = some (.line ⟨⟨source.title, line⟩, lineText t.chars⟩,
        ⟨some ⟨source, (unlines rest).chars, line + 1⟩, queue, closed⟩) := by
  have hchars : (unlines (t :: rest)).chars = t.chars ++ '\n' :: (unlines rest).chars := by
    rw [unlines, List.flatMap_cons, List.append_assoc]
    exact chars_append_lineFeed t _
  rw [readOpen, hchars, cutLine_append ht.lineFeed_not_mem]

theorem readQueue_gives {queue : List Source} {groups : List (List Text)}
    (h : List.Forall₂ Holds queue groups) (hlines : ∀ t ∈ groups.flatten, t.IsLine) (closed : Nat) :
    Gives groups.flatten (readQueue queue closed) := by
  induction h generalizing closed with
  | nil => exact .ended _ rfl
  | @cons source group queue groups hs h ih =>
      rw [readQueue, hs.1]
      cases group with
      | nil =>
          rw [readOpen_nil queue closed 1 hs.2]
          exact ih hlines _
      | cons t rest =>
          rw [readOpen_cons queue closed source 1 (hlines t (by simp)) rest]
          exact .line _ rfl (IsLine.words_lineText (hlines t (by simp))) (.opened rest 2 closed hs.2 h)

/-- A reader gives what it offers. -/
theorem Offers.readLine {r : SourceReader} {texts : List Text} (h : Offers r texts)
    (hlines : ∀ t ∈ texts, t.IsLine) : Gives texts r.readLine := by
  cases h with
  | closed closed h => exact readQueue_gives h hlines closed
  | @opened source group queue groups line closed hs h =>
      unfold SourceReader.readLine
      dsimp only
      cases group with
      | nil =>
          rw [readOpen_nil queue closed line hs]
          exact readQueue_gives h hlines _
      | cons t rest =>
          rw [readOpen_cons queue closed source line (hlines t (by simp)) rest]
          exact .line _ rfl (IsLine.words_lineText (hlines t (by simp))) (.opened rest _ closed hs h)

/-- A reader counts on at least as many requests as it has lines. -/
theorem length_le_remaining {queue : List Source} {groups : List (List Text)}
    (h : List.Forall₂ Holds queue groups) : groups.flatten.length ≤ (ofSources queue).remaining := by
  have hunlines : ∀ texts : List Text, texts.length ≤ (unlines texts).length := by
    intro texts
    induction texts with
    | nil => exact Nat.le_refl 0
    | cons t rest ih =>
        simp only [unlines, List.flatMap_cons, List.length_append, List.length_cons] at ih ⊢
        omega
  induction h with
  | nil => exact Nat.zero_le _
  | @cons source group queue groups hs h ih =>
      have hgroup := hunlines group
      rw [← hs.1] at hgroup
      simp only [remaining, ofSources, Option.elim_none, List.flatten_cons, List.length_append,
        List.foldr_cons] at ih ⊢
      omega

end SourceReader

/-! ## Loading lines -/

/-- The machine with lines added to its program. -/
def addLines (m : Machine) (ls : List SourceLine) : Machine :=
  ls.foldl (fun m l => m.addLine l.location l.text) m

theorem addLines_frame (m : Machine) (ls : List SourceLine) :
    ∃ lines labels, addLines m ls = { m with lines, labels } := by
  induction ls generalizing m with
  | nil => exact ⟨_, _, rfl⟩
  | cons l rest ih =>
      obtain ⟨lines, labels, h⟩ := ih (m.addLine l.location l.text)
      exact ⟨lines, labels, h⟩

theorem tokens_addLines (m : Machine) (ls : List SourceLine) :
    (addLines m ls).lines.toList.map Line.tokens
      = m.lines.toList.map Line.tokens ++ ls.map fun l => l.text.words := by
  induction ls generalizing m with
  | nil => simp [addLines]
  | cons l rest ih =>
      have hrest := ih (m.addLine l.location l.text)
      rw [show addLines m (l :: rest) = addLines (m.addLine l.location l.text) rest from rfl, hrest]
      simp [addLine]

/-- Where the lines come from does not matter to the program. -/
theorem addLines_sources (m : Machine) (sources : SourceReader) (ls : List SourceLine) :
    addLines { m with sources } ls = { addLines m ls with sources } := by
  induction ls generalizing m with
  | nil => rfl
  | cons l rest ih => exact ih (m.addLine l.location l.text)

/-- Loading takes all lines that the sources offer, and nothing else happens. -/
theorem loadLines_offers {texts : List Text} (hlines : ∀ t ∈ texts, t.IsLine) :
    ∀ (m : Machine) (count : Nat), m.sources.Offers texts → texts.length < count →
    ∃ ls sources, (loadLines count).run.run m = (.ok (), { addLines m ls with sources }) ∧
      (ls.map fun l => l.text.words) = texts.map words := by
  -- on the lines and not on the count, which is only a bound for them
  induction texts with
  | nil =>
      intro m count hoffers hcount
      obtain ⟨count, rfl⟩ := Nat.exists_eq_add_one_of_ne_zero (Nat.ne_of_gt hcount)
      obtain ⟨result, sources, hr⟩ : ∃ result sources, m.sources.readLine = (result, sources) := ⟨_, _, rfl⟩
      have hgives := hoffers.readLine hlines
      rw [hr] at hgives
      cases hgives with
      | line l ht hwords hoffers' => cases ht
      | ended r ht => exact ⟨[], sources, loadLines_succ count hr, rfl⟩
  | cons t rest ih =>
      intro m count hoffers hcount
      obtain ⟨count, rfl⟩ := Nat.exists_eq_add_one_of_ne_zero (Nat.ne_zero_of_lt hcount)
      obtain ⟨result, sources, hr⟩ : ∃ result sources, m.sources.readLine = (result, sources) := ⟨_, _, rfl⟩
      have hgives := hoffers.readLine hlines
      rw [hr] at hgives
      cases hgives with
      | ended r ht => cases ht
      | line l ht hwords hoffers' =>
          cases ht
          obtain ⟨ls, sources', hrun, hls⟩ := ih (fun t ht => hlines t (List.mem_cons_of_mem _ ht))
            ({ m with sources }.addLine l.location l.text) count hoffers' (Nat.lt_of_succ_lt_succ hcount)
          refine ⟨l :: ls, sources', ?_, ?_⟩
          · have hsources := addLines_sources (m.addLine l.location l.text) sources ls
            rw [loadLines_succ count hr]
            refine hrun.trans ?_
            show (Except.ok (), { addLines { m.addLine l.location l.text with sources } ls with
              sources := sources' }) = _
            rw [hsources]
            rfl
          · rw [List.map_cons, List.map_cons, hwords, hls]

/-- Sources that hold lines are loaded, unless there is no line at all, and nobody to ask for one. -/
theorem loadProgram_holds {m : Machine} {queue : List Source} {groups : List (List Text)}
    (hm : m.sources = .ofSources queue) (hsources : List.Forall₂ SourceReader.Holds queue groups)
    (hlines : ∀ t ∈ groups.flatten, t.IsLine) (hprogram : groups.flatten ≠ [] ∨ m.feed.isSome = true) :
    ∃ ls sources, loadProgram.run.run m = (.ok (), { addLines m ls with sources }) ∧
      (ls.map fun l => l.text.words) = groups.flatten.map words := by
  have hremaining := SourceReader.length_le_remaining hsources
  rw [← hm] at hremaining
  have hoffers : m.sources.Offers groups.flatten := by
    rw [hm]
    exact .closed 0 hsources
  obtain ⟨ls, sources, hrun, hls⟩ :=
    loadLines_offers hlines m (m.sources.remaining + 1) hoffers (Nat.lt_succ_of_le hremaining)
  refine ⟨ls, sources, ?_, hls⟩
  have hresult : (loadLines (m.sources.remaining + 1)).result m = .ok () := congrArg Prod.fst hrun
  have hafter : (loadLines (m.sources.remaining + 1)).after m = _ := congrArg Prod.snd hrun
  have hthere : ¬ ((addLines m ls).lines.isEmpty && (addLines m ls).feed.isNone) = true := by
    intro h
    obtain ⟨hempty, hnone⟩ := Bool.and_eq_true_iff.mp h
    rcases hprogram with htexts | hfeed
    · have htokens := tokens_addLines m ls
      rw [Array.isEmpty_iff.mp hempty, hls] at htokens
      have hmap : groups.flatten.map words = [] := (List.append_eq_nil_iff.mp htokens.symm).2
      exact htexts (List.map_eq_nil_iff.mp hmap)
    · obtain ⟨lines, labels, hframe⟩ := addLines_frame m ls
      rw [hframe] at hnone
      rw [Option.isNone_iff_eq_none.mp hnone] at hfeed
      cases hfeed
  show (loadLines (m.sources.remaining + 1) >>= fun _ => do
    let m ← get
    if m.lines.isEmpty && m.feed.isNone then fail .emptyProgram).run.run m = _
  rw [run_bind, hresult, hafter]
  show StateT.run (ExceptT.run (if _ then _ else _)) _ = _
  rw [if_neg hthere]
  rfl

/-! ## Labels of loaded programs -/

/-- The label that a line with these tokens declares. -/
def labelOf? (tokens : List Text) : Option Text := Line.label? ⟨⟨[], 0⟩, tokens⟩

/-- The labels that the lines of a script declare. -/
def declaredLabels (script : List (List Text)) : List Text := script.filterMap labelOf?

/-- Each line that declares a label is the line of that label. -/
def DeclaresOwn (m : Machine) : Prop :=
  ∀ (index : Nat) (line : Line) (name : Text), m.lines[index]? = some line → line.label? = some name →
    m.labels.get? name = some index

/-- A line that declares a label of its own takes no label from another line. -/
theorem DeclaresOwn.addLine {m : Machine} (h : DeclaresOwn m) (location : Location) (text : Text)
    (hnew : ∀ name ∈ labelOf? text.words, name ∉ declaredLabels (m.lines.toList.map Line.tokens)) :
    DeclaresOwn (m.addLine location text) := by
  intro index line name hline hlabel
  have hline : (m.lines.push ⟨location, text.words⟩)[index]? = some line := hline
  rw [Array.getElem?_push] at hline
  split at hline
  · rename_i hindex
    cases hline
    simp only [Machine.addLine, hlabel, Dict.get?_insert, if_pos, hindex]
  · have hold := h index line name hline hlabel
    cases hdeclared : (⟨location, text.words⟩ : Line).label? with
    | none =>
        simp only [Machine.addLine, hdeclared]
        exact hold
    | some declared =>
        -- else the label would be declared twice
        have hname : name ≠ declared := by
          rintro rfl
          refine hnew name hdeclared (List.mem_filterMap.mpr ⟨line.tokens, ?_, hlabel⟩)
          exact List.mem_map_of_mem (Array.mem_toList_iff.mpr (Array.mem_of_getElem? hline))
        simp only [Machine.addLine, hdeclared, Dict.get?_insert, if_neg hname]
        exact hold

/-- If no label is declared twice, every line keeps the label that it declares. -/
theorem declaresOwn_addLines {m : Machine} (h : DeclaresOwn m) (ls : List SourceLine)
    (hunique : (declaredLabels (m.lines.toList.map Line.tokens ++ ls.map fun l => l.text.words)).Nodup) :
    DeclaresOwn (addLines m ls) := by
  induction ls generalizing m with
  | nil => exact h
  | cons l rest ih =>
      have htokens : (m.addLine l.location l.text).lines.toList.map Line.tokens
          = m.lines.toList.map Line.tokens ++ [l.text.words] := tokens_addLines m [l]
      refine ih (h.addLine l.location l.text ?_) ?_
      · intro name hname hmem
        rw [declaredLabels, List.filterMap_append, List.nodup_append] at hunique
        refine hunique.2.2 name hmem name ?_ rfl
        rw [List.map_cons, List.filterMap_cons_some hname]
        exact List.mem_cons_self
      · rw [htokens, List.append_assoc]
        exact hunique

end Linewise
