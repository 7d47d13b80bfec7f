import Linewise.Proofs.Loop

/-!
# The table of labels

A label stands for a line of the program, and if several lines declare it, for the last one. The table is
kept while lines arrive, from the sources before the run and from the feed during it (`TableOf.declare` is
one line), and nothing else touches it. So it is true of the lines so far in every state of a run, also
where the history tells of it, and a jump goes to a line that declares its label.
-/

namespace Linewise

open Machine Linewise.Action Control

/-- The line with this index declares a label: it has two tokens or more, the first of which is `label`,
and the second one is the name. -/
def Declares (lines : List Line) (name : Text) (index : Nat) : Prop :=
  ∃ line rest, lines[index]? = some line ∧ line.tokens = Text.ofString "label" :: name :: rest

/-- The labels are those that are declared in lines, and each is the last line that declares it. -/
structure TableOf (lines : List Line) (labels : Dict Nat) : Prop where
  defined : ∀ name, (labels.get? name).isSome ↔ ∃ index, Declares lines name index
  last : ∀ name index, labels.get? name = some index →
    Declares lines name index ∧ ∀ other, Declares lines name other → other ≤ index

/-! ## One line more -/

theorem Line.label?_eq_some_iff (line : Line) (name : Text) :
    line.label? = some name ↔ ∃ rest, line.tokens = Text.ofString "label" :: name :: rest := by
  have hname : Builtin.label.name = Text.ofString "label" := rfl
  unfold Line.label?
  split
  · rename_i command other rest htokens
    rw [htokens, hname]
    split
    · rename_i hcommand
      simp [hcommand, eq_comm]
    · rename_i hcommand
      simp [hcommand]
  · rename_i hshort
    simp only [reduceCtorEq, false_iff, not_exists]
    exact fun rest htokens => hshort _ _ _ htokens

section Table

variable {lines : List Line} {labels : Dict Nat} {name : Text} {index : Nat}

theorem Declares.lt (h : Declares lines name index) : index < lines.length := by
  obtain ⟨line, rest, hline, -⟩ := h
  exact (List.getElem?_eq_some_iff.mp hline).1

/-- What a part of the lines declares is what all of them declare there. -/
theorem declares_take_iff (count : Nat) :
    Declares (lines.take count) name index ↔ index < count ∧ Declares lines name index := by
  simp only [Declares, List.getElem?_take]
  by_cases h : index < count
  · simp [h]
  · simp [h]

theorem declares_append_singleton (line : Line) : Declares (lines ++ [line]) name index ↔
    Declares lines name index ∨ index = lines.length ∧ line.label? = some name := by
  simp only [Declares, Line.label?_eq_some_iff]
  rcases Nat.lt_trichotomy index lines.length with h | rfl | h
  · simp [List.getElem?_append_left h, Nat.ne_of_lt h]
  · simp
  · simp [List.getElem?_eq_none (l := lines) (Nat.le_of_lt h),
      List.getElem?_eq_none (l := lines ++ [line]) (i := index) (by simp; omega), Nat.ne_of_gt h]

theorem tableOf_nil : TableOf [] .empty where
  defined name := by simp [Declares]
  last := nofun

theorem TableOf.of_unlabelled {line : Line} (h : TableOf lines labels) (hline : line.label? = none) :
    TableOf (lines ++ [line]) labels := by
  have hsame : ∀ name index, Declares (lines ++ [line]) name index ↔ Declares lines name index := by
    intro name index
    simp [declares_append_singleton, hline]
  refine ⟨fun name => ?_, fun name index hget => ?_⟩
  · simpa only [hsame] using h.defined name
  · simpa only [hsame] using h.last name index hget

/-- A line that declares a label is the last one to do so. -/
theorem TableOf.of_labelled {line : Line} {label : Text} (h : TableOf lines labels)
    (hline : line.label? = some label) : TableOf (lines ++ [line]) (labels.insert label lines.length) := by
  have hnew : ∀ name index, Declares (lines ++ [line]) name index ↔
      Declares lines name index ∨ index = lines.length ∧ name = label := by
    intro name index
    simp [declares_append_singleton, hline, eq_comm]
  refine ⟨fun name => ?_, fun name index hget => ?_⟩
  · rw [Dict.get?_insert]
    by_cases hname : name = label
    · simp only [hname, if_true, Option.isSome_some, true_iff]
      exact ⟨lines.length, (hnew _ _).mpr (.inr ⟨rfl, rfl⟩)⟩
    · simp only [hnew, hname, if_false, and_false, or_false]
      exact h.defined name
  · rw [Dict.get?_insert] at hget
    split at hget
    · rename_i hname
      cases hget
      refine ⟨(hnew _ _).mpr (.inr ⟨rfl, hname⟩), fun other hother => ?_⟩
      have hlt := hother.lt
      rw [List.length_append, List.length_singleton] at hlt
      omega
    · rename_i hname
      simp only [hnew, hname, and_false, or_false]
      exact h.last name index hget

/-- The table is kept when a line arrives. -/
theorem TableOf.declare (h : TableOf lines labels) (line : Line) :
    TableOf (lines ++ [line]) (match line.label? with
      | some name => labels.insert name lines.length
      | none => labels) := by
  cases hline : line.label? with
  | none => exact h.of_unlabelled hline
  | some label => exact h.of_labelled hline

end Table

theorem TableOf.push {lines : Array Line} {labels : Dict Nat} (h : TableOf lines.toList labels)
    (line : Line) : TableOf (lines.push line).toList (match line.label? with
      | some name => labels.insert name lines.size
      | none => labels) := by
  have hdeclared := h.declare line
  rw [Array.length_toList] at hdeclared
  rw [Array.toList_push]
  exact hdeclared

/-! ## Loading -/

theorem loadLines_tableOf (count : Nat) {m : Machine} (h : TableOf m.lines.toList m.labels) :
    TableOf ((loadLines count).after m).lines.toList ((loadLines count).after m).labels := by
  induction count generalizing m with
  | zero => exact h
  | succ count ih =>
      obtain ⟨result, sources, hr⟩ : ∃ result sources, m.sources.readLine = (result, sources) := ⟨_, _, rfl⟩
      have hafter : (loadLines (count + 1)).after m = (onLine count result).after { m with sources } :=
        congrArg Prod.snd (loadLines_succ count hr)
      rw [hafter]
      cases result with
      | line l => exact ih (m := { m with sources }.addLine l.location l.text) (h.push _)
      | failed l message =>
          rw [onLine, after_halt]
          exact h
      | ended => exact h

theorem loadProgram_tableOf {m : Machine} (h : TableOf m.lines.toList m.labels) :
    TableOf (loadProgram.after m).lines.toList (loadProgram.after m).labels := by
  have hloaded := loadLines_tableOf (m.sources.remaining + 1) h
  rw [(loadProgram_eq m).2]
  cases hr : (loadLines (m.sources.remaining + 1)).result m with
  | error e =>
      rw [after_bind_error hr]
      exact hloaded
  | ok u =>
      rw [after_bind_ok hr, refuseEmpty, after_get_bind]
      split
      · rw [after_fail]
        exact hloaded
      · exact hloaded

/-! ## Running -/

namespace Control

variable {c : Conduct} {s t : Control}

/-- Lines are added at the end, with what they declare, and nothing else happens to the program. -/
theorem Move.adds (h : Move c s t) : s.lines.toList <+: t.lines.toList ∧
    (TableOf s.lines.toList s.labels → TableOf t.lines.toList t.labels) := by
  cases h with
  | grow feed text rest location =>
      refine ⟨?_, fun hs => hs.push _⟩
      show s.lines.toList <+: (s.lines.push _).toList
      rw [Array.toList_push]
      exact List.prefix_append _ _
  | _ => exact ⟨List.prefix_rfl, id⟩

/-- The labels are true of the lines, now and at each moment of the history since lines were loaded. -/
structure Labelled (loaded : List Line) (s : Control) : Prop where
  kept : loaded <+: s.lines.toList
  now : TableOf s.lines.toList s.labels
  before : ∀ moment ∈ s.history, loaded.length ≤ moment.lineCount ∧ moment.lineCount ≤ s.lines.size ∧
    TableOf (s.lines.toList.take moment.lineCount) moment.labels

theorem Labelled.move {loaded : List Line} (h : Labelled loaded s) (hm : Move c s t) :
    Labelled loaded t := by
  obtain ⟨hadds, htable⟩ := hm.adds
  have hsize : s.lines.size ≤ t.lines.size := by simpa using hadds.length_le
  have hloaded := h.kept.trans hadds
  refine ⟨hloaded, htable h.now, fun moment hmoment => ?_⟩
  obtain ⟨new, hnew, htells⟩ := hm.recorded
  rw [hnew] at hmoment
  rcases List.mem_append.mp hmoment with hmem | hmem
  · obtain ⟨sink, o, rfl, -⟩ := htells moment hmem
    have hall : t.lines.toList.take t.lines.size = t.lines.toList := List.take_of_length_le (by simp)
    refine ⟨by simpa [snapshot] using hloaded.length_le, Nat.le_refl _, ?_⟩
    show TableOf (t.lines.toList.take t.lines.size) t.labels
    rw [hall]
    exact htable h.now
  · -- the lines that were there are still there, in their places
    obtain ⟨hfrom, hto, hthen⟩ := h.before moment hmem
    obtain ⟨more, hmore⟩ := hadds
    refine ⟨hfrom, Nat.le_trans hto hsize, ?_⟩
    rw [← hmore, List.take_append_of_le_length (by simpa using hto)]
    exact hthen

theorem Labelled.path {loaded : List Line} (h : Labelled loaded s) (hpath : Path c s t) :
    Labelled loaded t := by
  induction hpath with
  | refl => exact h
  | tail _ hm ih => exact ih.move hm

/-- Lines only come. -/
theorem lasting_lineCount : Lasting c fun first second => first.lineCount ≤ second.lineCount where
  same _ _ _ _ _ := Nat.le_refl _
  trans := Nat.le_trans
  move hm _ _ _ := by simpa [snapshot] using hm.adds.1.length_le

end Control

/-- No command changes lines or labels. -/
theorem exec_program (depth : Nat) (tokens : List Text) (m : Machine) :
    ((exec depth tokens).after m).lines = m.lines ∧ ((exec depth tokens).after m).labels = m.labels := by
  have hsame := (exec_changes depth tokens m).sameProgram
  exact ⟨hsame.lines, hsame.labels⟩

/-- In every state of a run since the program was loaded, also at each moment that the history tells of,
the labels are those that the lines so far declare, each with its last line. So a jump goes to a line of
the program that declares its label, the last one of those there were. Lines only come, and no command
changes them or the labels. -/
theorem labels_tell_lines (fuel : Nat) {m : Machine} (hm : m.Unstarted) :
    TableOf (loadProgram.after m).lines.toList (loadProgram.after m).labels ∧
    TableOf (run fuel m).2.lines.toList (run fuel m).2.labels ∧
    (loadProgram.after m).lines.toList <+: (run fuel m).2.lines.toList ∧
    (∀ moment ∈ (run fuel m).2.moments,
      (loadProgram.after m).lines.size ≤ moment.lineCount ∧ moment.lineCount ≤ (run fuel m).2.lines.size ∧
      TableOf ((run fuel m).2.lines.toList.take moment.lineCount) moment.labels) ∧
    (run fuel m).2.moments.Pairwise (fun earlier later => earlier.lineCount ≤ later.lineCount) ∧
    (∀ moment ∈ (run fuel m).2.moments, ∀ label target, moment.occurrence = .jumped label target →
      target < moment.lineCount ∧ Declares (run fuel m).2.lines.toList label target ∧
      ∀ other < moment.lineCount, Declares (run fuel m).2.lines.toList label other → other ≤ target) ∧
    ∀ depth tokens (state : Machine), ((exec depth tokens).after state).lines = state.lines ∧
      ((exec depth tokens).after state).labels = state.labels := by
  have hloaded : TableOf (loadProgram.after m).lines.toList (loadProgram.after m).labels := by
    refine loadProgram_tableOf ?_
    rw [hm.lines, hm.labels]
    exact tableOf_nil
  obtain ⟨start, phase, hstart, hpath⟩ := run_path fuel m
  have hhistory : start.history = [] := (untouched_of_start hstart).history.trans hm.history
  have hsame : start.lines = (loadProgram.after m).lines ∧ start.labels = (loadProgram.after m).labels := by
    rcases hstart with rfl | rfl
    · exact ⟨rfl, rfl⟩
    · exact ⟨rfl, rfl⟩
  have hfirst : Labelled (loadProgram.after m).lines.toList (start.control .between) := by
    refine ⟨?_, ?_, ?_⟩
    · simp [Machine.control, hsame.1]
    · simpa [Machine.control, hsame] using hloaded
    · simp [Machine.control, hhistory]
  have hlabelled := hfirst.path hpath
  have hmoment : ∀ moment ∈ (run fuel m).2.moments,
      (loadProgram.after m).lines.size ≤ moment.lineCount ∧ moment.lineCount ≤ (run fuel m).2.lines.size ∧
      TableOf ((run fuel m).2.lines.toList.take moment.lineCount) moment.labels := by
    intro moment hmem
    obtain ⟨hfrom, hto, hthen⟩ := hlabelled.before moment (List.mem_reverse.mp hmem)
    exact ⟨by simpa using hfrom, hto, hthen⟩
  refine ⟨hloaded, hlabelled.now, hlabelled.kept, hmoment, ?_, ?_, exec_program⟩
  · rw [Machine.moments, List.pairwise_reverse]
    exact (hpath.ordered lasting_lineCount hhistory).pairwise
  · intro moment hmem label target hjumped
    -- a jump is allowed by the labels at that moment
    have hget : moment.labels.get? label = some target := by
      obtain ⟨u, _, o, rfl, hallows⟩ := hpath.told hhistory moment (List.mem_reverse.mp hmem)
      have ho : o = .jumped label target := hjumped
      rw [ho] at hallows
      exact hallows
    obtain ⟨hdeclares, hlast⟩ := (hmoment moment hmem).2.2.last label target hget
    simp only [declares_take_iff] at hdeclares hlast
    exact ⟨hdeclares.1, hdeclares.2, fun other hlt hother => hlast other ⟨hlt, hother⟩⟩

/-- A machine with a program that declares labels twice, once more through its feed. -/
def redeclaring : Machine :=
  { initial .standard with
    sources := .ofSources [.ofText "p" "goto end\nlabel end\nlabel end\nlabel\n"]
    feed := some ⟨["label end", "goto end"], none, false, []⟩ }

/-- The first jump goes to the last of the lines that the sources have, and the last one to a line that
came from the feed. -/
theorem redeclaring_labels :
    redeclaring.Unstarted ∧ (run 9 redeclaring).2.labels.get? "end" = some 4 ∧
      TableOf (run 9 redeclaring).2.lines.toList (run 9 redeclaring).2.labels ∧
      (∃ moment ∈ (run 9 redeclaring).2.moments, moment.occurrence = .jumped "end" 2 ∧
        TableOf ((run 9 redeclaring).2.lines.toList.take moment.lineCount) moment.labels) ∧
      Declares (run 9 redeclaring).2.lines.toList "end" 4 := by
  have hunstarted : redeclaring.Unstarted := ⟨rfl, rfl, rfl, rfl⟩
  obtain ⟨-, htable, -, hmoments, -, hjumps, -⟩ := labels_tell_lines 9 hunstarted
  have hfirst : Occurrence.jumped "end" 2 ∈ (run 9 redeclaring).2.moments.map Moment.occurrence := by
    decide +kernel
  have hlast : Occurrence.jumped "end" 4 ∈ (run 9 redeclaring).2.moments.map Moment.occurrence := by
    decide +kernel
  obtain ⟨first, hfirst, hto⟩ := List.mem_map.mp hfirst
  obtain ⟨last, hlast, hback⟩ := List.mem_map.mp hlast
  refine ⟨hunstarted, by decide +kernel, htable, ⟨first, hfirst, hto, (hmoments first hfirst).2.2⟩, ?_⟩
  exact (hjumps last hlast _ _ hback).2.1

end Linewise
