import Linewise.Log.LineLog

/-!
# A log of lines and the chunks it is written in

The lines of a text are the pieces between its line feeds. All but the last are terminated, and the last is
a line only if it is not empty. However a text is cut into chunks, its terminated lines are logged with the
chunks that terminate them, and the last line when the log is closed: `LineLog.chunks_logged`. The argument
takes a text line by line (`LineLog.by_lines`), since a chunk may begin in the middle of a line and end in
another.
-/

namespace Linewise

namespace Text

variable {b : UInt8} {s front back : Text}

theorem cut?_eq_none (h : s.cut? b = none) : b ∉ s := by
  induction s with
  | nil => exact List.not_mem_nil
  | cons c rest ih =>
      rw [cut?] at h
      split at h
      · cases h
      · next hc =>
          intro hmem
          rcases List.mem_cons.mp hmem with heq | hrest
          · exact hc heq.symm
          · exact ih (Option.map_eq_none_iff.mp h) hrest

theorem cut?_eq_some (h : s.cut? b = some (front, back)) : s = front ++ b :: back ∧ b ∉ front := by
  induction s generalizing front with
  | nil => cases h
  | cons c rest ih =>
      rw [cut?] at h
      split at h
      · next hc =>
          cases h
          exact ⟨by rw [hc, List.nil_append], List.not_mem_nil⟩
      · next hc =>
          obtain ⟨⟨front', back'⟩, hcut, hpair⟩ := Option.map_eq_some_iff.mp h
          cases hpair
          obtain ⟨hsplit, hfront⟩ := ih hcut
          refine ⟨by rw [hsplit, List.cons_append], fun hmem => ?_⟩
          rcases List.mem_cons.mp hmem with heq | hrest
          · exact hc heq.symm
          · exact hfront hrest

end Text

namespace LineLog

/-- The lines of a text that a line feed terminates. -/
def terminated (s : Text) : List Text := (List.splitOn 10 s).dropLast

/-- What comes after the last line feed of a text. -/
def unterminated (s : Text) : Text := (List.splitOn 10 s).getLastD []

/-- The lines of a text: an empty piece after the last line feed is none. -/
def entries (s : Text) : List Text :=
  if (List.splitOn 10 s).getLast? = some [] then (List.splitOn 10 s).dropLast else List.splitOn 10 s

theorem entries_eq (s : Text) :
    entries s = terminated s ++ if (unterminated s).isEmpty then [] else [unterminated s] := by
  have hpieces := List.splitOn_ne_nil (10 : UInt8) s
  rw [entries, terminated, unterminated, List.getLastD_eq_getLast?, List.getLast?_eq_some_getLast hpieces]
  by_cases hlast : (List.splitOn 10 s).getLast hpieces = []
  · simp [hlast]
  · simp [hlast, List.dropLast_concat_getLast]

/-! ## Line by line -/

section

variable {line s : Text}

theorem terminated_of_not_mem (h : 10 ∉ s) : terminated s = [] := by
  rw [terminated, List.splitOn_eq_singleton h]
  rfl

theorem unterminated_of_not_mem (h : 10 ∉ s) : unterminated s = s := by
  rw [unterminated, List.splitOn_eq_singleton h]
  rfl

theorem terminated_line (h : 10 ∉ line) (s : Text) :
    terminated (line ++ 10 :: s) = line :: terminated s := by
  rw [terminated, List.splitOn_append_cons_self_of_not_mem h,
    List.dropLast_cons_of_ne_nil (List.splitOn_ne_nil _ _)]
  rfl

theorem unterminated_line (h : 10 ∉ line) (s : Text) :
    unterminated (line ++ 10 :: s) = unterminated s := by
  rw [unterminated, List.splitOn_append_cons_self_of_not_mem h, List.getLastD_cons]
  obtain ⟨piece, pieces, hsplit⟩ := List.exists_cons_of_ne_nil (List.splitOn_ne_nil (10 : UInt8) s)
  rw [unterminated, hsplit]
  rfl

end

/-- What is true of a text without a line feed, and of a line in front of a text of which it is true, is
true of every text. -/
theorem by_lines {motive : Text → Prop} (plain : ∀ s, 10 ∉ s → motive s)
    (line : ∀ line rest, 10 ∉ line → motive rest → motive (line ++ 10 :: rest)) (s : Text) : motive s := by
  induction hn : s.length using Nat.strongRecOn generalizing s with
  | ind n ih =>
      cases hcut : s.cut? 10 with
      | none => exact plain s (Text.cut?_eq_none hcut)
      | some pair =>
          obtain ⟨front, back⟩ := pair
          have hshort := Text.length_of_cut? hcut
          obtain ⟨rfl, hfront⟩ := Text.cut?_eq_some hcut
          exact line front back hfront (ih back.length (by omega) back rfl)

theorem terminated_append (s t : Text) :
    terminated (s ++ t) = terminated s ++ terminated (unterminated s ++ t) := by
  induction s using by_lines with
  | plain s h => rw [terminated_of_not_mem h, unterminated_of_not_mem h, List.nil_append]
  | line line rest h ih =>
      rw [List.append_assoc, List.cons_append, terminated_line h, terminated_line h, unterminated_line h,
        ih, List.cons_append]

theorem unterminated_append (s t : Text) : unterminated (s ++ t) = unterminated (unterminated s ++ t) := by
  induction s using by_lines with
  | plain s h => rw [unterminated_of_not_mem h]
  | line line rest h ih => rw [List.append_assoc, List.cons_append, unterminated_line h, unterminated_line h, ih]

theorem not_mem_unterminated (s : Text) : 10 ∉ unterminated s := by
  induction s using by_lines with
  | plain s h => rwa [unterminated_of_not_mem h]
  | line line rest h ih => rwa [unterminated_line h]

/-! ## Taking lines -/

theorem takeLines_false (s : Text) : takeLines false s = (terminated s, unterminated s) := by
  fun_induction takeLines false s with
  | case1 s hempty =>
      obtain rfl := List.isEmpty_iff.mp hempty
      rfl
  | case2 s hempty line rest hcut lines left htake ih =>
      obtain ⟨rfl, hline⟩ := Text.cut?_eq_some hcut
      rw [terminated_line hline, unterminated_line hline]
      cases htake.symm.trans ih
      rfl
  | case3 s hempty hcut hall => cases hall
  | case4 s hempty hcut hall =>
      have hplain := Text.cut?_eq_none hcut
      rw [terminated_of_not_mem hplain, unterminated_of_not_mem hplain]

theorem takeLines_true (s : Text) : takeLines true s = (entries s, []) := by
  fun_induction takeLines true s with
  | case1 s hempty =>
      obtain rfl := List.isEmpty_iff.mp hempty
      rfl
  | case2 s hempty line rest hcut lines left htake ih =>
      obtain ⟨rfl, hline⟩ := Text.cut?_eq_some hcut
      rw [entries_eq, terminated_line hline, unterminated_line hline, List.cons_append, ← entries_eq]
      cases htake.symm.trans ih
      rfl
  | case3 s hempty hcut hall =>
      have hplain := Text.cut?_eq_none hcut
      rw [entries_eq, terminated_of_not_mem hplain, unterminated_of_not_mem hplain, if_neg hempty]
      rfl
  | case4 s hempty hcut hall => exact absurd rfl hall

/-! ## A run of writes -/

/-- Writes chunks one after the other; for each of them the answer and the lines that it completes. -/
def acceptAll (log : LineLog) : List Text → List (Receipt × List Text) × LineLog
  | [] => ([], log)
  | chunk :: rest =>
    let (receipt, lines, log) := log.accept chunk
    let (later, log) := log.acceptAll rest
    ((receipt, lines) :: later, log)

/-- A write logs the lines that it terminates, and keeps what is after them. -/
theorem accept_unterminated (s chunk : Text) : (LineLog.mk (unterminated s)).accept chunk
    = (⟨chunk.length, none⟩, terminated (unterminated s ++ chunk), ⟨unterminated (s ++ chunk)⟩) := by
  rw [accept, takeLines_false, ← unterminated_append]

theorem acceptAll_unterminated (chunks : List Text) : ∀ s : Text,
    let run := (LineLog.mk (unterminated s)).acceptAll chunks
    run.1.map Prod.fst = (chunks.map fun chunk => ⟨chunk.length, none⟩) ∧
      (∀ k, terminated s ++ (run.1.take k).flatMap Prod.snd = terminated (s ++ (chunks.take k).flatten)) ∧
      run.2 = ⟨unterminated (s ++ chunks.flatten)⟩ := by
  induction chunks with
  | nil =>
      intro s
      refine ⟨rfl, fun k => ?_, ?_⟩
      · simp [acceptAll]
      · simp [acceptAll]
  | cons chunk rest ih =>
      intro s
      -- what is kept after the chunk is what is unterminated of all that was written
      obtain ⟨hreceipts, hlines, hleft⟩ := ih (s ++ chunk)
      simp only [acceptAll, accept_unterminated]
      refine ⟨congrArg _ hreceipts, fun k => ?_, ?_⟩
      · cases k with
        | zero => simp
        | succ k =>
            have hlater := hlines k
            rw [terminated_append, List.append_assoc, List.append_assoc] at hlater
            simpa using hlater
      · rw [hleft, List.flatten_cons, List.append_assoc]

/-- Every write takes all of its chunk. After any number of writes just the lines that have been terminated
are logged, and when the log is closed all lines are: it does not matter where the chunks begin and end. -/
theorem chunks_logged (chunks : List Text) :
    let run := empty.acceptAll chunks
    run.1.map Prod.fst = (chunks.map fun chunk => ⟨chunk.length, none⟩) ∧
      (∀ k, (run.1.take k).flatMap Prod.snd = terminated (chunks.take k).flatten) ∧
      run.1.flatMap Prod.snd ++ run.2.close = entries chunks.flatten := by
  intro run
  obtain ⟨hreceipts, hlines, hleft⟩ := acceptAll_unterminated chunks []
  have hterminated : ∀ k, (run.1.take k).flatMap Prod.snd = terminated (chunks.take k).flatten := hlines
  refine ⟨hreceipts, hterminated, ?_⟩
  have hlength : run.1.length = chunks.length := by
    have hlengths := congrArg List.length hreceipts
    rwa [List.length_map, List.length_map] at hlengths
  have hall := hterminated chunks.length
  rw [List.take_of_length_le (Nat.le_of_eq hlength), List.take_length] at hall
  have hclose : run.2.close = entries (unterminated chunks.flatten) := by
    show (takeLines true run.2.partialLine).1 = _
    rw [takeLines_true]
    exact congrArg (fun log : LineLog => entries log.partialLine) hleft
  have hplain := not_mem_unterminated chunks.flatten
  rw [hall, hclose, entries_eq, terminated_of_not_mem hplain, unterminated_of_not_mem hplain,
    List.nil_append, ← entries_eq]

end LineLog

end Linewise
