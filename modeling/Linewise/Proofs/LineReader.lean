import Linewise.Proofs.Loading

/-!
# What a reader answers

A queue of sources determines every answer of its reader: source by source the pieces of the text
between line feeds, then what became of the source, and after the last one the end, for ever
(`transcript`). Each answer goes with the count of sources closed by then: a source is closed after its
last line feed, before the answer that its last piece or its failure is, and before anything of the next
source. `answer_ofSources` says that the reader keeps to this. The proof follows the source in use, of
which some lines may have been read already (`SourceReader.owed`); `readLine_spec` is one request.
-/

namespace Linewise

/-! ## Answers of one source -/

/-- A piece of a text without a carriage return at its very end. -/
def withoutReturn (piece : List Char) : List Char :=
  if piece.getLast? = some '\r' then piece.dropLast else piece

namespace OpenSource

variable (o : OpenSource)

/-- The pieces of what is left, with line feeds between them. There is at least one. -/
def pieces : List (List Char) := o.rest.splitOn '\n'

def lineOf (index : Nat) (piece : List Char) : SourceLine :=
  ⟨⟨o.source.title, o.line + index⟩, Text.ofChars (withoutReturn piece)⟩

/-- The lines that line feeds end. -/
def ended : List LineResult := o.pieces.dropLast.mapIdx fun index piece => .line (o.lineOf index piece)

/-- What the last piece gives, which no line feed ends: nothing if it is empty and there is no failure to
tell. -/
def ending : List LineResult :=
  let last := o.pieces.getLastD []
  let line := o.lineOf (o.pieces.length - 1) last
  match o.source.failure with
  | none => if last.isEmpty then [] else [.line line]
  | some message => [.failed (if last.isEmpty then none else some line) message]

end OpenSource

/-- A source before its first line. -/
def Source.opened (s : Source) : OpenSource := ⟨s, s.text.chars, 1⟩

/-- How many of some sources have to be closed. -/
def closers (sources : List Source) : Nat := sources.countP Source.closable

/-- The answers of a source, each with the count of sources closed by then. -/
def OpenSource.owed (o : OpenSource) (closed : Nat) : List (LineResult × Nat) :=
  o.ended.map (·, closed) ++ o.ending.map (·, closed + closers [o.source])

/-- The answers of a queue of sources, each with the count of sources closed by then. -/
def transcript : (closed : Nat) → List Source → List (LineResult × Nat)
  | _, [] => []
  | closed, s :: queue => s.opened.owed closed ++ transcript (closed + closers [s]) queue

namespace SourceReader

/-- The answer to a request after so many others, with the count of sources closed by then. -/
def answer (r : SourceReader) : (before : Nat) → LineResult × Nat
  | 0 => (r.readLine.1, r.readLine.2.closed)
  | before + 1 => r.readLine.2.answer before

/-- The answers that a reader has still to give. -/
def owed (r : SourceReader) : List (LineResult × Nat) :=
  match r.current with
  | none => transcript r.closed r.queue
  | some o => o.owed r.closed ++ transcript (r.closed + closers [o.source]) r.queue

/-- How many sources will have been closed in the end. -/
def total (r : SourceReader) : Nat :=
  r.closed + closers (r.current.toList.map OpenSource.source) + closers r.queue

/-! ## Texts of lines -/

/-- A carriage return is the only character whose encoding ends in its byte. -/
theorem getLast?_encode {c : Char} (h : c ≠ '\r') : (Rune.encode c).getLast? ≠ some 13 := by
  intro hlast
  -- all other bytes of an encoding are past 127
  have hpast : ∀ n : Nat, UInt8.ofNat (n % 64 + 128) ≠ 13 := by
    intro n hn
    have := congrArg UInt8.toNat hn
    simp at this
    omega
  rw [Rune.encode, String.utf8EncodeChar] at hlast
  split at hlast
  · rename_i hascii
    have hbyte : UInt8.ofNat c.val.toNat = 13 := Option.some.inj hlast
    have hval : c.val.toNat = 13 := by
      have hnat := congrArg UInt8.toNat hbyte
      rw [UInt8.toNat_ofNat', show (13 : UInt8).toNat = 13 from rfl] at hnat
      omega
    exact h (Char.ext (UInt32.toNat_inj.mp hval))
  · split at hlast
    · exact hpast _ (by simpa using hlast)
    · split at hlast <;> exact hpast _ (by simpa using hlast)

theorem lineText_eq (piece : List Char) : lineText piece = Text.ofChars (withoutReturn piece) := by
  rcases List.eq_nil_or_concat piece with rfl | ⟨front, c, rfl⟩
  · rfl
  · have hbytes : Text.ofChars (front ++ [c]) = Text.ofChars front ++ Rune.encode c := by
      simp [Text.ofChars]
    by_cases hc : c = '\r'
    · subst hc
      have hencode : Rune.encode '\r' = [13] := by decide
      simp [lineText, withoutReturn, Text.dropEnding, hbytes, hencode]
    · have hsuffix : ¬ [13] <:+ Text.ofChars front ++ Rune.encode c := by
        rintro ⟨bytes, hbytes⟩
        have hlast := congrArg List.getLast? hbytes
        have hnonempty : Rune.encode c ≠ [] := String.utf8EncodeChar_ne_nil
        rw [List.getLast?_append_of_ne_nil _ hnonempty] at hlast
        exact getLast?_encode hc (by simpa using hlast.symm)
      simp [lineText, withoutReturn, Text.dropEnding, hbytes, hsuffix, hc]

/-! ## One request -/

/-- What is left is cut at its first line feed, if it has one. -/
theorem cutLine_cases (chars : List Char) :
    (∃ piece rest, chars = piece ++ '\n' :: rest ∧ '\n' ∉ piece ∧ cutLine chars = (piece, some rest)) ∨
      '\n' ∉ chars ∧ cutLine chars = (chars, none) := by
  induction chars with
  | nil => exact .inr ⟨List.not_mem_nil, rfl⟩
  | cons c chars ih =>
      by_cases hc : c = '\n'
      · subst hc
        exact .inl ⟨[], chars, rfl, List.not_mem_nil, rfl⟩
      · rcases ih with ⟨piece, rest, rfl, hpiece, hcut⟩ | ⟨hchars, hcut⟩
        · refine .inl ⟨c :: piece, rest, rfl, ?_, ?_⟩
          · simp [hpiece, Ne.symm hc]
          · rw [cutLine, if_neg hc, hcut]
        · refine .inr ⟨?_, ?_⟩
          · simp [hchars, Ne.symm hc]
          · rw [cutLine, if_neg hc, hcut]

/-- A line feed ends the first answer; the source goes on after it, one line further. -/
theorem owed_cons {source : Source} {piece : List Char} (hpiece : '\n' ∉ piece) (rest : List Char)
    (line closed : Nat) :
    (OpenSource.mk source (piece ++ '\n' :: rest) line).owed closed
      = (.line ⟨⟨source.title, line⟩, lineText piece⟩, closed)
        :: (OpenSource.mk source rest (line + 1)).owed closed := by
  have hpieces : (OpenSource.mk source (piece ++ '\n' :: rest) line).pieces
      = piece :: (OpenSource.mk source rest (line + 1)).pieces :=
    List.splitOn_append_cons_self_of_not_mem hpiece rest
  have hsome : (OpenSource.mk source rest (line + 1)).pieces ≠ [] := List.splitOn_ne_nil _ _
  obtain ⟨next, more, hmore⟩ := List.exists_cons_of_ne_nil hsome
  have hended : (OpenSource.mk source (piece ++ '\n' :: rest) line).ended
      = .line ⟨⟨source.title, line⟩, lineText piece⟩ :: (OpenSource.mk source rest (line + 1)).ended := by
    simp only [OpenSource.ended, hpieces, hmore, List.dropLast_cons_cons, List.mapIdx_cons, lineText_eq,
      OpenSource.lineOf]
    simp [Nat.add_comm, Nat.add_left_comm]
  have hending : (OpenSource.mk source (piece ++ '\n' :: rest) line).ending
      = (OpenSource.mk source rest (line + 1)).ending := by
    simp only [OpenSource.ending, hpieces, hmore, OpenSource.lineOf]
    simp [Nat.add_comm, Nat.add_left_comm]
  simp [OpenSource.owed, hended, hending]

/-- Without a line feed there is one piece, and the source is used up. -/
theorem owed_last (source : Source) {chars : List Char} (hchars : '\n' ∉ chars) (line closed : Nat) :
    (OpenSource.mk source chars line).owed closed = match source.failure with
      | none => if chars.isEmpty then []
        else [(.line ⟨⟨source.title, line⟩, lineText chars⟩, closed + closers [source])]
      | some message => [(.failed (if chars.isEmpty then none
        else some ⟨⟨source.title, line⟩, lineText chars⟩) message, closed + closers [source])] := by
  have hpieces : (OpenSource.mk source chars line).pieces = [chars] := List.splitOn_eq_singleton hchars
  simp only [OpenSource.owed, OpenSource.ended, OpenSource.ending, hpieces, OpenSource.lineOf, lineText_eq]
  cases source.failure with
  | none => cases chars <;> simp
  | some message => simp

theorem afterClosing_eq (closed : Nat) (s : Source) : afterClosing closed s = closed + closers [s] := by
  cases h : s.closable <;> simp [afterClosing, closers, h]

/-- A request gives the first of the answers that are due, and leaves the rest. -/
structure Gave (due : List (LineResult × Nat)) (total : Nat) (found : LineResult × SourceReader) :
    Prop where
  due : due = (found.1, found.2.closed) :: found.2.owed
  total : found.2.total = total

/-- A source in use gives its first answer, or has none left. -/
theorem readOpen_spec (queue : List Source) (closed : Nat) (o : OpenSource) :
    (readOpen queue closed o = none ∧ o.owed closed = []) ∨
      ∃ found, readOpen queue closed o = some found ∧
        Gave (SourceReader.mk (some o) queue closed).owed (SourceReader.mk (some o) queue closed).total
          found := by
  obtain ⟨source, chars, line⟩ := o
  have hclosed := afterClosing_eq closed source
  have htotal : SourceReader.total ⟨some ⟨source, chars, line⟩, queue, closed⟩
      = SourceReader.total ⟨none, queue, closed + closers [source]⟩ := by
    simp [SourceReader.total, closers]
  rcases cutLine_cases chars with ⟨piece, rest, rfl, hpiece, hcut⟩ | ⟨hchars, hcut⟩
  · refine .inr ⟨(.line ⟨⟨source.title, line⟩, lineText piece⟩,
      ⟨some ⟨source, rest, line + 1⟩, queue, closed⟩), ?_, ?_, rfl⟩
    · simp [readOpen, hcut]
    · simp [SourceReader.owed, owed_cons hpiece]
  · -- the last piece: what becomes of it depends on how the source ends
    have howed := owed_last source hchars line closed
    cases hf : source.failure with
    | some message =>
        refine .inr ⟨(.failed (if chars.isEmpty then none
          else some ⟨⟨source.title, line⟩, lineText chars⟩) message,
          ⟨none, queue, closed + closers [source]⟩), ?_, ?_, htotal.symm⟩
        · simp [readOpen, hcut, hf, hclosed]
        · simp [SourceReader.owed, howed, hf]
    | none =>
        cases chars with
        | nil => exact .inl ⟨by simp [readOpen, hcut, hf], by simp [howed, hf]⟩
        | cons c chars =>
            refine .inr ⟨(.line ⟨⟨source.title, line⟩, lineText (c :: chars)⟩,
              ⟨none, queue, closed + closers [source]⟩), ?_, ?_, htotal.symm⟩
            · simp [readOpen, hcut, hf, hclosed]
            · simp [SourceReader.owed, howed, hf]

/-- A request gives the first of the answers that are due; if there is none, all sources are used up. -/
def Answered (due : List (LineResult × Nat)) (total : Nat) (found : LineResult × SourceReader) : Prop :=
  (due = [] ∧ found = (.ended, ⟨none, [], total⟩)) ∨ Gave due total found

theorem readQueue_spec (queue : List Source) (closed : Nat) :
    Answered (transcript closed queue) (closed + closers queue) (readQueue queue closed) := by
  induction queue generalizing closed with
  | nil => exact .inl ⟨rfl, rfl⟩
  | cons s queue ih =>
      have htotal : closed + closers (s :: queue) = closed + closers [s] + closers queue := by
        simp [closers, List.countP_cons, Nat.add_assoc, Nat.add_comm]
      rw [htotal, readQueue]
      rcases readOpen_spec queue closed s.opened with ⟨hnone, howed⟩ | ⟨found, hfound, hgave⟩
      · -- an empty source is closed on the way to the next one
        rw [show (⟨s, s.text.chars, 1⟩ : OpenSource) = s.opened from rfl, hnone, transcript, howed,
          afterClosing_eq]
        exact ih _
      · rw [show (⟨s, s.text.chars, 1⟩ : OpenSource) = s.opened from rfl, hfound]
        exact .inr hgave

theorem readLine_spec (r : SourceReader) : Answered r.owed r.total r.readLine := by
  obtain ⟨current, queue, closed⟩ := r
  cases current with
  | none => exact readQueue_spec queue closed
  | some o =>
      rw [readLine]
      rcases readOpen_spec queue closed o with ⟨hnone, howed⟩ | ⟨found, hfound, hgave⟩
      · simp only [hnone, SourceReader.owed, howed, List.nil_append, afterClosing_eq]
        exact readQueue_spec queue _
      · simp only [hfound]
        exact .inr hgave

/-! ## All requests -/

theorem answer_eq (before : Nat) (r : SourceReader) :
    r.answer before = r.owed[before]?.getD (.ended, r.total) := by
  induction before generalizing r with
  | zero =>
      rcases readLine_spec r with ⟨hdue, hfound⟩ | ⟨hdue, -⟩
      · simp [answer, hdue, hfound]
      · simp [answer, hdue]
  | succ before ih =>
      rw [answer, ih]
      rcases readLine_spec r with ⟨hdue, hfound⟩ | ⟨hdue, htotal⟩
      · -- a reader that has nothing left stays like that
        have howed : (SourceReader.mk none [] r.total).owed = [] := rfl
        have htotal : (SourceReader.mk none [] r.total).total = r.total := rfl
        simp [hdue, hfound, howed, htotal]
      · simp [hdue, htotal]

/-- A reader gives the answers of its sources, one after the other, and then the end, however often it is
asked; and of the sources that have to be closed it has closed those that it should have. -/
theorem answer_ofSources (queue : List Source) (before : Nat) :
    (ofSources queue).answer before = (transcript 0 queue)[before]?.getD (.ended, closers queue) := by
  have htotal : (ofSources queue).total = closers queue := by
    simp [SourceReader.total, ofSources, closers]
  rw [answer_eq, htotal]
  rfl

/-- A source that ends with a line feed is closed before the next one is read, one that fails before the
failure is told. -/
example : transcript 0 [⟨some "p", "a\r\n\n", none, true⟩, ⟨some "q", "\r", some "lost", true⟩]
    = [(.line ⟨⟨"p", 1⟩, "a"⟩, 0), (.line ⟨⟨"p", 2⟩, []⟩, 0),
      (.failed (some ⟨⟨"q", 1⟩, []⟩) "lost", 2)] := by decide

end SourceReader

end Linewise
