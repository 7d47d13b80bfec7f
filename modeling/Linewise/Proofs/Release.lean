import Linewise.Proofs.LineReader

/-!
# Which sources a run closes

Sources are closed while the program is loaded, each when it has been read to its end, and loading stops
at the first one that fails. So a run has closed the sources up to that one, and never touches those
behind it (`readLine_settles` is one request, `loadLines_settled` all of them). What the run does afterwards
does not concern the sources, whatever becomes of it.
-/

namespace Linewise

open Machine Linewise.Action Control

/-! ## Sources that are read -/

/-- The sources up to the first one that fails. -/
def reached : List Source → List Source
  | [] => []
  | s :: rest => s :: if s.failure.isSome then [] else reached rest

/-- The sources behind the first one that fails. -/
def unread : List Source → List Source
  | [] => []
  | s :: rest => if s.failure.isSome then rest else unread rest

theorem reached_append_unread (sources : List Source) : reached sources ++ unread sources = sources := by
  induction sources with
  | nil => rfl
  | cons s rest ih =>
      by_cases hf : s.failure.isSome = true
      · simp [reached, unread, hf]
      · simp [reached, unread, hf, ih]

theorem closers_cons (s : Source) (rest : List Source) :
    closers (s :: rest) = closers [s] + closers rest := by
  simp [closers, List.countP_cons, Nat.add_comm]

theorem length_chars_le (s : Text) : s.chars.length ≤ s.length := by
  have hfrom : ∀ skip, (Text.runesFrom skip s).length ≤ s.length := by
    induction s with
    | nil => simp [Text.runesFrom]
    | cons b rest ih =>
        intro skip
        cases skip with
        | zero => simpa [Text.runesFrom] using ih _
        | succ skip => exact Nat.le_succ_of_le (ih skip)
  simpa [Text.chars, Text.runes] using hfrom 0

namespace SourceReader

/-- The source in use, and those still to come. -/
def sources (r : SourceReader) : List Source := r.current.toList.map OpenSource.source ++ r.queue

/-- The reader after it has been asked for lines until it had none, or failed. -/
def settled (r : SourceReader) : SourceReader :=
  ⟨none, unread r.sources, r.closed + closers (reached r.sources)⟩

/-- An answer leads towards what the reader will be in the end. -/
structure Settles (r : SourceReader) (found : LineResult × SourceReader) : Prop where
  line : ∀ l, found.1 = .line l → found.2.settled = r.settled ∧ found.2.remaining < r.remaining
  last : (∀ l, found.1 ≠ .line l) → found.2 = r.settled

theorem settles_line {r r' : SourceReader} {l : SourceLine} (hsettled : r'.settled = r.settled)
    (hless : r'.remaining < r.remaining) : r.Settles (.line l, r') :=
  ⟨fun _ _ => ⟨hsettled, hless⟩, fun h => absurd rfl (h l)⟩

/-- A source in use that ends is closed, and the next one follows; one that fails is the last. -/
theorem settled_some (o : OpenSource) (queue : List Source) (closed : Nat) :
    settled ⟨some o, queue, closed⟩ = if o.source.failure.isSome
      then ⟨none, queue, afterClosing closed o.source⟩
      else settled ⟨none, queue, afterClosing closed o.source⟩ := by
  by_cases hf : o.source.failure.isSome = true
  · simp [settled, sources, reached, unread, hf, afterClosing_eq]
  · have hclosers := closers_cons o.source (reached queue)
    simp [settled, sources, reached, unread, hf, afterClosing_eq, hclosers, Nat.add_assoc]

theorem readOpen_settles (queue : List Source) (closed : Nat) (o : OpenSource) :
    (readOpen queue closed o = none ∧ o.source.failure = none) ∨
      ∃ found, readOpen queue closed o = some found ∧ Settles ⟨some o, queue, closed⟩ found := by
  obtain ⟨source, chars, line⟩ := o
  have hsettled := settled_some ⟨source, chars, line⟩ queue closed
  rcases cutLine_cases chars with ⟨piece, rest, rfl, hpiece, hcut⟩ | ⟨hchars, hcut⟩
  · refine .inr ⟨(.line ⟨⟨source.title, line⟩, lineText piece⟩,
      ⟨some ⟨source, rest, line + 1⟩, queue, closed⟩), ?_, settles_line rfl ?_⟩
    · simp [readOpen, hcut]
    · simp only [remaining, Option.elim_some, List.length_append, List.length_cons]
      omega
  · cases hf : source.failure with
    | some message =>
        refine .inr ⟨(.failed (if chars.isEmpty then none
          else some ⟨⟨source.title, line⟩, lineText chars⟩) message,
          ⟨none, queue, afterClosing closed source⟩), ?_, ?_, fun _ => ?_⟩
        · simp [readOpen, hcut, hf]
        · rintro l ⟨⟩
        · simp [hsettled, hf]
    | none =>
        cases chars with
        | nil => exact .inl ⟨by simp [readOpen, hcut, hf], rfl⟩
        | cons c chars =>
            refine .inr ⟨(.line ⟨⟨source.title, line⟩, lineText (c :: chars)⟩,
              ⟨none, queue, afterClosing closed source⟩), ?_, settles_line ?_ ?_⟩
            · simp [readOpen, hcut, hf]
            · simp [hsettled, hf]
            · simp [remaining]

/-- Readers that will be the same in the end, the second of which may have more to read. -/
theorem Settles.of_le {r r' : SourceReader} {found : LineResult × SourceReader} (h : r'.Settles found)
    (hsettled : r'.settled = r.settled) (hle : r'.remaining ≤ r.remaining) : r.Settles found where
  line l hl := ⟨(h.line l hl).1.trans hsettled, Nat.lt_of_lt_of_le (h.line l hl).2 hle⟩
  last hl := (h.last hl).trans hsettled

theorem readQueue_settles (queue : List Source) (closed : Nat) :
    Settles ⟨none, queue, closed⟩ (readQueue queue closed) := by
  induction queue generalizing closed with
  | nil => exact ⟨nofun, fun _ => rfl⟩
  | cons s queue ih =>
      have hopen : settled ⟨some s.opened, queue, closed⟩ = settled ⟨none, s :: queue, closed⟩ := rfl
      have hchars := length_chars_le s.text
      rw [readQueue]
      rcases readOpen_settles queue closed s.opened with ⟨hnone, hf⟩ | ⟨found, hfound, hsettles⟩
      · rw [show (⟨s, s.text.chars, 1⟩ : OpenSource) = s.opened from rfl, hnone]
        refine (ih _).of_le ?_ ?_
        · have hf : s.opened.source.failure.isSome = false := by simp [hf]
          rw [← hopen, settled_some, hf]
          rfl
        · simp [remaining]
      · rw [show (⟨s, s.text.chars, 1⟩ : OpenSource) = s.opened from rfl, hfound]
        refine hsettles.of_le hopen ?_
        simp only [remaining, Source.opened, Option.elim_some, Option.elim_none, List.foldr_cons]
        omega

theorem readLine_settles (r : SourceReader) : r.Settles r.readLine := by
  obtain ⟨current, queue, closed⟩ := r
  cases current with
  | none => exact readQueue_settles queue closed
  | some o =>
      rw [readLine]
      rcases readOpen_settles queue closed o with ⟨hnone, hf⟩ | ⟨found, hfound, hsettles⟩
      · simp only [hnone]
        refine (readQueue_settles queue _).of_le ?_ ?_
        · simp [settled_some, hf]
        · simp [remaining]
      · simp only [hfound]
        exact hsettles

end SourceReader

/-! ## Loading and running -/

/-- Loading asks for lines until there is none, or the sources fail. -/
theorem loadLines_settled (count : Nat) {m : Machine} (h : m.sources.remaining < count) :
    ((loadLines count).after m).sources = m.sources.settled := by
  induction count generalizing m with
  | zero => exact absurd h (Nat.not_lt_zero _)
  | succ count ih =>
      obtain ⟨result, sources, hr⟩ : ∃ result sources, m.sources.readLine = (result, sources) := ⟨_, _, rfl⟩
      have hafter : (loadLines (count + 1)).after m = (onLine count result).after { m with sources } :=
        congrArg Prod.snd (loadLines_succ count hr)
      have hsettles := m.sources.readLine_settles
      rw [hr] at hsettles
      rw [hafter]
      cases result with
      | line l =>
          obtain ⟨hsettled, hless⟩ := hsettles.line l rfl
          have hrest : sources.remaining < count := by
            simp only at hless
            omega
          exact (ih (m := { m with sources }.addLine l.location l.text) hrest).trans hsettled
      | failed l message =>
          have hhalt : (onLine count (.failed l message)).after { m with sources }
              = { m with sources }.halted (.input message) := after_halt _ _
          rw [hhalt]
          exact hsettles.last nofun
      | ended => exact hsettles.last nofun

theorem loadProgram_settled (m : Machine) : (loadProgram.after m).sources = m.sources.settled := by
  have hlines := loadLines_settled (m := m) (m.sources.remaining + 1) (Nat.lt_succ_self _)
  rw [(loadProgram_eq m).2]
  cases hr : (loadLines (m.sources.remaining + 1)).result m with
  | error e =>
      rw [after_bind_error hr]
      exact hlines
  | ok u =>
      rw [after_bind_ok hr, refuseEmpty, after_get_bind]
      split
      · rw [after_fail]
        exact hlines
      · exact hlines

/-- No move concerns the sources. -/
theorem Control.Path.sources_eq {c : Conduct} {s t : Control} (h : Path c s t) : t.sources = s.sources := by
  induction h with
  | refl => rfl
  | tail _ hm ih => cases hm <;> exact ih

/-- Whatever becomes of a run, its sources are as they were left after loading. -/
theorem run_settled (fuel : Nat) (m : Machine) : (run fuel m).2.sources = m.sources.settled := by
  obtain ⟨start, phase, hstart, hpath⟩ := run_path fuel m
  have hend : (run fuel m).2.sources = start.sources := hpath.sources_eq
  rw [hend]
  rcases hstart with rfl | rfl
  · exact loadProgram_settled m
  · exact loadProgram_settled m

/-! ## Single sources -/

/-- A source whose closing is not counted. -/
def Source.unwatched (s : Source) : Source := { s with closable := false }

/-- The sources with only one of them watched for its closing. -/
def watched : (index : Nat) → List Source → List Source
  | _, [] => []
  | 0, s :: rest => s :: rest.map Source.unwatched
  | index + 1, s :: rest => s.unwatched :: watched index rest

/-- How often a run closes one of its sources. -/
def closings (fuel : Nat) (m : Machine) (index : Nat) : Nat :=
  (run fuel { m with sources := .ofSources (watched index m.sources.queue) }).2.sources.closed

theorem closers_unwatched (rest : List Source) : closers (rest.map Source.unwatched) = 0 := by
  simp [closers, Source.unwatched]

theorem reached_unwatched (rest : List Source) :
    reached (rest.map Source.unwatched) = (reached rest).map Source.unwatched := by
  induction rest with
  | nil => rfl
  | cons s rest ih =>
      by_cases hf : s.failure.isSome = true
      · simp [reached, Source.unwatched, hf]
      · simp [reached, hf, ih, Source.unwatched]

/-- Of watched sources, the one is counted if it is reached and has to be closed. -/
theorem closers_watched (index : Nat) (sources : List Source) :
    closers (reached (watched index sources)) = closers (reached sources)[index]?.toList := by
  induction sources generalizing index with
  | nil => simp [watched, reached]
  | cons s rest ih =>
      cases index with
      | zero =>
          have hrest : closers (reached (rest.map Source.unwatched)) = 0 := by
            rw [reached_unwatched, closers_unwatched]
          rw [watched, reached, reached, closers_cons]
          by_cases hf : s.failure.isSome = true
          · simp [hf, closers]
          · simp [hf, hrest]
      | succ index =>
          have hs : closers [s.unwatched] = 0 := closers_unwatched [s]
          have hfailure : s.unwatched.failure = s.failure := rfl
          rw [watched, reached, reached, closers_cons, hs, hfailure]
          by_cases hf : s.failure.isSome = true
          · simp [hf, closers]
          · simp [hf, ih]

/-- The answers of some sources, without the counts. -/
def answers (sources : List Source) : List LineResult :=
  sources.flatMap fun s => s.opened.ended ++ s.opened.ending

theorem map_fst_transcript (closed : Nat) (sources : List Source) :
    (transcript closed sources).map Prod.fst = answers sources := by
  induction sources generalizing closed with
  | nil => rfl
  | cons s rest ih =>
      rw [answers] at ih ⊢
      simp [transcript, OpenSource.owed, ih, Function.comp_def]

theorem answers_watched (index : Nat) (sources : List Source) :
    answers (watched index sources) = answers sources := by
  have hrest : ∀ rest : List Source, answers (rest.map Source.unwatched) = answers rest := by
    intro rest
    rw [answers, List.flatMap_map]
    rfl
  induction sources generalizing index with
  | nil => simp [watched]
  | cons s rest ih =>
      cases index with
      | zero =>
          rw [watched, answers, List.flatMap_cons]
          exact congrArg _ (hrest rest)
      | succ index =>
          rw [watched, answers, List.flatMap_cons]
          exact congrArg _ (ih index)

theorem fst_answer_ofSources (queue : List Source) (before : Nat) :
    ((SourceReader.ofSources queue).answer before).1 = (answers queue)[before]?.getD .ended := by
  rw [SourceReader.answer_eq, ← map_fst_transcript 0, List.getElem?_map]
  show _ = ((SourceReader.ofSources queue).owed[before]?.map Prod.fst).getD .ended
  cases (SourceReader.ofSources queue).owed[before]? <;> rfl

/-- Which source is watched makes no difference to what is read. -/
theorem answer_watched (index : Nat) (sources : List Source) (before : Nat) :
    ((SourceReader.ofSources (watched index sources)).answer before).1
      = ((SourceReader.ofSources sources).answer before).1 := by
  rw [fst_answer_ofSources, fst_answer_ofSources, answers_watched]

/-- A run closes the sources up to the first one that fails, each once if it has to be closed, and leaves
the others in its queue, whatever the outcome. So it closes every source that has to be closed unless one
of them stands behind a source that fails. The closings of a single source are counted by watching no
other, which makes no difference to what is read. -/
theorem run_releases (fuel : Nat) {m : Machine} {sources : List Source}
    (hm : m.sources = .ofSources sources) :
    (run fuel m).2.sources = ⟨none, unread sources, closers (reached sources)⟩ ∧
    (∀ index, closings fuel m index = closers (reached sources)[index]?.toList) ∧
    (∀ index before, ((SourceReader.ofSources (watched index sources)).answer before).1
      = ((SourceReader.ofSources sources).answer before).1) ∧
    ((∀ s ∈ unread sources, s.closable = false) →
      (run fuel m).2.sources.closed = closers sources ∧
      ∀ index s, sources[index]? = some s → s.closable = true → closings fuel m index = 1) := by
  have hsettled : ∀ queue, (SourceReader.ofSources queue).settled
      = ⟨none, unread queue, closers (reached queue)⟩ := by
    intro queue
    simp [SourceReader.settled, SourceReader.sources, SourceReader.ofSources]
  have hend : (run fuel m).2.sources = ⟨none, unread sources, closers (reached sources)⟩ := by
    rw [run_settled, hm, hsettled]
  have hclosings : ∀ index, closings fuel m index = closers (reached sources)[index]?.toList := by
    intro index
    rw [closings, run_settled, hsettled, hm]
    exact closers_watched index sources
  refine ⟨hend, hclosings, fun index before => answer_watched index sources before, fun hbehind => ?_⟩
  have hparts := reached_append_unread sources
  constructor
  · have hunread : closers (unread sources) = 0 := by
      simpa [closers, List.countP_eq_zero] using hbehind
    have hall : closers sources = closers (reached sources) + closers (unread sources) := by
      conv_lhs => rw [← hparts]
      exact List.countP_append
    rw [hend, hall, hunread]
    rfl
  · intro index s hs hclosable
    have hreached : (reached sources)[index]? = some s := by
      rw [← hparts] at hs
      by_cases hlt : index < (reached sources).length
      · rwa [List.getElem?_append_left hlt] at hs
      · rw [List.getElem?_append_right (Nat.not_lt.mp hlt)] at hs
        have hfalse := hbehind s (List.mem_of_getElem? hs)
        rw [hclosable] at hfalse
        cases hfalse
    simp [hclosings, hreached, closers, hclosable]

/-- A machine with an empty source, one that lacks its last line feed, and one that fails behind them. -/
def brokenOff : Machine :=
  { initial .standard with
    sources := .ofSources [⟨some "a", [], none, true⟩, ⟨some "b", "rem", none, true⟩,
      ⟨some "c", "rem\nre", some "torn", true⟩, ⟨some "d", "rem", none, false⟩] }

/-- All of its sources that have to be closed are, although the run fails. -/
theorem brokenOff_releases : (run 9 brokenOff).1 = .failed (.input "torn") ∧
    (run 9 brokenOff).2.sources.closed = 3 ∧ closings 9 brokenOff 2 = 1 := by
  obtain ⟨-, -, -, hall⟩ := run_releases 9 (m := brokenOff) rfl
  obtain ⟨hclosed, hone⟩ := hall (by decide)
  exact ⟨by decide +kernel, hclosed.trans (by decide), hone 2 _ rfl rfl⟩

/-- A machine whose second source stands behind one that fails. -/
def abandoning : Machine :=
  { initial .standard with
    sources := .ofSources [⟨some "a", [], some "boom", false⟩, ⟨some "b", "rem", none, true⟩] }

/-- A source behind one that fails is never closed. -/
theorem not_releases_always : ¬ ∀ (fuel : Nat) (m : Machine) (sources : List Source),
    m.sources = .ofSources sources → ∀ index s, sources[index]? = some s → s.closable = true →
      closings fuel m index = 1 := by
  intro h
  have hclosed := h 1 abandoning _ rfl 1 ⟨some "b", "rem", none, true⟩ rfl rfl
  rw [closings, run_settled] at hclosed
  exact absurd hclosed (by decide)

end Linewise
