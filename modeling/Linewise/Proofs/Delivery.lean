import Linewise.Proofs.Loading
import Linewise.Proofs.Twin

/-!
# Lines that come one by one

A program can be loaded before it runs, or its lines can be asked for while it runs. The two runs hold
different programs and different labels as long as they last, but no command can tell them apart, except
by a jump to a label that has not been read yet. The loop keeps the two machines `Paired`, one with the
lines read so far and the other with all of them, and both do the same (`Agrees`) until the end of the run.
`asking_eq_loading` compares the two runs as a whole.
-/

namespace Linewise

open Machine Linewise.Action

variable {α : Type} {x : Action α} {post : α → Prop}

/-! ## The loop on two machines -/

/-- Twins with the same script, which the second one has as its program. -/
structure Paired (m m' : Machine) : Prop where
  twin : Twin m m'
  script : m.script = m'.script
  memory : m.sink.InMemory
  /-- The feed only hands out its lines. -/
  plain : ∀ feed, m.feed = some feed → feed.failure = none ∧ feed.watched = false ∧ feed.prompt = []
  loaded : m'.feed = none
  declares : DeclaresOwn m'

/-- There is a line at the pointer. -/
def Ready (m : Machine) : Prop := 0 ≤ m.pointer ∧ m.pointer < m.lines.size

/-- An action does the same on both machines of a pair, and leaves a pair behind, unless the first
misses a label. -/
def Agrees (x : Action α) (pre : Machine → Prop) (post : α → Machine → Prop) : Prop :=
  ∀ m m', Paired m m' → pre m → Lost (x.result m) ∨
    x.result m = x.result m' ∧ Paired (x.after m) (x.after m') ∧
      ∀ a, x.result m = .ok a → post a (x.after m)

/-- A pair stays one as long as both machines stay twins and keep their programs. -/
theorem Paired.keep {m m' n n' : Machine} (h : Paired m m') (htwin : Twin n n') (hn : SameProgram m n)
    (hn' : SameProgram m' n') : Paired n n' where
  twin := htwin
  script := by
    have hscript := h.script
    rw [Machine.script, Machine.script] at hscript ⊢
    rw [hn.feed, hn.lines, hn'.feed, hn'.lines]
    exact hscript
  memory := hn.sink h.memory
  plain := by rw [hn.feed]; exact h.plain
  loaded := by rw [hn'.feed]; exact h.loaded
  declares := by
    have hdeclares := h.declares
    rw [DeclaresOwn] at hdeclares ⊢
    rw [hn'.lines, hn'.labels]
    exact hdeclares

namespace Agrees

variable {β : Type} {f : α → Action β} {pre : Machine → Prop}

theorem bind {mid : α → Machine → Prop} {post : β → Machine → Prop} (hx : Agrees x pre mid)
    (hf : ∀ a, Agrees (f a) (mid a) post) : Agrees (x >>= f) pre post := by
  intro m m' h hpre
  rcases hx m m' h hpre with ⟨line, label, hlost⟩ | ⟨hresult, hpaired, hmid⟩
  · exact .inl ⟨line, label, result_bind_error hlost⟩
  · cases hr : x.result m with
    | error e =>
        rw [hr] at hresult
        rw [result_bind_error hr, after_bind_error hr, result_bind_error hresult.symm,
          after_bind_error hresult.symm]
        exact .inr ⟨rfl, hpaired, nofun⟩
    | ok a =>
        rw [hr] at hresult
        rw [result_bind_ok hr, after_bind_ok hr, result_bind_ok hresult.symm,
          after_bind_ok hresult.symm]
        exact hf a _ _ hpaired (hmid a hr)

theorem pure {a : α} {post : α → Machine → Prop} (h : ∀ m, pre m → post a m) :
    Agrees (pure a) pre post :=
  fun m _ hpaired hpre => .inr ⟨rfl, hpaired, fun b hb => by cases hb; exact h m hpre⟩

theorem throw {e : Stop} {post : α → Machine → Prop} : Agrees (throw e) pre post :=
  fun _ _ hpaired _ => .inr ⟨rfl, hpaired, nofun⟩

/-- Reading the core, which is the same on both machines. -/
theorem look {k : Machine → Action α} {post : α → Machine → Prop} (hk : ∀ m, k m = k m.core)
    (h : ∀ m, Agrees (k m) pre post) : Agrees (get >>= k) pre post := by
  intro m m' hpaired hpre
  have hsame : k m' = k m := by rw [hk m, hk m', hpaired.twin.core_eq]
  rw [result_get_bind, after_get_bind, result_get_bind, after_get_bind, hsame]
  exact h m m m' hpaired hpre

theorem routine (h : Routine .free x post) : Agrees x pre fun _ _ => True := by
  intro m m' hpaired _
  rcases h.twin hpaired.twin with hlost | ⟨hresult, htwin⟩
  · exact .inl hlost
  · have hm := (h.spec m (Conduct.free_good m)).1.sameProgram
    have hm' := (h.spec m' (Conduct.free_good m')).1.sameProgram
    exact .inr ⟨hresult, hpaired.keep htwin hm hm', fun _ _ => trivial⟩

theorem halt {post : α → Machine → Prop} (f : Failure) : Agrees (halt f) pre post := by
  intro m m' hpaired _
  rw [result_halt, result_halt, after_halt, after_halt]
  refine .inr ⟨rfl, hpaired.keep (hpaired.twin.halted f) ?_ ?_, nofun⟩
  · exact (changes_halted (c := .free) m f).sameProgram
  · exact (changes_halted (c := .free) m' f).sameProgram

/-- A change of what the core holds. -/
theorem modify {g : Machine → Machine} (htwin : ∀ m m', Twin m m' → Twin (g m) (g m'))
    (hprogram : ∀ m, SameProgram m (g m)) : Agrees (modify g) pre fun _ _ => True :=
  fun m m' h _ => .inr ⟨rfl, h.keep (htwin m m' h.twin) (hprogram m) (hprogram m'), fun _ _ => trivial⟩

theorem record (o : Occurrence) (hpre : ∀ m history, pre m → pre { m with history }) :
    Agrees (record o) pre fun _ => pre := by
  intro m m' h hm
  refine .inr ⟨rfl, h.keep (h.twin.setHistory _ _) ⟨rfl, rfl, rfl, id⟩ ⟨rfl, rfl, rfl, id⟩, fun _ _ => ?_⟩
  exact hpre m _ hm

end Agrees

variable {self : Dispatch}

theorem agrees_drain (hself : Routine.Dispatches .free self) (count : Nat) :
    Agrees (drain self count) (fun _ => True) fun _ _ => True := by
  induction count with
  | zero =>
      refine .look (fun _ => rfl) fun m => ?_
      split
      · exact .pure fun _ => id
      · exact .throw
  | succ count ih =>
      refine .look (fun _ => rfl) fun m => ?_
      split
      · exact .pure fun _ => id
      · rename_i target rest _
        refine Agrees.bind (.modify ?_ fun _ => ⟨rfl, rfl, rfl, id⟩) fun _ => ?_
        · intro m m' h
          cases h with
          | mk sources feed lines labels trace history ht hl => exact .mk _ _ _ _ _ _ ht hl
        · refine (Agrees.record _ fun _ _ => id).bind fun _ => ?_
          exact (Agrees.routine (Routine.trigger hself "jump" _)).bind fun _ => ih

/-! ## Finding a line on two machines -/

/-- The lines read so far are a part of all lines. -/
theorem Paired.size_le {m m' : Machine} (h : Paired m m') : m.lines.size ≤ m'.lines.size := by
  have hscript := congrArg List.length h.script
  simp only [Machine.script, h.loaded, Option.elim_none, List.append_nil, List.length_append,
    List.length_map, Array.length_toList] at hscript
  omega

/-- The loaded program is the script. -/
theorem Paired.tokens_eq {m m' : Machine} (h : Paired m m') :
    m'.lines.toList.map Line.tokens = m.script := by
  rw [h.script, Machine.script, h.loaded]
  simp

/-- The lines read so far have the tokens of the lines at the same place. -/
theorem Paired.tokens {m m' : Machine} (h : Paired m m') {index : Nat} {line : Line}
    (hline : m.lines[index]? = some line) :
    ∃ line', m'.lines[index]? = some line' ∧ line'.tokens = line.tokens := by
  have hindex : (m'.lines.toList.map Line.tokens)[index]? = some line.tokens := by
    obtain ⟨hlt, heq⟩ := Array.getElem?_eq_some_iff.mp hline
    rw [h.tokens_eq, Machine.script, List.getElem?_append_left (by simpa using hlt)]
    simp [hline]
  simpa using hindex

/-- Turning to a plain feed only leaves a record of it. -/
theorem turnToFeed_run {m : Machine} {feed : Feed} (hm : m.sink.InMemory) (hw : feed.watched = false)
    (hp : feed.prompt = []) :
    (turnToFeed feed).run.run m
      = (.ok (), { m with history := m.moment (.asked none) :: m.history }) := by
  have hflush : flush.run.run m = (.ok none, m) := by
    show (Except.ok m.sink.flush.1, { m with sink := m.sink.flush.2 }) = _
    rw [hm.flush]
  have hresult : flush.result m = .ok none := congrArg Prod.fst hflush
  have hafter : flush.after m = m := congrArg Prod.snd hflush
  rw [turnToFeed, run_bind, hresult, hafter]
  simp only [recordAsking, showPrompt, checkView, hw, hp]
  rfl

/-- The label of a line depends on its tokens only. -/
theorem label?_congr {line line' : Line} (h : line'.tokens = line.tokens) : line'.label? = line.label? := by
  rw [Line.label?, Line.label?, h]

/-- The next line of the feed is there on the other side, after the lines read so far. -/
theorem Paired.next {m m' : Machine} (h : Paired m m') {feed : Feed} {text : Text} {rest : List Text}
    (hfeed : m.feed = some { feed with lines := text :: rest }) :
    ∃ line, m'.lines[m.lines.size]? = some line ∧ line.tokens = text.words := by
  have hindex : (m'.lines.toList.map Line.tokens)[m.lines.size]? = some text.words := by
    rw [h.tokens_eq, Machine.script, hfeed]
    simp
  simpa using hindex

/-- Reading one more line from the feed keeps the pair. -/
theorem Paired.grow {m m' : Machine} (h : Paired m m') {feed : Feed} {text : Text} {rest : List Text}
    (hfeed : m.feed = some { feed with lines := text :: rest }) (location : Location)
    (history : List Moment) :
    Paired { { m with history }.addLine location text with feed := some { feed with lines := rest } } m' where
  twin := by
    refine .of_core h.twin.core_eq h.twin.tracing ?_
    intro name target hget
    cases hlabel : (⟨location, text.words⟩ : Line).label? with
    | none =>
        simp only [addLine, hlabel] at hget
        exact h.twin.labels name target hget
    | some declared =>
        simp only [addLine, hlabel, Dict.get?_insert] at hget
        split at hget
        · rename_i hname
          cases hget
          -- on the other side the line has been there from the start, and has kept its label
          obtain ⟨line, hline, htokens⟩ := h.next hfeed
          rw [hname]
          exact h.declares _ line declared hline ((label?_congr htokens).trans hlabel)
        · exact h.twin.labels name target hget
  script := by
    rw [← h.script, Machine.script, Machine.script, hfeed]
    simp [addLine]
  memory := h.memory
  plain := by
    rintro _ ⟨⟩
    exact h.plain { feed with lines := text :: rest } hfeed
  loaded := h.loaded
  declares := h.declares

/-- A feed without lines can be dropped. -/
theorem Paired.close {m m' : Machine} (h : Paired m m') {feed : Feed}
    (hfeed : m.feed = some { feed with lines := [] }) (history : List Moment) :
    Paired { m with feed := none, history } m' where
  twin := .of_core h.twin.core_eq h.twin.tracing h.twin.labels
  script := by
    rw [← h.script, Machine.script, Machine.script, hfeed]
    rfl
  memory := h.memory
  plain := nofun
  loaded := h.loaded
  declares := h.declares

/-- The other side sees the same pointer. -/
theorem Paired.pointer_eq {m m' : Machine} (h : Paired m m') : m'.pointer = m.pointer := by
  obtain ⟨sources, feed, lines, labels, trace, history, _, _⟩ := h.twin
  rfl

/-- Whether there is a line at the pointer. -/
def Machine.hasLine (m : Machine) : Bool := decide (0 ≤ m.pointer) && !m.isPastEnd

/-- Inside the program no line is taken from the feed. -/
theorem fetchFrom_inside (feed : Feed) (texts : List Text) {m : Machine} (h : m.isPastEnd = false) :
    (fetchFrom feed texts).run.run m = (.ok (decide (0 ≤ m.pointer)), m) := by
  cases texts with
  | nil | cons =>
      show StateT.run (ExceptT.run (if m.isPastEnd = true then _ else _)) m = _
      rw [if_neg (by rw [h]; decide)]
      rfl

theorem fetchFrom_nil (feed : Feed) {m : Machine} (h : m.isPastEnd = true) (hm : m.sink.InMemory)
    (hf : feed.failure = none) (hw : feed.watched = false) (hp : feed.prompt = []) :
    (fetchFrom feed []).run.run m
      = (.ok false, { m with feed := none, history := m.moment (.asked none) :: m.history }) := by
  have hturn := turnToFeed_run hm hw hp
  have hresult : (turnToFeed feed).result m = .ok () := congrArg Prod.fst hturn
  have hafter : (turnToFeed feed).after m = _ := congrArg Prod.snd hturn
  show StateT.run (ExceptT.run (if m.isPastEnd = true then _ else _)) m = _
  rw [if_pos h]
  show (turnToFeed feed >>= fun _ => _).run.run m = _
  rw [run_bind, hresult, hafter, hf]
  rfl

theorem fetchFrom_cons (feed : Feed) {text : Text} {rest : List Text} {m : Machine}
    (h : m.isPastEnd = true) (hm : m.sink.InMemory) (hw : feed.watched = false) (hp : feed.prompt = []) :
    (fetchFrom feed (text :: rest)).run.run m = (fetchFrom feed rest).run.run
      { { m with history := m.moment (.asked none) :: m.history }.addLine
          ⟨"<interactive>", m.lines.size + 1⟩ text with feed := some { feed with lines := rest } } := by
  have hturn := turnToFeed_run hm hw hp
  have hresult : (turnToFeed feed).result m = .ok () := congrArg Prod.fst hturn
  have hafter : (turnToFeed feed).after m = _ := congrArg Prod.snd hturn
  show StateT.run (ExceptT.run (if m.isPastEnd = true then _ else _)) m = _
  rw [if_pos h]
  show (turnToFeed feed >>= fun _ => _).run.run m = _
  rw [run_bind, hresult, hafter]
  rfl

/-- Without a feed it only matters whether there is a line at the pointer. -/
theorem fetch_of_none {m : Machine} (h : m.feed = none) : fetch.run.run m = (.ok m.hasLine, m) := by
  rw [fetch, run_get_bind, h]
  rfl

theorem fetch_of_some {m : Machine} {feed : Feed} (h : m.feed = some feed) :
    fetch.run.run m = (fetchFrom feed feed.lines).run.run m := by
  simp only [fetch, run_get_bind, h]

/-- Looking for a line on the first machine finds one if the second has it. -/
def Finds (x : Action Bool) (m m' : Machine) : Prop :=
  ∃ n, x.run.run m = (.ok m'.hasLine, n) ∧ Paired n m' ∧ (m'.hasLine = true → Ready n)

/-- Once all lines have been read, both machines have the same lines. -/
theorem Paired.hasLine_eq {m m' : Machine} (h : Paired m m')
    (hread : ∀ feed, m.feed = some feed → feed.lines = []) : m'.hasLine = m.hasLine := by
  have hsize : m'.lines.size = m.lines.size := by
    have hlength := congrArg List.length h.script
    cases hfeed : m.feed with
    | none => simpa [Machine.script, h.loaded, hfeed] using hlength.symm
    | some feed => simpa [Machine.script, h.loaded, hfeed, hread feed hfeed] using hlength.symm
  rw [hasLine, hasLine, isPastEnd, isPastEnd, hsize, h.pointer_eq]

/-- A line that has been read is there on both sides. -/
theorem Paired.finds_inside {m m' : Machine} (h : Paired m m') (feed : Feed) (texts : List Text)
    (hend : m.isPastEnd = false) : Finds (fetchFrom feed texts) m m' := by
  have hlt : m.pointer < m.lines.size := by simpa [isPastEnd] using hend
  have hline : m'.hasLine = decide (0 ≤ m.pointer) := by
    have hsize := h.size_le
    have hend' : m'.isPastEnd = false := by
      rw [isPastEnd, h.pointer_eq, decide_eq_false_iff_not]
      omega
    rw [hasLine, hend', h.pointer_eq, Bool.not_false, Bool.and_true]
  rw [Finds, fetchFrom_inside feed texts hend, hline]
  exact ⟨m, rfl, h, fun h0 => ⟨of_decide_eq_true h0, hlt⟩⟩

/-- Taking lines from the feed gives what the loaded program has. -/
theorem finds_fetchFrom {m' : Machine} (feed : Feed) (texts : List Text) : ∀ {m : Machine},
    Paired m m' → m.feed = some { feed with lines := texts } → Finds (fetchFrom feed texts) m m' := by
  induction texts with
  | nil =>
      intro m h hfeed
      obtain ⟨hfailure, hwatched, hprompt⟩ := h.plain _ hfeed
      cases hend : m.isPastEnd with
      | false => exact h.finds_inside feed [] hend
      | true =>
          -- no line is left for the pointer, here or there
          have hline : m'.hasLine = false := by
            rw [h.hasLine_eq (by rw [hfeed]; rintro _ ⟨⟩; rfl), hasLine, hend]
            exact Bool.and_false _
          rw [Finds, fetchFrom_nil feed hend h.memory hfailure hwatched hprompt, hline]
          exact ⟨_, rfl, h.close hfeed _, nofun⟩
  | cons text rest ih =>
      intro m h hfeed
      obtain ⟨hfailure, hwatched, hprompt⟩ := h.plain _ hfeed
      cases hend : m.isPastEnd with
      | false => exact h.finds_inside feed (text :: rest) hend
      | true =>
          -- one line may not be enough, as the pointer can have skipped lines that were not read yet
          rw [Finds, fetchFrom_cons feed hend h.memory hwatched hprompt]
          exact ih (h.grow hfeed _ _) rfl

theorem Paired.finds_fetch {m m' : Machine} (h : Paired m m') : Finds fetch m m' := by
  cases hfeed : m.feed with
  | some feed =>
      rw [Finds, fetch_of_some hfeed]
      exact finds_fetchFrom feed feed.lines h hfeed
  | none =>
      rw [Finds, fetch_of_none hfeed, h.hasLine_eq (by rw [hfeed]; nofun)]
      refine ⟨m, rfl, h, fun hfound => ?_⟩
      simpa [Ready, hasLine, isPastEnd] using hfound

/-- Whether there is a line at the pointer is the same for both machines. -/
theorem agrees_fetch : Agrees fetch (fun _ => True) fun found m => found = true → Ready m := by
  intro m m' h _
  obtain ⟨n, hread, hpaired, hready⟩ := h.finds_fetch
  have hresult : fetch.result m = .ok m'.hasLine := congrArg Prod.fst hread
  have hafter : fetch.after m = n := congrArg Prod.snd hread
  have hresult' : fetch.result m' = .ok m'.hasLine := congrArg Prod.fst (fetch_of_none h.loaded)
  have hafter' : fetch.after m' = m' := congrArg Prod.snd (fetch_of_none h.loaded)
  rw [hresult, hafter, hresult', hafter']
  refine .inr ⟨rfl, hpaired, ?_⟩
  rintro found ⟨⟩ hfound
  exact hready hfound

/-! ## Running a line on two machines -/

/-- The machine on which the tokens of a line are run: the line is in the history and the trace. -/
def beforeTokens (m : Machine) (line : Line) : Machine :=
  { m with
    history := m.moment (.stepped m.pointer.toNat) :: m.history
    trace := m.trace.map fun t => t.add '@' (line.location.text ++ (32 :: line.text)) }

theorem step_of_empty {m : Machine} {line : Line} (h : m.lines[m.pointer.toNat]? = some line)
    (hempty : line.tokens.isEmpty = true) :
    (step self).run.run m
      = (.ok (), { m with history := m.moment (.stepped m.pointer.toNat) :: m.history }) := by
  rw [step, run_get_bind, h]
  show StateT.run (ExceptT.run (if line.tokens.isEmpty = true then _ else _)) _ = _
  rw [if_pos hempty]
  rfl

theorem step_of_tokens {m : Machine} {line : Line} (h : m.lines[m.pointer.toNat]? = some line)
    (hempty : line.tokens.isEmpty = false) :
    (step self).run.run m = (self line.tokens >>= fun _ => pure ()).run.run (beforeTokens m line) := by
  rw [step, run_get_bind, h]
  show StateT.run (ExceptT.run (if line.tokens.isEmpty = true then _ else _)) _ = _
  rw [if_neg (by rw [hempty]; decide)]
  show (note '@' (fun _ => some (line.location.text ++ (32 :: line.text))) >>= fun _ =>
    self line.tokens >>= fun _ => pure ()).run.run _ = _
  rw [run_bind, result_note_some, after_note_some]
  rfl

/-- Running a line does the same on both machines, as they have the same tokens there. -/
theorem agrees_step (hself : Routine.Dispatches .free self) :
    Agrees (step self) Ready fun _ _ => True := by
  intro m m' h hready
  obtain ⟨line, hline⟩ : ∃ line, m.lines[m.pointer.toNat]? = some line := by
    have hlt : m.pointer.toNat < m.lines.size := by
      obtain ⟨h0, h1⟩ := hready
      omega
    exact ⟨_, Array.getElem?_eq_getElem hlt⟩
  obtain ⟨line', hline', htokens⟩ := h.tokens hline
  rw [← h.pointer_eq] at hline'
  have hstepped : Twin { m with history := m.moment (.stepped m.pointer.toNat) :: m.history }
      { m' with history := m'.moment (.stepped m'.pointer.toNat) :: m'.history } :=
    h.twin.setHistory _ _
  show Lost ((step self).run.run m).1 ∨ ((step self).run.run m).1 = ((step self).run.run m').1 ∧
    Paired ((step self).run.run m).2 ((step self).run.run m').2 ∧ _
  cases hempty : line.tokens.isEmpty with
  | true =>
      rw [step_of_empty hline hempty, step_of_empty hline' (by rw [htokens]; exact hempty)]
      exact .inr ⟨rfl, h.keep hstepped ⟨rfl, rfl, rfl, id⟩ ⟨rfl, rfl, rfl, id⟩, fun _ _ => trivial⟩
  | false =>
      -- locations differ, but they go to the trace only: what is dispatched is the same
      rw [step_of_tokens hline hempty, step_of_tokens hline' (by rw [htokens]; exact hempty), htokens]
      have hroutine : Routine .free (self line.tokens >>= fun _ => pure ()) fun _ => True :=
        .bind (hself.routine line.tokens fun _ _ => trivial) fun _ _ => .pure trivial
      have hpaired : Paired (beforeTokens m line) (beforeTokens m' line') :=
        h.keep (hstepped.mapTrace _ _) ⟨rfl, rfl, rfl, id⟩ ⟨rfl, rfl, rfl, id⟩
      have hagrees : Agrees _ (fun _ => True) _ := .routine hroutine
      rcases hagrees _ _ hpaired trivial with hlost | ⟨hresult, hafter, -⟩
      · exact .inl hlost
      · exact .inr ⟨hresult, hafter, fun _ _ => trivial⟩

theorem agrees_checkInterruption {pre : Machine → Prop} :
    Agrees checkInterruption pre fun _ => pre := by
  refine .look (fun _ => rfl) fun m => ?_
  split
  · exact .halt _
  · exact .pure fun _ => id

theorem agrees_fetched : Agrees (get >>= fun m => record (.fetched m.pointer.toNat)) Ready fun _ => Ready :=
  .look (fun _ => rfl) fun _ => .record _ fun _ _ => id

theorem agrees_advance :
    Agrees (modify fun m => { m with pointer := m.pointer + 1 }) (fun _ => True) fun _ _ => True := by
  refine .modify ?_ fun _ => ⟨rfl, rfl, rfl, id⟩
  intro m m' h
  cases h with
  | mk sources feed lines labels trace history ht hl => exact .mk _ _ _ _ _ _ ht hl

theorem agrees_cycle (hself : Routine.Dispatches .free self) (jumps count : Nat) :
    Agrees (cycle self jumps count) (fun _ => True) fun _ _ => True := by
  induction count with
  | zero => exact .throw
  | succ count ih =>
      refine (agrees_drain hself jumps).bind fun _ => .look (fun _ => rfl) fun m => ?_
      split
      · refine agrees_fetch.bind fun found => ?_
        cases found with
        | false => exact .pure fun _ _ => trivial
        | true =>
            have hline := agrees_fetched.bind fun _ => agrees_checkInterruption.bind fun _ =>
              (agrees_step hself).bind fun _ => agrees_advance.bind fun _ => ih
            have hready : ∀ {y : Action Unit}, Agrees y Ready (fun _ _ => True) →
                Agrees y (fun m => true = true → Ready m) fun _ _ => True :=
              fun hy m m' hm hpre => hy m m' hm (hpre rfl)
            simpa only [bind_assoc, if_pos] using hready hline
      · exact .pure fun _ _ => trivial

/-- The end is announced alike. -/
theorem agrees_announceEnd (hself : Routine.Dispatches .free self) :
    Agrees (announceEnd self) (fun _ => True) fun _ _ => True := by
  refine Agrees.bind (.modify ?_ fun _ => ⟨rfl, rfl, rfl, id⟩) fun _ => .look (fun _ => rfl) fun m => ?_
  · intro m m' h
    cases h with
    | mk sources feed lines labels trace history ht hl => exact .mk _ _ _ _ _ _ ht hl
  · refine Agrees.bind (.routine (.note _ _)) fun _ => ?_
    refine (Agrees.record .ended fun _ _ => id).bind fun _ => ?_
    exact .routine (Routine.trigger hself "end" [])

theorem agrees_flush : Agrees flush (fun _ => True) fun _ _ => True := by
  intro m m' h _
  have hsink : m'.sink = m.sink := by
    obtain ⟨sources, feed, lines, labels, trace, history, _, _⟩ := h.twin
    rfl
  have hchange : ∀ m : Machine, SameProgram m (flush.after m) :=
    fun m => (Change.flush : Change .free m _).sameProgram
  refine .inr ⟨?_, h.keep (h.twin.setSink fun s => s.flush.2) (hchange m) (hchange m'), fun _ _ => trivial⟩
  show Except.ok m.sink.flush.1 = Except.ok m'.sink.flush.1
  rw [hsink]

/-- From the start of the loop to the end of the run the two machines do the same. -/
theorem agrees_body (fuel : Nat) : Agrees (body fuel) (fun _ => True) fun _ _ => True := by
  have hself : Routine.Dispatches .free (exec fuel) := Routine.exec fuel
  refine (agrees_cycle hself fuel fuel).bind fun _ => (agrees_announceEnd hself).bind fun _ => ?_
  refine agrees_flush.bind fun e => ?_
  split
  · exact .throw
  · exact .pure fun _ => id

/-! ## The two runs -/

/-- A feed that hands out lines and then just ends. -/
def Feed.ofLines (texts : List Text) : Feed := ⟨texts, none, false, []⟩

namespace Machine

/-- The machine that asks for the lines of its program one by one. -/
def asking (m : Machine) (texts : List Text) : Machine :=
  { m with sources := .ofSources [], feed := some (.ofLines texts), closeError := none }

/-- The machine that loads its program from sources. -/
def loading (m : Machine) (sources : List Source) : Machine :=
  { m with sources := .ofSources sources, feed := none, closeError := none }

end Machine

/-- A machine that asks for its lines has nothing to load. -/
theorem loadProgram_asking (m : Machine) (texts : List Text) :
    ∃ sources, loadProgram.run.run (m.asking texts) = (.ok (), { m.asking texts with sources }) := by
  have hempty : (m.asking texts).sources = .ofSources [] := rfl
  obtain ⟨ls, sources, hrun, hls⟩ := loadProgram_holds hempty .nil nofun (.inr rfl)
  have hnil : ls = [] := List.map_eq_nil_iff.mp hls
  subst hnil
  exact ⟨sources, hrun⟩

section

variable {m : Machine} {sources : List Source} {groups : List (List Text)}

/-- Both machines start the loop as a pair. -/
theorem paired_started (hlines : m.lines = #[]) (hlabels : m.labels = .empty)
    (hsink : m.sink.InMemory) (hsources : List.Forall₂ SourceReader.Holds sources groups)
    (htexts : groups.flatten ≠ []) (hvalid : ∀ t ∈ groups.flatten, t.IsLine)
    (hunique : (declaredLabels (groups.flatten.map Text.words)).Nodup) :
    loadProgram.result (m.loading sources) = .ok () ∧
      Paired (m.asking groups.flatten).started (m.loading sources).started := by
  obtain ⟨rest, hasking⟩ := loadProgram_asking m groups.flatten
  obtain ⟨ls, rest', hloading, hls⟩ :=
    loadProgram_holds (m := m.loading sources) rfl hsources hvalid (.inl htexts)
  obtain ⟨lines, labels, hframe⟩ := addLines_frame (m.loading sources) ls
  have hasked : (m.asking groups.flatten).started
      = { m.asking groups.flatten with sources := rest, running := true, pointer := 0 } := by
    rw [started, show loadProgram.after (m.asking groups.flatten) = _ from congrArg Prod.snd hasking]
  have hloaded : (m.loading sources).started
      = { addLines (m.loading sources) ls with sources := rest', running := true, pointer := 0 } := by
    rw [started, show loadProgram.after (m.loading sources) = _ from congrArg Prod.snd hloading]
  have htokens := tokens_addLines (m.loading sources) ls
  have hempty : (m.loading sources).lines = #[] := hlines
  rw [hempty, hls] at htokens
  have hdeclares : DeclaresOwn (addLines (m.loading sources) ls) := by
    refine declaresOwn_addLines ?_ ls ?_
    · intro index line name hline
      rw [hempty] at hline
      cases hline
    · rw [hempty, hls]
      exact hunique
  refine ⟨congrArg Prod.fst hloading, ?_⟩
  rw [hasked, hloaded]
  constructor
  · refine .of_core ?_ ?_ ?_
    · rw [hframe]
      rfl
    · rw [hframe]
      rfl
    · intro name target hget
      have hget : m.labels.get? name = some target := hget
      rw [hlabels] at hget
      cases hget
  · have hfeed : (addLines (m.loading sources) ls).feed = none := by rw [hframe]; rfl
    show m.lines.toList.map Line.tokens ++ groups.flatten.map Text.words
      = (addLines (m.loading sources) ls).lines.toList.map Line.tokens
        ++ (addLines (m.loading sources) ls).feed.elim [] fun feed => feed.lines.map Text.words
    rw [htokens, hfeed, hlines]
    simp
  · exact hsink
  · rintro feed ⟨⟩
    exact ⟨rfl, rfl, rfl⟩
  · show (addLines (m.loading sources) ls).feed = none
    rw [hframe]
    rfl
  · exact hdeclares

/-- The outcome of a result depends on how closing the feed went, and on nothing else. -/
theorem outcome_congr {m m' : Machine} (h : m.closeError = m'.closeError) (r : Except Stop Unit) :
    m.outcome r = m'.outcome r := by
  rw [outcome.eq_def, outcome.eq_def, h]

/-- A run that asks for its lines one by one and misses no label, and a run that loads the same lines
from any sources, have the same outcome and leave the same machine behind, up to the program itself, the
trace and the history. -/
theorem asking_eq_loading (fuel : Nat) (hlines : m.lines = #[]) (hlabels : m.labels = .empty)
    (hsink : m.sink.InMemory) {texts : List Text} (htexts : texts ≠ []) (hvalid : ∀ t ∈ texts, t.IsLine)
    (hunique : (declaredLabels (texts.map Text.words)).Nodup)
    (hsources : List.Forall₂ SourceReader.Holds sources groups) (hgroups : groups.flatten = texts)
    (hfound : ∀ line label, (run fuel (m.asking texts)).1 ≠ .failed (.fatal line (.unknownLabel label))) :
    (run fuel (m.loading sources)).1 = (run fuel (m.asking texts)).1 ∧
      (run fuel (m.loading sources)).2.core = (run fuel (m.asking texts)).2.core := by
  subst hgroups
  obtain ⟨rest, hasking⟩ := loadProgram_asking m groups.flatten
  obtain ⟨hloaded, hpaired⟩ :=
    paired_started hlines hlabels hsink hsources htexts hvalid hunique
  obtain ⟨hresult, hafter⟩ := program_of_load_ok fuel (congrArg Prod.fst hasking)
  obtain ⟨hresult', hafter'⟩ := program_of_load_ok fuel hloaded
  rcases agrees_body fuel _ _ hpaired trivial with ⟨line, label, hlost⟩ | ⟨hsame, hend, -⟩
  · refine absurd ?_ (hfound line label)
    rw [run_outcome, hresult, hlost]
    rfl
  · have hcore : ((program fuel).after (m.loading sources)).core
        = ((program fuel).after (m.asking groups.flatten)).core := by
      rw [hafter, hafter']
      exact hend.twin.core_eq.symm
    refine ⟨?_, hcore⟩
    rw [run_outcome, run_outcome, hresult, hresult', hsame]
    exact outcome_congr (congrArg Machine.closeError hcore) _

end

/-- A program that runs two of its lines a second time. -/
def repeating : List (List Text) :=
  [["push s number 1", "label a"], ["print string x", "if pop s", "goto a"], ["print string y"]]

/-- A machine that writes to memory. -/
def writing : Machine := { initial .standard with sink := .one (.direct .memory) }

theorem repeating_asking_eq_loading :
    (run 20 (writing.loading (repeating.map fun group => .ofText "p" (Text.unlines group)))).1 = .finished ∧
      (run 20 (writing.loading (repeating.map fun group => .ofText "p" (Text.unlines group)))).2.core
        = (run 20 (writing.asking repeating.flatten)).2.core := by
  have hfinished : (run 20 (writing.asking repeating.flatten)).1 = .finished := by decide +kernel
  have hsources : List.Forall₂ SourceReader.Holds
      (repeating.map fun group => Source.ofText "p" (Text.unlines group)) repeating :=
    .cons ⟨rfl, rfl⟩ (.cons ⟨rfl, rfl⟩ (.cons ⟨rfl, rfl⟩ .nil))
  have hsame := asking_eq_loading (m := writing) 20 rfl rfl ⟨[], rfl⟩ (by decide)
    (by unfold Text.IsLine; decide) (by decide) hsources rfl (by rw [hfinished]; nofun)
  rw [hfinished] at hsame
  exact hsame

end Linewise
