import Linewise.Proofs.Loop

/-!
# Programs that run straight

Only four builtins decide which line comes next, or make others do so: `goto`, `if`, `exit` and `on`. A
program that never mentions them cannot get at them, whatever it defines, aliases, stores or executes,
and so it runs its lines one after the other. The conduct of such a program is `Conduct.straight`; the
invariant is that the lines fetched so far are an initial segment (`Straight`).
-/

namespace Linewise

open Machine Linewise.Action Control

/-- The names of the commands that steer a run. -/
def steeringWords : List Text := ["goto", "if", "exit", "on"]

/-- The conduct of a program that does not mention a steering word. -/
def Conduct.straight : Conduct where
  token t := t ∉ steeringWords
  builtin b := b.name ∉ steeringWords
  listening := False
  blank := by decide
  any_token := nofun
  listening_of_listen h := h (by decide)

/-- The line that an occurrence says has been fetched. -/
def Occurrence.fetched? : Occurrence → Option Nat
  | .fetched index => some index
  | _ => none

namespace Machine

/-- A machine as it is made, in any surroundings and without listeners of the host. -/
structure Fresh (m : Machine) : Prop extends m.Unstarted where
  registry : m.registry = .standard
  listeners : m.listeners = .empty
  object : m.object = .empty
  stack : ∀ ref, m.heap.stack ref = .empty

theorem stack_initial (registry : Registry Effect) (ref : StackRef) :
    (initial registry).heap.stack ref = .empty := by
  obtain ⟨index⟩ := ref
  cases index with
  | zero => rfl
  | succ index => rfl

/-- The surroundings of a machine are free. -/
theorem fresh_initial (sources : SourceReader) (feed : Option Feed) (closeError : Option Text)
    (arguments : List Text) (sink : Sink) (storage : Storage) (interruption : Option Interruption)
    (trace : Option Trace) :
    { initial .standard with
      sources, feed, closeError, arguments, sink, storage, interruption, trace }.Fresh where
  lines := rfl
  labels := rfl
  queue := rfl
  history := rfl
  registry := rfl
  listeners := rfl
  object := rfl
  stack := stack_initial .standard

end Machine

/-! ## The builtins of a fresh machine -/

/-- Registering builtins adds nothing but builtins, each under its own name. -/
theorem lookup_registerAll {bs : List Builtin} {r : Registry Effect} {name : Text} {effect : Effect}
    (h : (bs.foldl (fun r b => r.register b.name (.builtin b)) r).lookup name = some effect) :
    (∃ b, name = b.name ∧ effect = .builtin b) ∨ r.lookup name = some effect := by
  induction bs generalizing r with
  | nil => exact .inr h
  | cons b rest ih =>
      rcases ih h with hb | hr
      · exact .inl hb
      · rw [Registry.lookup_register] at hr
        split at hr
        · rename_i hname
          exact .inl ⟨b, hname, (Option.some.inj hr).symm⟩
        · exact .inr hr

theorem lookup_standard {name : Text} {effect : Effect} (h : Registry.standard.lookup name = some effect) :
    ∃ b, name = b.name ∧ effect = .builtin b := by
  rcases lookup_registerAll h with hb | hempty
  · exact hb
  · cases hempty

/-- A fresh machine leads to builtins only, by their names. -/
theorem Machine.Fresh.good_of_names {m : Machine} (fresh : m.Fresh) {c : Conduct}
    (h : ∀ b : Builtin, c.token b.name → c.builtin b) : c.Good m where
  registry := by
    intro name effect hname hlookup
    rw [fresh.registry] at hlookup
    obtain ⟨b, rfl, rfl⟩ := lookup_standard hlookup
    exact h b hname
  listeners := by
    intro event exs h
    rw [fresh.listeners] at h
    cases h
  object := by
    intro key v h
    rw [fresh.object] at h
    cases h
  stack := by
    intro ref v hv
    rw [fresh.stack] at hv
    cases hv

/-- A fresh machine leads a program that does not mention a steering word to none. -/
theorem Machine.Fresh.good {m : Machine} (fresh : m.Fresh) : Conduct.straight.Good m :=
  fresh.good_of_names fun _ h => h

/-! ## The invariant -/

namespace Control

/-- The lines that have been fetched, the latest first. -/
def fetchedBackwards (s : Control) : List Nat :=
  s.history.filterMap fun moment => moment.occurrence.fetched?

theorem fetchedBackwards_note (s : Control) (sink : Sink) (o : Occurrence) :
    (s.note sink o).fetchedBackwards = o.fetched?.toList ++ s.fetchedBackwards := by
  cases h : o.fetched? with
  | none => exact List.filterMap_cons_none h
  | some index => exact List.filterMap_cons_some h

/-- So far the first `count` lines have been fetched, one after the other. -/
structure Straight (s : Control) (count : Nat) : Prop where
  fetched : s.fetchedBackwards = (List.range count).reverse
  queue : s.queue = []
  inside : count ≤ s.lines.size
  announcing : s.phase ≠ .announcing
  between : s.phase = .between → s.pointer = count ∧ s.running = true
  stepping : s.phase = .stepping → s.pointer + 1 = count ∧ s.running = true
  ended : s.phase = .ended → s.pointer = count ∧ s.lines.size = count ∧ s.feed = none

/-- What commands record on their own is not the fetching of a line. -/
theorem fetched?_of_records {c : Conduct} {o : Occurrence} (h : c.Records o) : o.fetched? = none := by
  cases o with
  | fetched index => exact h.elim
  | _ => rfl

/-- No move leaves the straight line. -/
theorem Straight.move {s t : Control} {count : Nat} (hs : s.Straight count)
    (hm : Move .straight s t) : ∃ count', t.Straight count' := by
  cases hm with
  | note o hp ho =>
      refine ⟨count, ?_, hs.queue, hs.inside, hs.announcing, hs.between, hs.stepping, hs.ended⟩
      rw [fetchedBackwards_note, fetched?_of_records ho]
      exact hs.fetched
  -- the names of the builtins behind these moves are steering words
  | jump label target hp hc hl => exact absurd (by decide) hc
  | skip hp hc => exact absurd (by decide) hc
  | stop hp hc =>
      rcases hc with hc | hc
      · exact absurd (by decide) hc
      · exact hc.elim
  | listen event ex hp hc => exact hc.elim
  | interrupt =>
      exact ⟨count, hs.fetched, hs.queue, hs.inside, hs.announcing, hs.between, hs.stepping, hs.ended⟩
  | announce target rest hp hq | call target rest listeners hp hq hl =>
      rw [hs.queue] at hq
      cases hq
  | settle hp => exact absurd hp hs.announcing
  | ask view h =>
      exact ⟨count, hs.fetched, hs.queue, hs.inside, hs.announcing, hs.between, hs.stepping, hs.ended⟩
  | grow feed text rest location h hf hl =>
      refine ⟨count, hs.fetched, hs.queue, ?_, hs.announcing, hs.between, hs.stepping, ?_⟩
      · show count ≤ (s.lines.push _).size
        rw [Array.size_push]
        exact Nat.le_succ_of_le hs.inside
      · intro (hp : s.phase = .ended)
        rw [h.phase] at hp
        cases hp
  | close feed h hf hl =>
      refine ⟨count, hs.fetched, hs.queue, hs.inside, hs.announcing, hs.between, hs.stepping, ?_⟩
      intro hp
      rw [h.phase] at hp
      cases hp
  | fetch hp hq hr h0 h1 =>
      obtain ⟨hpointer, hrunning⟩ := hs.between hp
      rw [hpointer] at h1
      refine ⟨count + 1, ?_, hs.queue, Int.ofNat_lt.mp h1, nofun, nofun, ?_, nofun⟩
      · -- the pointer stands at the line after those fetched so far
        show (s.note _ _).fetchedBackwards = _
        rw [fetchedBackwards_note, hs.fetched, hpointer, Int.toNat_natCast, List.range_succ,
          List.reverse_append]
        rfl
      · intro _
        refine ⟨?_, hrunning⟩
        show s.pointer + 1 = _
        rw [hpointer]
        rfl
  | step hp =>
      exact ⟨count, hs.fetched, hs.queue, hs.inside, hs.announcing, hs.between, hs.stepping, hs.ended⟩
  | advance hp =>
      refine ⟨count, hs.fetched, hs.queue, hs.inside, nofun, fun _ => hs.stepping hp, nofun, nofun⟩
  | finish h | conclude listeners h =>
      obtain ⟨hpointer, hrunning⟩ := hs.between h.phase
      refine ⟨count, hs.fetched, hs.queue, hs.inside, nofun, nofun, nofun, fun _ => ?_⟩
      -- the loop was not told to stop, so it is at the end of what there is to read
      have hend := h.exhausted hrunning
      rw [hpointer] at hend
      rcases hend with hneg | ⟨hsize, hfeed⟩
      · omega
      · have hinside := hs.inside
        exact ⟨hpointer, by show s.lines.size = count; omega, hfeed⟩

theorem Straight.path {s t : Control} {count : Nat} (hs : s.Straight count)
    (h : Path .straight s t) : ∃ count', t.Straight count' := by
  induction h with
  | refl => exact ⟨count, hs⟩
  | tail _ hm ih =>
      obtain ⟨count', ht⟩ := ih
      exact ht.move hm

end Control

/-! ## The run -/

end Linewise
