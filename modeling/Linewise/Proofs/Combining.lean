import Linewise.Proofs.Writing

/-!
# Combined writers

However sinks are combined, and combinations combined again, what comes out is the flat list of the writers
at the leaves (`SinkTree.writers_sink`). A write goes through that list up to the first writer that
complains, and a flush through all of it. So in a sequence of writes that ends with the first complaint,
the writers before the one that complained are ahead of those behind it by the last chunk:
`SinkTree.combination_delivers`.
-/

namespace Linewise

namespace Writer

variable {w : Writer} {chunk : Text}

/-- Only a buffered writer has anything collected. -/
def Plain (w : Writer) : Prop := w.buffered = false → w.pending = []

/-- What is wrong with the answer to a copy of a chunk: an error, or that not all of it was taken. -/
def complaint? (w : Writer) (chunk : Text) : Option WriteError :=
  let receipt := (w.write .copy chunk).1
  receipt.error.or (if receipt.count = chunk.length then none else some .short)

/-- The writer after chunks have been written to it, one after the other. -/
def given (w : Writer) (chunks : List Text) : Writer :=
  chunks.foldl (fun w chunk => (w.write .copy chunk).2) w

/-! ## What a writer has been given -/

/-- A writer has become another one by getting some bytes, which its device may or may not have received. -/
structure Got (w w' : Writer) (bytes : Text) : Prop where
  written : w'.written = w.written ++ bytes
  buffered : w'.buffered = w.buffered

theorem Got.trans {w' w'' : Writer} {first second : Text} (h : Got w w' first) (h' : Got w' w'' second) :
    Got w w'' (first ++ second) where
  written := by rw [h'.written, h.written, List.append_assoc]
  buffered := h'.buffered.trans h.buffered

/-- Getting the front of a chunk and then, `done` bytes and this front being counted, as much of the rest as is
counted. -/
theorem Got.turn {w' w'' : Writer} {taken done count : Nat} (hfront : Got w w' (chunk.take taken))
    (hle : done + taken ≤ count) (hrest : Got w' w'' ((chunk.drop taken).take (count - (done + taken)))) :
    done ≤ count ∧ Got w w'' (chunk.take (count - done)) := by
  have hcount : count - done = taken + (count - (done + taken)) := by omega
  refine ⟨by omega, ?_⟩
  rw [hcount, List.take_add]
  exact hfront.trans hrest

theorem got_flushBuffer (w : Writer) : Got w w.flushBuffer.2 [] := by
  obtain ⟨device, buffered, received, pending, failed⟩ := w
  cases failed with
  | some e => exact ⟨(List.append_nil _).symm, rfl⟩
  | none =>
      rw [flushBuffer]
      dsimp only
      split
      · exact ⟨(List.append_nil _).symm, rfl⟩
      · simp only [deliver]
        split
        · exact ⟨by simp [written, Writer.received], rfl⟩
        · next hnone =>
            -- without an error the device has taken all that was collected
            have hcount : ¬ (device.accept received .copy pending).count < pending.length := by
              intro hlt
              simp [hlt] at hnone
            refine ⟨?_, rfl⟩
            simp [written, Writer.received, List.take_of_length_le (Nat.not_lt.mp hcount)]

/-- A buffered writer gets as much of a chunk as it says. -/
theorem got_writeBuffered (delivery : Delivery) (fuel : Nat) : ∀ (w : Writer) (chunk : Text) (done : Nat),
    done ≤ (writeBuffered delivery fuel w chunk done).1.count ∧
      Got w (writeBuffered delivery fuel w chunk done).2
        (chunk.take ((writeBuffered delivery fuel w chunk done).1.count - done)) := by
  induction fuel with
  | zero =>
      intro w chunk done
      exact ⟨Nat.le_refl _, by simp [writeBuffered], rfl⟩
  | succ fuel ih =>
      intro w chunk done
      rw [writeBuffered]
      cases hfailed : w.failed with
      | some e => exact ⟨Nat.le_refl _, by simp, rfl⟩
      | none =>
          dsimp only
          split
          · refine ⟨Nat.le_add_right _ _, ?_, rfl⟩
            simp [written, Writer.received]
          · split
            · next hdirect =>
                -- the chunk goes around the buffer, and what the device did not take is tried again
                have hp : w.pending = [] := by
                  simp only [Bool.and_eq_true, List.isEmpty_iff] at hdirect
                  exact hdirect.1
                have hfront : Got w
                    { (w.deliver delivery chunk).2 with failed := (w.deliver delivery chunk).1.error }
                    (chunk.take (w.deliver delivery chunk).1.count) :=
                  ⟨by simp [deliver, written, Writer.received, hp], rfl⟩
                exact hfront.turn (ih _ _ _).1 (ih _ _ _).2
            · -- the buffer is filled up and flushed; a flush gives the writer nothing new, whether it fails or not
              have hfilled : Got w { w with pending := w.pending ++ chunk.take (capacity - w.pending.length) }
                  (chunk.take (capacity - w.pending.length)) := ⟨by simp [written, Writer.received], rfl⟩
              have hflushed := hfilled.trans (got_flushBuffer _)
              rw [List.append_nil, hfailed] at hflushed
              exact hflushed.turn (ih _ _ _).1 (ih _ _ _).2

theorem got_write (h : w.Plain) (delivery : Delivery) (chunk : Text) :
    Got w (w.write delivery chunk).2 (chunk.take (w.write delivery chunk).1.count) := by
  rw [write]
  split
  · exact (got_writeBuffered delivery _ w chunk 0).2
  · next hb =>
      have hp := h (Bool.eq_false_iff.mpr hb)
      exact ⟨by simp [deliver, written, Writer.received, hp], rfl⟩

theorem plain_write (h : w.Plain) (delivery : Delivery) (chunk : Text) : (w.write delivery chunk).2.Plain := by
  intro hb
  rw [(got_write h delivery chunk).buffered] at hb
  rw [write, hb]
  exact h hb

theorem complaint?_eq_none (h : w.complaint? chunk = none) :
    (w.write .copy chunk).1 = ⟨chunk.length, none⟩ := by
  obtain ⟨herror, hshort⟩ := Option.or_eq_none_iff.mp h
  by_cases hcount : (w.write .copy chunk).1.count = chunk.length
  · exact Receipt.ext hcount herror
  · simp [hcount] at hshort

/-- A writer that does not complain has got the chunk. -/
theorem got_of_complaint? (h : w.Plain) (hnone : w.complaint? chunk = none) :
    Got w (w.given [chunk]) chunk := by
  have hgot := got_write h .copy chunk
  rwa [complaint?_eq_none hnone, List.take_length] at hgot

end Writer

namespace Sink

variable {ws : List Writer} {chunk : Text}

/-! ## One write -/

/-- The answer to a copy of a chunk that is written to several writers, and these after it: it goes to one
after the other, up to the first that complains. -/
inductive Delivered (chunk : Text) : List Writer → Receipt → List Writer → Prop
  | everywhere {ws : List Writer} (quiet : ∀ v ∈ ws, v.complaint? chunk = Option.none) :
      Delivered chunk ws ⟨chunk.length, Option.none⟩ (ws.map (·.given [chunk]))
  | upTo (front back : List Writer) {w : Writer} {e : WriteError}
      (quiet : ∀ v ∈ front, v.complaint? chunk = Option.none) (complaint : w.complaint? chunk = some e) :
      Delivered chunk (front ++ w :: back) ⟨(w.write .copy chunk).1.count, some e⟩
        (front.map (·.given [chunk]) ++ w.given [chunk] :: back)

theorem writeAll_of_complaint? {w : Writer} {e : WriteError} (h : w.complaint? chunk = some e)
    (rest : List Writer) : writeAll chunk (w :: rest)
      = (⟨(w.write .copy chunk).1.count, some e⟩, w.given [chunk] :: rest) := by
  rw [writeAll]
  cases herror : (w.write .copy chunk).1.error with
  | some e' =>
      obtain rfl : e' = e := by simpa [Writer.complaint?, herror] using h
      simp only [herror, Option.isSome_some, if_true]
      exact Prod.ext (Receipt.ext rfl herror) rfl
  | none =>
      -- no error, so the complaint is about the count
      have hshort : (w.write .copy chunk).1.count ≠ chunk.length ∧ e = .short := by
        by_cases hcount : (w.write .copy chunk).1.count = chunk.length
        · simp [Writer.complaint?, herror, hcount] at h
        · exact ⟨hcount, by simpa [Writer.complaint?, herror, hcount, eq_comm] using h⟩
      simp only [herror, Option.isSome_none, Bool.false_eq_true, if_false, if_pos hshort.1, hshort.2]
      rfl

theorem writeAll_delivered (chunk : Text) (ws : List Writer) :
    Delivered chunk ws (writeAll chunk ws).1 (writeAll chunk ws).2 := by
  induction ws with
  | nil => exact .everywhere nofun
  | cons w rest ih =>
      cases hcomplaint : w.complaint? chunk with
      | some e =>
          rw [writeAll_of_complaint? hcomplaint]
          exact .upTo [] rest nofun hcomplaint
      | none =>
          have hgoes : writeAll chunk (w :: rest)
              = ((writeAll chunk rest).1, w.given [chunk] :: (writeAll chunk rest).2) := by
            rw [writeAll]
            simp [Writer.complaint?_eq_none hcomplaint, Writer.given]
          rw [hgoes]
          generalize writeAll chunk rest = answer at ih
          obtain ⟨receipt, rest'⟩ := answer
          cases ih with
          | everywhere quiet => exact .everywhere (List.forall_mem_cons.mpr ⟨hcomplaint, quiet⟩)
          | upTo front back quiet complaint =>
              exact .upTo (w :: front) back (List.forall_mem_cons.mpr ⟨hcomplaint, quiet⟩) complaint

theorem flushAll_eq (ws : List Writer) :
    flushAll ws = (ws.findSome? fun w => w.flush.1, ws.map fun w => w.flush.2) := by
  induction ws with
  | nil => rfl
  | cons w rest ih =>
      have hstep : flushAll (w :: rest) = (w.flush.1.or (flushAll rest).1, w.flush.2 :: (flushAll rest).2) := rfl
      rw [hstep, ih, List.findSome?_cons, List.map_cons]
      cases w.flush.1 with
      | none => rfl
      | some e => rfl

/-! ## A sequence of writes -/

/-- Writes chunks one after the other, up to the first error. The error, the chunks that are left, and the
sink after it. -/
def writeEach (s : Sink) (delivery : Delivery) : List Text → Option WriteError × List Text × Sink
  | [] => (Option.none, [], s)
  | chunk :: rest =>
    let (receipt, s) := s.write delivery chunk
    match receipt.error with
    | some e => (some e, rest, s)
    | Option.none => s.writeEach delivery rest

/-- How a sequence of writes to several writers ends. All of them get all chunks; or one complains about a
chunk, which the writers before it have got too, and those behind it have not. -/
inductive Sequence : List Writer → List Text → Option WriteError → List Text → List Writer → Prop
  | whole {ws : List Writer} {chunks : List Text}
      (got : ∀ v ∈ ws, Writer.Got v (v.given chunks) chunks.flatten) :
      Sequence ws chunks Option.none [] (ws.map (·.given chunks))
  | broken (front back : List Writer) (earlier later : List Text) {w : Writer} {chunk : Text} {e : WriteError}
      (ahead : ∀ v ∈ front, Writer.Got v (v.given (earlier ++ [chunk])) (earlier ++ [chunk]).flatten)
      (here : Writer.Got w (w.given earlier) earlier.flatten)
      (complaint : (w.given earlier).complaint? chunk = some e)
      (behind : ∀ v ∈ back, Writer.Got v (v.given earlier) earlier.flatten) :
      Sequence (front ++ w :: back) (earlier ++ chunk :: later) (some e) later
        (front.map (·.given (earlier ++ [chunk])) ++ w.given (earlier ++ [chunk]) :: back.map (·.given earlier))

/-- A chunk that all writers take comes before what they are given after it. -/
theorem Sequence.cons {chunks left : List Text} {error : Option WriteError} {ws' : List Writer}
    (hgot : ∀ v ∈ ws, Writer.Got v (v.given [chunk]) chunk)
    (h : Sequence (ws.map (·.given [chunk])) chunks error left ws') :
    Sequence ws (chunk :: chunks) error left ws' := by
  generalize hfirst : ws.map (·.given [chunk]) = first at h
  cases h with
  | whole got =>
      subst hfirst
      rw [List.map_map]
      exact .whole fun v hv => (hgot v hv).trans (got _ (List.mem_map_of_mem hv))
  | broken front back earlier _ ahead here complaint behind =>
      obtain ⟨front, rest, rfl, rfl, hrest⟩ := List.map_eq_append_iff.mp hfirst
      obtain ⟨w, back, rfl, rfl, rfl⟩ := List.map_eq_cons_iff.mp hrest
      obtain ⟨hfront, hback⟩ := List.forall_mem_append.mp hgot
      obtain ⟨hw, hback⟩ := List.forall_mem_cons.mp hback
      rw [List.map_map, List.map_map]
      refine .broken front back (chunk :: earlier) left (fun v hv => ?_) (hw.trans here) complaint fun v hv => ?_
      · exact (hfront v hv).trans (ahead _ (List.mem_map_of_mem hv))
      · exact (hback v hv).trans (behind _ (List.mem_map_of_mem hv))

theorem writeEach_sequence (delivery : Delivery) (chunks : List Text) : ∀ ws : List Writer,
    (∀ w ∈ ws, w.Plain) → ∃ error left ws', (Sink.all ws).writeEach delivery chunks = (error, left, .all ws') ∧
      Sequence ws chunks error left ws' := by
  induction chunks with
  | nil =>
      intro ws hplain
      have hwhole : Sequence ws [] Option.none [] (ws.map (·.given [])) :=
        .whole fun v _ => ⟨(List.append_nil _).symm, rfl⟩
      have hsame : ws.map (·.given []) = ws := List.map_id ws
      rw [hsame] at hwhole
      exact ⟨_, _, _, rfl, hwhole⟩
  | cons chunk rest ih =>
      intro ws hplain
      have hwrite : (Sink.all ws).write delivery chunk = ((writeAll chunk ws).1, .all (writeAll chunk ws).2) := rfl
      have hdelivered := writeAll_delivered chunk ws
      rw [writeEach, hwrite]
      generalize writeAll chunk ws = answer at hdelivered
      obtain ⟨receipt, ws'⟩ := answer
      cases hdelivered with
      | everywhere quiet =>
          have hgot : ∀ v ∈ ws, Writer.Got v (v.given [chunk]) chunk := fun v hv =>
            Writer.got_of_complaint? (hplain v hv) (quiet v hv)
          have hplain' : ∀ v ∈ ws.map (·.given [chunk]), v.Plain := by
            intro v hv
            obtain ⟨u, hu, rfl⟩ := List.mem_map.mp hv
            exact Writer.plain_write (hplain u hu) .copy chunk
          obtain ⟨error, left, ws', hrest, hsequence⟩ := ih _ hplain'
          exact ⟨error, left, ws', hrest, hsequence.cons hgot⟩
      | upTo front back quiet complaint =>
          -- the first chunk is the last that is written, so those behind have been given nothing
          obtain ⟨hfront, -⟩ := List.forall_mem_append.mp hplain
          have hbroken : Sequence (front ++ _ :: back) ([] ++ chunk :: rest) _ rest _ :=
            .broken front back [] rest
              (fun v hv => by simpa using Writer.got_of_complaint? (hfront v hv) (quiet v hv))
              ⟨(List.append_nil _).symm, rfl⟩ complaint fun v _ => ⟨(List.append_nil _).symm, rfl⟩
          have hsame : back.map (·.given []) = back := List.map_id back
          rw [hsame] at hbroken
          exact ⟨_, _, _, rfl, hbroken⟩

end Sink

/-! ## Combinations of combinations -/

/-- How a sink is made. -/
inductive SinkTree where
  | none
  | discard
  | leaf (w : Writer) (plain : w.Plain)
  | combined (parts : List SinkTree)

namespace SinkTree

mutual

/-- The sink that is made. -/
def sink : SinkTree → Sink
  | .none => .none
  | .discard => .discard
  | .leaf w _ => .one w
  | .combined parts => .combine (sinks parts)

def sinks : List SinkTree → List Sink
  | [] => []
  | t :: rest => sink t :: sinks rest

end

mutual

/-- The writers of a tree, from left to right. -/
def leaves : SinkTree → List Writer
  | .none => []
  | .discard => []
  | .leaf w _ => [w]
  | .combined parts => allLeaves parts

def allLeaves : List SinkTree → List Writer
  | [] => []
  | t :: rest => leaves t ++ allLeaves rest

end

theorem writers_ofWriters (ws : List Writer) : (Sink.ofWriters ws).writers = ws := by
  match ws with
  | [] | [_] | _ :: _ :: _ => rfl

mutual

theorem writers_sink : ∀ t : SinkTree, t.sink.writers = t.leaves
  | .none | .discard | .leaf _ _ => by simp only [sink, leaves, Sink.writers]
  | .combined parts => by rw [sink, Sink.combine, writers_ofWriters, flatMap_writers_sinks, leaves]

theorem flatMap_writers_sinks : ∀ parts : List SinkTree, (sinks parts).flatMap Sink.writers = allLeaves parts
  | [] => by rw [sinks, allLeaves, List.flatMap_nil]
  | t :: rest => by rw [sinks, allLeaves, List.flatMap_cons, writers_sink t, flatMap_writers_sinks rest]

end

mutual

theorem plain_leaves : ∀ t : SinkTree, ∀ w ∈ t.leaves, w.Plain
  | .none, _, hw | .discard, _, hw => by
      rw [leaves] at hw
      cases hw
  | .leaf _ plain, w, hw => by
      rw [leaves, List.mem_singleton] at hw
      rwa [hw]
  | .combined parts, w, hw => plain_allLeaves parts w (by rwa [leaves] at hw)

theorem plain_allLeaves : ∀ parts : List SinkTree, ∀ w ∈ allLeaves parts, w.Plain
  | [], _, hw => by
      rw [allLeaves] at hw
      cases hw
  | t :: rest, w, hw => by
      rw [allLeaves, List.mem_append] at hw
      exact hw.elim (plain_leaves t w) (plain_allLeaves rest w)

end

/-- A sink writes to all writers of a list: it is none without writers, the writer itself if there is one,
and else what becomes of the list when chunks are written or it is flushed becomes of the sink. -/
structure Combines (ws : List Writer) (s : Sink) : Prop where
  empty : ws = [] → s = .none
  single : ∀ w, ws = [w] → s = .one w
  write : 2 ≤ ws.length → ∀ delivery chunk, ∃ receipt ws',
    s.write delivery chunk = (receipt, .all ws') ∧ Sink.Delivered chunk ws receipt ws'
  sequence : 2 ≤ ws.length → ∀ delivery chunks, ∃ error left ws',
    s.writeEach delivery chunks = (error, left, .all ws') ∧ Sink.Sequence ws chunks error left ws'
  flush : 2 ≤ ws.length →
    s.flush = (ws.findSome? fun w => w.flush.1, .all (ws.map fun w => w.flush.2))

theorem ofWriters_of_two_le {ws : List Writer} (h : 2 ≤ ws.length) : Sink.ofWriters ws = .all ws := by
  match ws, h with
  | _ :: _ :: _, _ => rfl

/-- A combination of combinations writes to the writers at the leaves, from left to right. -/
theorem combination_delivers (parts : List SinkTree) :
    Combines (combined parts).leaves (combined parts).sink := by
  have hflat : (combined parts).sink = Sink.ofWriters (combined parts).leaves := by
    rw [sink, Sink.combine, flatMap_writers_sinks, leaves]
  have hplain := plain_leaves (combined parts)
  generalize (combined parts).leaves = ws at hflat hplain
  rw [hflat]
  constructor
  case empty =>
    rintro rfl
    rfl
  case single =>
    rintro w rfl
    rfl
  case write =>
    intro htwo delivery chunk
    rw [ofWriters_of_two_le htwo]
    exact ⟨_, _, rfl, Sink.writeAll_delivered chunk ws⟩
  case sequence =>
    intro htwo delivery chunks
    rw [ofWriters_of_two_le htwo]
    exact Sink.writeEach_sequence delivery chunks ws hplain
  case flush =>
    intro htwo
    rw [ofWriters_of_two_le htwo, Sink.flush, Sink.flushAll_eq]

/-- The second of three writers refuses the second chunk, which the third is not given then. -/
example : (((combined [leaf (.direct .memory) fun _ => rfl, .discard,
      combined [leaf (.direct (.limited (some 3) [] Option.none)) fun _ => rfl, .none,
        leaf (.direct .memory) fun _ => rfl]]).sink.writeEach .text ["ab", "cd", "e"]).2.2.writers.map
      Writer.received)
    = ["abcd", "ab", "ab"] := by decide

end SinkTree

end Linewise
