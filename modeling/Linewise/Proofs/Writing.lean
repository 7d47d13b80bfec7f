import Linewise.Output.Sink
import Mathlib.Data.List.Forall2

/-!
# Writers that lose nothing

A writer is reliable if its device takes all that it is given. What such a writer has been given is what
its device has received, followed by what is still collected (`Writer.written`): a write adds a chunk to
it and reports no error, and a flush leaves nothing collected. A sink whose writers are reliable carries
the same text on all of them.
-/

namespace Linewise

namespace Writer

/-- A writer whose device takes everything, and whose buffer works. -/
structure Reliable (w : Writer) : Prop where
  takes : ∀ before delivery chunk, w.device.accept before delivery chunk = ⟨chunk.length, none⟩
  /-- Only a device without a buffer before it is ever flushed. -/
  flushes : w.buffered = false → ∀ before, w.device.flushError before = none
  healthy : w.failed = none
  fits : w.pending.length ≤ capacity
  direct : w.buffered = false → w.pending = []

/-- Everything that has been written. -/
def written (w : Writer) : Text := w.received ++ w.pending

/-- A reliable writer has become another one by taking a chunk. -/
structure Took (w w' : Writer) (chunk : Text) : Prop where
  reliable : w'.Reliable
  device : w'.device = w.device
  buffered : w'.buffered = w.buffered
  written : w'.written = w.written ++ chunk

variable {w w' w'' : Writer}

theorem Took.trans {first second : Text} (h : Took w w' first) (h' : Took w' w'' second) :
    Took w w'' (first ++ second) where
  reliable := h'.reliable
  device := h'.device.trans h.device
  buffered := h'.buffered.trans h.buffered
  written := by rw [h'.written, h.written, List.append_assoc]

/-- Everything is delivered. -/
theorem deliver_of_reliable (h : w.Reliable) (delivery : Delivery) (chunk : Text) :
    w.deliver delivery chunk = (⟨chunk.length, none⟩,
      { w with receivedBackwards := chunk.reverse ++ w.receivedBackwards }) := by
  rw [deliver, h.takes, List.take_length]

/-- Everything that was collected is delivered. -/
theorem flushBuffer_of_reliable (h : w.Reliable) :
    w.flushBuffer = (none,
      { w with receivedBackwards := w.pending.reverse ++ w.receivedBackwards, pending := [] }) := by
  obtain ⟨device, buffered, received, pending, failed⟩ := w
  obtain rfl : failed = none := h.healthy
  cases pending with
  | nil => rfl
  | cons b rest => simp [flushBuffer, deliver_of_reliable h]

theorem took_flushBuffer (h : w.Reliable) : Took w w.flushBuffer.2 [] := by
  rw [flushBuffer_of_reliable h]
  refine ⟨⟨h.takes, h.flushes, h.healthy, Nat.zero_le _, fun _ => rfl⟩, rfl, rfl, ?_⟩
  simp [written, received]

/-- Bytes that fit are collected. -/
theorem took_collect (h : w.Reliable) (hb : w.buffered = true) {chunk : Text}
    (hfits : w.pending.length + chunk.length ≤ capacity) :
    Took w { w with pending := w.pending ++ chunk, failed := none } chunk where
  reliable := ⟨h.takes, h.flushes, rfl, by simpa using hfits, fun hb' => by
    rw [show w.buffered = false from hb'] at hb
    cases hb⟩
  device := rfl
  buffered := rfl
  written := by simp [written, received]

/-- Bytes are delivered past an empty buffer. -/
theorem took_deliver (h : w.Reliable) (hp : w.pending = []) (chunk : Text) :
    Took w { w with receivedBackwards := chunk.reverse ++ w.receivedBackwards, failed := none } chunk where
  reliable := ⟨h.takes, h.flushes, rfl, h.fits, h.direct⟩
  device := rfl
  buffered := rfl
  written := by simp [written, received, hp]

/-- What fills the buffer is delivered, and the buffer is empty then. -/
theorem took_fill (h : w.Reliable) (hb : w.buffered = true) {chunk : Text}
    (hfits : w.pending.length + chunk.length ≤ capacity) :
    Took w (flushBuffer { w with pending := w.pending ++ chunk, failed := none }).2 chunk ∧
      (flushBuffer { w with pending := w.pending ++ chunk, failed := none }).2.pending = [] := by
  have hfilled := took_collect h hb hfits
  have hflushed := hfilled.trans (took_flushBuffer hfilled.reliable)
  rw [List.append_nil] at hflushed
  refine ⟨hflushed, ?_⟩
  rw [flushBuffer_of_reliable hfilled.reliable]

/-- A buffered writer takes a chunk in pieces: each turn but the last delivers what fills the buffer. -/
theorem took_writeBuffered (delivery : Delivery) (fuel : Nat) : ∀ {w : Writer} (chunk : Text) (done : Nat),
    w.Reliable → w.buffered = true → chunk.length + min w.pending.length 1 < fuel →
    (writeBuffered delivery fuel w chunk done).1 = ⟨done + chunk.length, none⟩ ∧
      Took w (writeBuffered delivery fuel w chunk done).2 chunk := by
  induction fuel with
  | zero =>
      intro w chunk done _ _ hfuel
      omega
  | succ fuel ih =>
      intro w chunk done h hb hfuel
      have hfits := h.fits
      rw [writeBuffered, h.healthy]
      dsimp only
      split
      · rename_i hroom
        exact ⟨rfl, took_collect h hb (show w.pending.length + chunk.length ≤ capacity by omega)⟩
      · rename_i hroom
        split
        · -- the buffer is empty, and the chunk goes around it as a whole
          rename_i hdirect
          have hp : w.pending = [] := by
            simp only [Bool.and_eq_true, List.isEmpty_iff] at hdirect
            exact hdirect.1
          have htook := took_deliver h hp chunk
          have hleft : ([] : Text).length + min w.pending.length 1 < fuel := by
            rw [hp]
            simp only [List.length_nil]
            omega
          obtain ⟨hreceipt, hrest⟩ := ih [] (done + chunk.length) htook.reliable hb hleft
          rw [deliver_of_reliable h]
          dsimp only
          rw [List.drop_length]
          exact ⟨hreceipt, by simpa using htook.trans hrest⟩
        · -- the buffer is filled up and delivered; it is empty in the next turn
          generalize hr : capacity - w.pending.length = room at *
          have hfits : w.pending.length + (chunk.take room).length ≤ capacity := by
            rw [List.length_take]
            omega
          obtain ⟨hflushed, hempty⟩ := took_fill h hb hfits
          have hleft : (chunk.drop room).length
              + min (flushBuffer { w with pending := w.pending ++ chunk.take room, failed := none }).2.pending.length 1
              < fuel := by
            have hcapacity : 0 < capacity := by decide
            rw [hempty, List.length_drop]
            simp only [List.length_nil]
            omega
          obtain ⟨hreceipt, hrest⟩ := ih _ (done + room) hflushed.reliable (hflushed.buffered.trans hb) hleft
          have hcount : done + room + (chunk.drop room).length = done + chunk.length := by
            rw [List.length_drop]
            omega
          refine ⟨hreceipt.trans (by rw [hcount]), ?_⟩
          have hwhole := hflushed.trans hrest
          rwa [List.take_append_drop] at hwhole

theorem took_write (h : w.Reliable) (delivery : Delivery) (chunk : Text) :
    (w.write delivery chunk).1 = ⟨chunk.length, none⟩ ∧ Took w (w.write delivery chunk).2 chunk := by
  rw [write]
  split
  · rename_i hb
    have htook := took_writeBuffered delivery (chunk.length + 2) chunk 0 h hb (by omega)
    rwa [Nat.zero_add] at htook
  · rename_i hb
    have hdirect : w.buffered = false := by simpa using hb
    have htook := took_deliver h (h.direct hdirect) chunk
    rw [deliver_of_reliable h]
    rw [← h.healthy] at htook
    exact ⟨rfl, htook⟩

/-- A flush delivers everything. -/
theorem took_flush (h : w.Reliable) : w.flush.1 = none ∧ Took w w.flush.2 [] ∧ w.flush.2.pending = [] := by
  rw [flush]
  split
  · refine ⟨?_, took_flushBuffer h, ?_⟩ <;> rw [flushBuffer_of_reliable h]
  · rename_i hb
    have hdirect : w.buffered = false := by simpa using hb
    exact ⟨h.flushes hdirect _, ⟨h, rfl, rfl, (List.append_nil _).symm⟩, h.direct hdirect⟩

end Writer

namespace Sink

/-- Every writer of a list has taken a chunk. -/
abbrev AllTook (ws ws' : List Writer) (chunk : Text) : Prop :=
  List.Forall₂ (fun w w' => Writer.Took w w' chunk) ws ws'

theorem allTook_writeAll (chunk : Text) {ws : List Writer} (h : ∀ w ∈ ws, w.Reliable) :
    (writeAll chunk ws).1 = ⟨chunk.length, Option.none⟩ ∧ AllTook ws (writeAll chunk ws).2 chunk := by
  induction ws with
  | nil => exact ⟨rfl, .nil⟩
  | cons w rest ih =>
      obtain ⟨hreceipt, htook⟩ := Writer.took_write (h w List.mem_cons_self) .copy chunk
      obtain ⟨hreceipts, hrest⟩ := ih fun w hw => h w (List.mem_cons_of_mem _ hw)
      rw [writeAll]
      simp only [hreceipt, Option.isSome_none, Bool.false_eq_true, if_false, ne_eq, not_true_eq_false]
      exact ⟨hreceipts, .cons htook hrest⟩

theorem allTook_flushAll {ws : List Writer} (h : ∀ w ∈ ws, w.Reliable) :
    (flushAll ws).1 = Option.none ∧ AllTook ws (flushAll ws).2 [] ∧ ∀ w ∈ (flushAll ws).2, w.pending = [] := by
  induction ws with
  | nil => exact ⟨rfl, .nil, nofun⟩
  | cons w rest ih =>
      obtain ⟨herror, htook, hpending⟩ := Writer.took_flush (h w List.mem_cons_self)
      obtain ⟨herrors, hrest, hpendings⟩ := ih fun w hw => h w (List.mem_cons_of_mem _ hw)
      refine ⟨?_, .cons htook hrest, List.forall_mem_cons.mpr ⟨hpending, hpendings⟩⟩
      show w.flush.1.or (flushAll rest).1 = Option.none
      rw [herror, herrors]
      rfl

/-- The writers of a sink belong to these devices, are reliable, and have all been given a text. -/
structure Carries (s : Sink) (devices : List Device) (text : Text) : Prop where
  devices : s.writers.map Writer.device = devices
  reliable : ∀ w ∈ s.writers, w.Reliable
  written : ∀ w ∈ s.writers, w.written = text

/-- No writer has anything left to deliver. -/
def Flushed (s : Sink) : Prop := ∀ w ∈ s.writers, w.pending = []

variable {s s' : Sink} {devices : List Device} {text : Text}

theorem Carries.took (h : s.Carries devices text) {chunk : Text}
    (htook : AllTook s.writers s'.writers chunk) : s'.Carries devices (text ++ chunk) := by
  obtain ⟨hdevices, -, hwritten⟩ := h
  subst hdevices
  generalize s.writers = ws at *
  generalize hws' : s'.writers = ws' at *
  suffices ws'.map Writer.device = ws.map Writer.device ∧
      ∀ w ∈ ws', w.Reliable ∧ w.written = text ++ chunk by
    refine ⟨hws' ▸ this.1, fun w hw => (this.2 w (hws' ▸ hw)).1, fun w hw => (this.2 w (hws' ▸ hw)).2⟩
  clear hws'
  induction htook with
  | nil => exact ⟨rfl, nofun⟩
  | cons h hrest ih =>
      obtain ⟨hdevices, hall⟩ := ih fun w hw => hwritten w (List.mem_cons_of_mem _ hw)
      refine ⟨by rw [List.map_cons, List.map_cons, h.device, hdevices],
        List.forall_mem_cons.mpr ⟨⟨h.reliable, ?_⟩, hall⟩⟩
      rw [h.written, hwritten _ List.mem_cons_self]

/-- A write succeeds, and is carried by all writers. -/
theorem Carries.write (h : s.Carries devices text) (delivery : Delivery) (chunk : Text) :
    (s.write delivery chunk).1.error = Option.none ∧
      (s.write delivery chunk).2.Carries devices (text ++ chunk) := by
  cases s with
  | none | discard => exact ⟨rfl, h.took .nil⟩
  | one w =>
      obtain ⟨hreceipt, htook⟩ := Writer.took_write (h.reliable w List.mem_cons_self) delivery chunk
      exact ⟨congrArg Receipt.error hreceipt, h.took (.cons htook .nil)⟩
  | all ws =>
      obtain ⟨hreceipt, htook⟩ := allTook_writeAll chunk h.reliable
      exact ⟨congrArg Receipt.error hreceipt, h.took htook⟩

/-- A flush succeeds, and leaves nothing to deliver. -/
theorem Carries.flush (h : s.Carries devices text) :
    s.flush.1 = Option.none ∧ s.flush.2.Carries devices text ∧ s.flush.2.Flushed := by
  rw [← List.append_nil text]
  cases s with
  | none | discard => exact ⟨rfl, h.took .nil, nofun⟩
  | one w =>
      obtain ⟨herror, htook, hpending⟩ := Writer.took_flush (h.reliable w List.mem_cons_self)
      exact ⟨herror, h.took (.cons htook .nil), List.forall_mem_singleton.mpr hpending⟩
  | all ws =>
      obtain ⟨herror, htook, hpending⟩ := allTook_flushAll h.reliable
      exact ⟨herror, h.took htook, hpending⟩

/-- What has been flushed has been received. -/
theorem Carries.received (h : s.Carries devices text) (hflushed : s.Flushed) {w : Writer}
    (hw : w ∈ s.writers) : w.received = text := by
  have hwritten := h.written w hw
  rwa [Writer.written, hflushed w hw, List.append_nil] at hwritten

end Sink

end Linewise
