import Linewise.Text.Basic

/-!
# Writers

A writer passes what is written on to a device. A device answers each delivery with the count of bytes
it took, and possibly an error. A buffered writer collects bytes up to its capacity before it delivers
them; it keeps the first error of its device and answers it from then on.

Text can be delivered as it is or as a copy of its bytes. A device may treat the two differently, and
a buffer goes around itself with a text only if the device takes texts.
-/

namespace Linewise

/-- Why a write or a flush failed. -/
inductive WriteError where
  /-- The device said so. -/
  | device (message : Text)
  /-- Fewer bytes were taken than given. -/
  | short
deriving DecidableEq, Repr

namespace WriteError

def message : WriteError → Text
  | .device message => message
  | .short => "short write"

end WriteError

/-- How bytes are handed over. -/
inductive Delivery where
  /-- A text as it is. -/
  | text
  /-- A copy of the bytes. -/
  | copy
deriving DecidableEq, Repr

/-- The answer to a delivery: how many bytes were taken, and the error if there was one. -/
@[ext]
structure Receipt where
  count : Nat
  error : Option WriteError
deriving DecidableEq, Repr

/-- A place where bytes end up. Its answers depend on what it has received, which it is told with the
latest byte first. -/
structure Device where
  /-- The answer to a delivery, after what was received before. -/
  accept : (before : Text) → Delivery → (chunk : Text) → Receipt
  /-- The error of a flush, after what was received before. -/
  flushError : (before : Text) → Option WriteError
  /-- Whether texts are taken as they are. -/
  takesText : Bool

namespace Device

/-- Takes everything. -/
def memory : Device where
  accept _ _ chunk := ⟨chunk.length, none⟩
  flushError _ := none
  takesText := true

/-- Takes everything as copies of bytes. -/
def bytes : Device := { memory with takesText := false }

/-- Refuses everything. -/
def refusing (message : Text) : Device where
  accept _ _ _ := ⟨0, some (.device message)⟩
  flushError _ := none
  takesText := false

/-- Takes texts, and the first half of a copy of bytes. -/
def halving : Device where
  accept _ delivery chunk :=
    ⟨if delivery = .copy then chunk.length / 2 else chunk.length, none⟩
  flushError _ := none
  takesText := true

/-- Takes everything and cannot be flushed. -/
def unflushable (message : Text) : Device :=
  { bytes with flushError := fun _ => some (.device message) }

/-- Takes texts, and refuses a copy of bytes that would exceed a limit on all it has received. -/
def limited (limit : Option Nat) (full : Text) (flushError : Option Text) : Device where
  accept before delivery chunk :=
    match delivery, limit with
    | .copy, some limit =>
      if before.length + chunk.length > limit then ⟨0, some (.device full)⟩
      else ⟨chunk.length, none⟩
    | _, _ => ⟨chunk.length, none⟩
  flushError _ := flushError.map .device
  takesText := true

end Device

/-- A device with what it has received, behind a buffer or not. -/
structure Writer where
  device : Device
  /-- Whether bytes are collected before they are delivered. -/
  buffered : Bool
  /-- What the device has taken, the latest byte first. -/
  receivedBackwards : Text
  /-- What is collected. -/
  pending : Text
  /-- The first error of the device, if the writer is buffered. -/
  failed : Option WriteError

namespace Writer

/-- A writer that delivers at once. -/
def direct (device : Device) : Writer := ⟨device, false, [], [], none⟩

/-- A writer with a buffer. -/
def withBuffer (device : Device) : Writer := ⟨device, true, [], [], none⟩

/-- The capacity of a buffer. -/
def capacity : Nat := 4096

/-- What the device has taken. -/
def received (w : Writer) : Text := w.receivedBackwards.reverse

/-- Delivers a chunk to the device. -/
def deliver (w : Writer) (delivery : Delivery) (chunk : Text) : Receipt × Writer :=
  let receipt := w.device.accept w.receivedBackwards delivery chunk
  (receipt,
    { w with receivedBackwards := (chunk.take receipt.count).reverse ++ w.receivedBackwards })

/-- Delivers what is collected. -/
def flushBuffer (w : Writer) : Option WriteError × Writer :=
  match w.failed with
  | some e => (some e, w)
  | none =>
    if w.pending.isEmpty then (none, w)
    else
      let (receipt, w) := w.deliver .copy w.pending
      let error := receipt.error.or
        (if receipt.count < w.pending.length then some .short else none)
      match error with
      | some e => (some e, { w with pending := w.pending.drop receipt.count, failed := some e })
      | none => (none, { w with pending := [] })

/-- Writes into the buffer, delivering as often as it fills up; `done` bytes are written already. What
does not fit an empty buffer is delivered directly if the device takes it so. -/
def writeBuffered (delivery : Delivery) : Nat → Writer → Text → Nat → Receipt × Writer
  | 0, w, _, done => (⟨done, w.failed⟩, w)
  | fuel + 1, w, chunk, done =>
    match w.failed with
    | some e => (⟨done, some e⟩, w)
    | none =>
      let room := capacity - w.pending.length
      if chunk.length ≤ room then
        (⟨done + chunk.length, none⟩, { w with pending := w.pending ++ chunk })
      else if w.pending.isEmpty && (delivery = .copy || w.device.takesText) then
        let (receipt, w) := w.deliver delivery chunk
        writeBuffered delivery fuel { w with failed := receipt.error }
          (chunk.drop receipt.count) (done + receipt.count)
      else
        let (_, w) := flushBuffer { w with pending := w.pending ++ chunk.take room }
        writeBuffered delivery fuel w (chunk.drop room) (done + room)

/-- Writes a chunk. -/
def write (w : Writer) (delivery : Delivery) (chunk : Text) : Receipt × Writer :=
  if w.buffered then writeBuffered delivery (chunk.length + 2) w chunk 0
  else w.deliver delivery chunk

/-- Delivers what is collected, and flushes the device if there is no buffer before it. -/
def flush (w : Writer) : Option WriteError × Writer :=
  if w.buffered then w.flushBuffer else (w.device.flushError w.receivedBackwards, w)

end Writer

end Linewise
