import Linewise.Output.Writer

/-!
# Sinks

A sink is where a program writes to: nothing, one writer, or several writers that all get everything.
Combining sinks puts their writers into one list; sinks that keep nothing are left out.
-/

namespace Linewise

/-- Where output goes. -/
inductive Sink where
  /-- No sink at all. -/
  | none
  /-- Drops everything. -/
  | discard
  | one (w : Writer)
  /-- Two or more writers. -/
  | all (ws : List Writer)

namespace Sink

/-- The writers of a sink, in order. -/
def writers : Sink → List Writer
  | .none => []
  | .discard => []
  | .one w => [w]
  | .all ws => ws

/-- The sink of a list of writers. -/
def ofWriters : List Writer → Sink
  | [] => .none
  | [w] => .one w
  | ws => .all ws

/-- A sink that writes to all of the given ones. -/
def combine (sinks : List Sink) : Sink := ofWriters (sinks.flatMap writers)

/-- The sink, dropping everything if there is none. -/
def orDiscard : Sink → Sink
  | .none => .discard
  | s => s

/-- Writes a chunk to each writer in turn, up to the first that fails or takes too little. -/
def writeAll (chunk : Text) : List Writer → Receipt × List Writer
  | [] => (⟨chunk.length, Option.none⟩, [])
  | w :: rest =>
    let (receipt, w) := w.write .copy chunk
    if receipt.error.isSome then (receipt, w :: rest)
    else if receipt.count ≠ chunk.length then (⟨receipt.count, some .short⟩, w :: rest)
    else
      let (receipt, rest) := writeAll chunk rest
      (receipt, w :: rest)

/-- Flushes every writer; the first error. -/
def flushAll : List Writer → Option WriteError × List Writer
  | [] => (Option.none, [])
  | w :: rest =>
    let (e, w) := w.flush
    let (e', rest) := flushAll rest
    (e.or e', w :: rest)

/-- Writes a chunk. -/
def write (s : Sink) (delivery : Delivery) (chunk : Text) : Receipt × Sink :=
  match s with
  | .one w =>
    let (receipt, w) := w.write delivery chunk
    (receipt, .one w)
  | .all ws =>
    let (receipt, ws) := writeAll chunk ws
    (receipt, .all ws)
  | s => (⟨chunk.length, Option.none⟩, s)

/-- Flushes; the first error. -/
def flush (s : Sink) : Option WriteError × Sink :=
  match s with
  | .one w =>
    let (e, w) := w.flush
    (e, .one w)
  | .all ws =>
    let (e, ws) := flushAll ws
    (e, .all ws)
  | s => (Option.none, s)

end Sink

end Linewise
