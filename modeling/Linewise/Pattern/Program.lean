import Linewise.Pattern.Expr
import Linewise.Text.Rune

/-!
# Matching

An expression is compiled to a program of small instructions. A program is run on a text by keeping
a list of threads, the preferred one first: a character moves the threads that accept it, and a
thread that accepts ends the threads behind it. So the match found at a position is the one that
prefers earlier alternatives and, in greedy repetitions, more turns; the match of a text is the one at
the first position that has one.
-/

namespace Linewise.Pattern

/-- An instruction; `next` and the like are places in the program. -/
inductive Instr where
  | accept
  | char (set : CharSet) (next : Nat)
  | assert (condition : Assertion) (next : Nat)
  | save (slot : Nat) (next : Nat)
  | split (preferred other : Nat)
deriving Repr

/-- A compiled expression. -/
structure Program where
  code : Array Instr
  start : Nat
deriving Repr

namespace Program

/-- Adds an instruction; its place, and the code with it. -/
def emit (code : Array Instr) (i : Instr) : Nat × Array Instr := (code.size, code.push i)

/-- A split that prefers `body` if greedy, else `next`. -/
def branch (greedy : Bool) (body next : Nat) : Instr :=
  if greedy then .split body next else .split next body

/-- Adds code that matches the expression and goes on at `next`; the place where it starts. A body
that can match nothing is entered by a split of its own, so that a turn that matches nothing
counts. -/
def compile : Expr → Nat → Array Instr → Nat × Array Instr
  | .empty, next, code => (next, code)
  | .char s, next, code => emit code (.char s next)
  | .assert a, next, code => emit code (.assert a next)
  | .group i e, next, code =>
    let (close, code) := emit code (.save (2 * i + 1) next)
    let (body, code) := compile e close code
    emit code (.save (2 * i) body)
  | .seq a b, next, code =>
    let (second, code) := compile b next code
    compile a second code
  | .alt a b, next, code =>
    let (first, code) := compile a next code
    let (second, code) := compile b next code
    emit code (.split first second)
  | .star greedy e, next, code =>
    let (loop, code) := emit code .accept
    let (body, code) := compile e loop code
    let code := code.setIfInBounds loop (branch greedy body next)
    if e.nullable then emit code (branch greedy body next) else (loop, code)
  | .plus greedy e, next, code =>
    let (loop, code) := emit code .accept
    let (body, code) := compile e loop code
    (body, code.setIfInBounds loop (branch greedy body next))
  | .opt greedy e, next, code =>
    let (body, code) := compile e next code
    emit code (branch greedy body next)
  | .counted _ _ _ _, next, code => (next, code)

/-- The program of an expression; it accepts at place 0. -/
def ofExpr (e : Expr) : Program :=
  let (start, code) := compile e.expand 0 #[.accept]
  ⟨code, start⟩

end Program

/-! ## Positions -/

/-- A position in a text: how many runes are before it, the last of them, and those after it. -/
structure Cursor where
  index : Nat
  before : Option Rune
  after : List Rune

namespace Cursor

/-- The start of a text. -/
def start (runes : List Rune) : Cursor := ⟨0, none, runes⟩

/-- The position after the next rune. -/
def advance (c : Cursor) : Cursor :=
  match c.after with
  | [] => c
  | r :: rest => ⟨c.index + 1, some r, rest⟩

def isWord (r : Option Rune) : Bool :=
  match r with
  | some r => r.char.isAlphanum || r.char = '_'
  | none => false

def isLineFeed (r : Option Rune) : Bool := r.any fun r => r.char = '\n'

/-- Whether a condition holds at a position. -/
def satisfies (c : Cursor) : Assertion → Bool
  | .textStart => c.before.isNone
  | .textEnd => c.after.isEmpty
  | .lineStart => c.before.isNone || isLineFeed c.before
  | .lineEnd => c.after.isEmpty || isLineFeed c.after.head?
  | .wordBoundary => isWord c.before != isWord c.after.head?
  | .noWordBoundary => isWord c.before == isWord c.after.head?

end Cursor

/-! ## Threads -/

/-- The positions saved for the groups: slot and index, the latest first. -/
abbrev Saved := List (Nat × Nat)

/-- A place in the program that waits for a character or accepts. -/
structure Thread where
  place : Nat
  saved : Saved

namespace Program

/-- Follows the instructions that need no character. `work` holds the places to go to, the preferred
one first; `found` the threads arrived at, the preferred one last. A place is entered once. Each turn
enters a new place or drops one, and a place adds at most two. -/
def follow (p : Program) (c : Cursor) :
    Nat → List Thread → List Nat → List Thread → List Thread
  | 0, _, _, found => found
  | _ + 1, [], _, found => found
  | fuel + 1, t :: work, seen, found =>
    if seen.contains t.place then follow p c fuel work seen found
    else
      let seen := t.place :: seen
      match p.code[t.place]? with
      | some (.split a b) => follow p c fuel (⟨a, t.saved⟩ :: ⟨b, t.saved⟩ :: work) seen found
      | some (.save slot next) =>
        follow p c fuel (⟨next, (slot, c.index) :: t.saved⟩ :: work) seen found
      | some (.assert condition next) =>
        if c.satisfies condition then follow p c fuel (⟨next, t.saved⟩ :: work) seen found
        else follow p c fuel work seen found
      | some _ => follow p c fuel work seen (t :: found)
      | none => follow p c fuel work seen found

/-- The threads that the given places lead to, the preferred one first. -/
def threads (p : Program) (c : Cursor) (work : List Thread) : List Thread :=
  (follow p c (2 * p.code.size + work.length + 1) work [] []).reverse

/-- The threads before the first one that accepts, and that one. -/
def untilAccept (p : Program) : List Thread → List Thread × Option Thread
  | [] => ([], none)
  | t :: rest =>
    match p.code[t.place]? with
    | some .accept => ([], some t)
    | _ =>
      let (front, accepted) := untilAccept p rest
      (t :: front, accepted)

/-- The places that the threads move to over a character. -/
def move (p : Program) (r : Rune) (ts : List Thread) : List Thread :=
  ts.filterMap fun t : Thread =>
    match p.code[t.place]? with
    | some (.char s next) => if s.contains r.char.toNat then some ⟨next, t.saved⟩ else none
    | _ => none

/-- Runs threads over the rest of a text; the end and the saved positions of the best match, `best`
being the one found so far. -/
def run (p : Program) : List Rune → Cursor → List Thread → Option (Nat × Saved) →
    Option (Nat × Saved)
  | [], c, work, best =>
    match (p.untilAccept (p.threads c work)).2 with
    | some t => some (c.index, t.saved)
    | none => best
  | r :: rest, c, work, best =>
    let (front, accepted) := p.untilAccept (p.threads c work)
    let best := match accepted with
      | some t => some (c.index, t.saved)
      | none => best
    match p.move r front with
    | [] => best
    | moved => run p rest c.advance moved best

/-- The match that starts at a position. -/
def matchAt (p : Program) (c : Cursor) : Option (Nat × Saved) :=
  p.run c.after c [⟨p.start, []⟩] none

end Program

/-- A match: where it starts and ends, and what was saved for the groups. -/
structure Found where
  start : Nat
  stop : Nat
  saved : Saved

namespace Found

/-- The start and end of a group that took part in the match. -/
def group? (m : Found) (i : Nat) : Option (Nat × Nat) :=
  if i = 0 then some (m.start, m.stop)
  else do return (← m.saved.lookup (2 * i), ← m.saved.lookup (2 * i + 1))

end Found

namespace Program

/-- The first match at or after a position, over the runes from there on. -/
def find (p : Program) : List Rune → Cursor → Option Found
  | [], c => (p.matchAt c).map fun (stop, saved) => ⟨c.index, stop, saved⟩
  | _ :: rest, c =>
    match p.matchAt c with
    | some (stop, saved) => some ⟨c.index, stop, saved⟩
    | none => find p rest c.advance

end Program

end Linewise.Pattern
