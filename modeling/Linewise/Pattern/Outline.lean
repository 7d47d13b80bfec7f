import Linewise.Pattern.Spans

/-!
# Outlines

While an expression is read, an outline of it is kept, and the limits on expressions are limits on
their outlines: how deep they are, how many instructions they stand for, and how many characters
their classes list.

An outline is simpler than the expression. Neighbouring characters are one literal, sequences in
sequences and alternatives in alternatives count once, alternatives that are single characters are
one class, and what neighbouring alternatives have in common at their start stands before them.

Sizes are not looked at until the nodes made so far, multiplied by all counts met so far, could
reach the limit. From then on the size of a part is recorded whenever the part is put in place, and a
literal that grows later keeps the size it had.
-/

namespace Linewise.Pattern

/-- A limit that an expression goes beyond. -/
inductive Excess where
  | tooLarge
  | tooDeep
deriving DecidableEq, Repr

namespace Outline

/-- The greatest height. -/
def maxHeight : Nat := 1000

/-- The greatest size. -/
def maxSize : Nat := 3355443

/-- The greatest number of characters and ends of spans. -/
def maxRunes : Nat := 33554432

/-! ## Parts -/

/-- A part of an outline. A literal whose case does not matter holds the least characters of their
orbits; `size?` is the recorded size. -/
inductive Part where
  | empty
  | literal (size? : Option Nat) (ignoreCase : Bool) (codes : Array Nat)
  | chars (spans : Spans)
  /-- A fixed number of turns of one character or of a class. -/
  | turns (greedy : Bool) (count : Nat) (isLiteral : Bool) (spans : Spans)
  /-- A part that is not looked into; `times` is the count if it is a counted repetition. -/
  | solid (height size times : Nat)
  | seq (size? : Option Nat) (items : List Part)
  | alt (size? : Option Nat) (branches : List Part)

namespace Part

mutual

/-- How deep a part is. -/
def height : Part → Nat
  | .turns .. => 2
  | .solid height .. => height
  | .seq _ items => maxHeightOf items + 1
  | .alt _ branches => maxHeightOf branches + 1
  | _ => 1

/-- How deep the deepest part is. -/
def maxHeightOf : List Part → Nat
  | [] => 0
  | p :: rest => max p.height (maxHeightOf rest)

end

mutual

/-- The recorded size, or else how many instructions a part stands for. -/
def size : Part → Nat
  | .literal size? _ codes => size?.getD (max 1 codes.size)
  | .turns _ count .. => max 1 count
  | .solid _ size _ => size
  | .seq size? items => size?.getD (max 1 (totalSize items))
  | .alt size? branches => size?.getD (max 1 (totalSize branches + (branches.length - 1)))
  | _ => 1

/-- The sizes of several parts together. -/
def totalSize : List Part → Nat
  | [] => 0
  | p :: rest => p.size + totalSize rest

end

mutual

/-- Records the sizes in a part that are not recorded yet. -/
def recorded : Part → Part
  | .literal none ignoreCase codes => .literal (some (max 1 codes.size)) ignoreCase codes
  | .seq none items =>
    let items := recordedAll items
    .seq (some (Part.seq none items).size) items
  | .alt none branches =>
    let branches := recordedAll branches
    .alt (some (Part.alt none branches).size) branches
  | p => p

/-- Records sizes in several parts. -/
def recordedAll : List Part → List Part
  | [] => []
  | p :: rest => p.recorded :: recordedAll rest

end

/-- Records the size of a part anew. -/
def measured : Part → Part
  | .literal _ ignoreCase codes => (Part.literal none ignoreCase codes).recorded
  | .seq _ items => (Part.seq none items).recorded
  | .alt _ branches => (Part.alt none branches).recorded
  | p => p

mutual

/-- A bound on how often something can be taken out of a part. -/
def weight : Part → Nat
  | .literal _ _ codes => codes.size + 1
  | .seq _ items => totalWeight items + 1
  | .alt _ branches => totalWeight branches + 1
  | _ => 1

/-- The weights of several parts together. -/
def totalWeight : List Part → Nat
  | [] => 0
  | p :: rest => p.weight + totalWeight rest

end

/-- How many characters and ends of spans a part lists itself. -/
def runes : Part → Nat
  | .literal _ _ codes => codes.size
  | .chars spans => 2 * spans.length
  | _ => 0

/-- How much a part adds to the product of counts. -/
def times : Part → Nat
  | .turns _ count .. => max 1 count
  | .solid _ _ times => times
  | _ => 1

/-! ### Single characters -/

/-- Whether a part is a single character or a class. -/
def isSingle : Part → Bool
  | .literal _ _ codes => codes.size = 1
  | .chars _ => true
  | _ => false

/-- The characters that a single character or a class matches. -/
def charsOf : Part → Spans
  | .literal _ ignoreCase codes =>
    codes.toList.flatMap fun code =>
      ((CharSet.single code).withCase ignoreCase).spans
  | .chars spans => spans
  | _ => []

/-- One part for two that are single. -/
def merge (a b : Part) : Part :=
  match a, b with
  | .literal size? ignoreCase codes, .literal _ ignoreCase' codes' =>
    if ignoreCase = ignoreCase' && codes = codes' then .literal size? ignoreCase codes
    else .chars (.ofRanges (a.charsOf ++ b.charsOf))
  | _, _ => .chars (.ofRanges (a.charsOf ++ b.charsOf))

/-- The literal that a class amounts to: one character, or two that differ in case only. -/
def asLiteral? : Part → Option (Bool × Nat)
  | .chars [(a, b)] =>
    if a = b then some (false, a)
    else if a + 1 = b && isPair a b then some (true, a)
    else none
  | .chars [(a, b), (c, d)] =>
    if a = b && c = d && isPair a c then some (true, a) else none
  | _ => none
where
  /-- Whether two characters are an orbit. -/
  isPair (a b : Nat) : Bool :=
    let orbit := Unicode.Folding.orbit a
    orbit.length = 2 && orbit.contains b

/-! ### Starts -/

/-- The literal that a part starts with. -/
def leadingLiteral? : Part → Option (Bool × Array Nat)
  | .literal _ ignoreCase codes => some (ignoreCase, codes)
  | .seq _ (.literal _ ignoreCase codes :: _) => some (ignoreCase, codes)
  | _ => none

/-- What a part starts with, if that can be shared with other parts: a single character or class, or
a fixed number of turns of one. -/
structure Lead where
  count : Option (Bool × Nat)
  isLiteral : Bool
  spans : Spans
deriving DecidableEq

/-- The part as a start to be shared. -/
def asLead? : Part → Option Lead
  | .literal _ _ codes =>
    if codes.size = 1 then some ⟨none, true, codes.toList.map fun c => (c, c)⟩ else none
  | .chars spans => some ⟨none, false, spans⟩
  | .turns greedy count isLiteral spans => some ⟨some (greedy, count), isLiteral, spans⟩
  | _ => none

/-- The first part, and how it can be shared. -/
def lead? : Part → Option (Part × Lead)
  | .seq _ (p :: _) => p.asLead?.map (p, ·)
  | p => p.asLead?.map (p, ·)

/-! ### Repetitions -/

/-- Zero or more turns. -/
def star (p : Part) : Part := .solid (p.height + 1) (p.size + 2) 1

/-- One or more turns, or at most one. -/
def plusOrOpt (p : Part) : Part := .solid (p.height + 1) (p.size + 1) 1

/-- A counted number of turns. -/
def counted (greedy : Bool) (least : Nat) (most : Option Nat) (p : Part) : Part :=
  match most with
  | none =>
    let size := if least = 0 then p.size + 2 else least * p.size + 1
    .solid (p.height + 1) size (max 1 least)
  | some most =>
    match if least = most then p.asLead? else none with
    | some ⟨none, isLiteral, spans⟩ => .turns greedy most isLiteral spans
    | _ => .solid (p.height + 1) (max 1 (most * p.size + (most - least))) (max 1 most)

/-- What is captured. -/
def captured (p : Part) : Part := .solid (p.height + 1) (p.size + 2) 1

end Part

/-! ## Outlines under construction -/

/-- An open group: whether it is captured, its finished alternatives and the items of the current
one, both last first. -/
structure Level where
  isCaptured : Bool
  branches : List Part
  items : List Part

end Outline

/-- The outline of what has been read of an expression. -/
structure Outline where
  /-- How many nodes were made. -/
  nodes : Nat
  /-- How many of them are free to serve again. -/
  spare : Nat
  /-- The product of the counts met, as far as the size limit. -/
  product : Nat
  /-- How many characters and ends of spans were put in place. -/
  runes : Nat
  /-- Whether sizes are recorded. -/
  isMeasuring : Bool
  level : Outline.Level
  /-- The groups around the current one, innermost first. -/
  outer : List Outline.Level

namespace Outline

/-- Nothing read yet. -/
def start : Outline := ⟨0, 0, 1, 0, false, ⟨false, [], []⟩, []⟩

/-- A step of building an outline. -/
abbrev Step := StateT Outline (Except Excess)

/-! ## Nodes and limits -/

/-- Takes a node. -/
def takeNode : Step Unit :=
  modify fun o =>
    if o.spare = 0 then { o with nodes := o.nodes + 1 } else { o with spare := o.spare - 1 }

/-- Gives a node back. -/
def giveNode : Step Unit := modify fun o => { o with spare := o.spare + 1 }

/-- Multiplies the product of counts, up to the size limit. -/
def countTimes (times : Nat) : Step Unit :=
  modify fun o =>
    { o with product := if times > maxSize / o.product then maxSize else o.product * times }

/-- Records the sizes of a group's parts. -/
def Level.measured (l : Level) : Level :=
  { l with branches := l.branches.map Part.measured, items := l.items.map Part.measured }

/-- Whether a group has a part that is too large. -/
def Level.isTooLarge (l : Level) : Bool := (l.branches ++ l.items).any fun p => p.size > maxSize

/-- Begins to record sizes. -/
def beginMeasuring : Step Unit := do
  modify fun o =>
    { o with isMeasuring := true, level := o.level.measured, outer := o.outer.map Level.measured }
  let o ← get
  if (o.level :: o.outer).any Level.isTooLarge then throw .tooLarge

/-- Holds a part against the limits; the part, with its size if sizes are recorded. -/
def check (p : Part) : Step Part := do
  if (← get).runes > maxRunes then throw .tooLarge
  if !(← get).isMeasuring then
    countTimes p.times
    let o ← get
    if o.nodes ≥ maxSize / o.product then beginMeasuring
  let isMeasuring := (← get).isMeasuring
  let p := if isMeasuring then p.measured else p
  if isMeasuring && p.size > maxSize then throw .tooLarge
  if p.height > maxHeight then throw .tooDeep
  return p

/-! ## Items -/

/-- Replaces the items of the current alternative. -/
def setItems (items : List Part) : Step Unit :=
  modify fun o => { o with level := { o.level with items } }

/-- Adds an item to the current alternative as it is. -/
def addItem (p : Part) : Step Unit :=
  modify fun o => { o with level := { o.level with items := p :: o.level.items } }

/-- The items with the last two as one, if both are literals of one kind; and the recorded size of the
last one. -/
def joined? : List Part → Option (List Part × Option Nat)
  | .literal lastSize? last codes :: .literal size? ignoreCase codes' :: rest =>
    if last = ignoreCase then some (.literal size? ignoreCase (codes' ++ codes) :: rest, lastSize?)
    else none
  | _ => none

/-- Makes the last two items one, if both are literals of one kind. -/
def joinLast : Step Unit := do
  match joined? (← get).level.items with
  | some (items, _) =>
    setItems items
    giveNode
  | none => return

/-- Puts a part at the end of the current alternative. -/
def put (p : Part) : Step Unit := do
  modify fun o => { o with runes := o.runes + p.runes }
  match p.asLiteral? with
  | some (ignoreCase, code) =>
    match joined? (← get).level.items with
    | some (items, size?) => setItems (.literal size? ignoreCase #[code] :: items)
    | none => addItem (← check (.literal none ignoreCase #[code]))
  | none =>
    joinLast
    addItem (← check p)

/-- Puts a new part at the end of the current alternative. -/
def add (p : Part) : Step Unit := do
  takeNode
  put p

/-- Adds a character. -/
def addChar (ignoreCase : Bool) (code : Nat) : Step Unit :=
  let code := if ignoreCase then (Unicode.Folding.orbit code).foldl min code else code
  add (.literal none ignoreCase #[code])

/-- Adds a class. -/
def addClass (s : CharSet) : Step Unit := add (.chars s.spans)

/-- Adds a condition on the position. -/
def addAssertion : Step Unit := add (.solid 1 1 1)

/-- Repeats the last item. -/
def repeatLast (mk : Part → Part) : Step Unit := do
  match (← get).level.items with
  | p :: rest =>
    takeNode
    setItems rest
    addItem (← check (mk p))
  | [] => return

/-! ## Sequences -/

/-- Parts one after the other as one part. -/
def sequence (parts : List Part) : Step Part := do
  match parts with
  | [p] => return p
  | _ =>
    takeNode
    let items ← parts.mapM fun p =>
      match p with
      | .seq _ items => do
        giveNode
        return items
      | p => return [p]
    return .seq none items.flatten

/-- Makes one part of the items of the current alternative. -/
def endItems : Step Unit := do
  joinLast
  match (← get).level.items with
  | [] => add .empty
  | items =>
    setItems []
    put (← sequence items.reverse)

/-! ## Alternatives -/

/-- How many elements two arrays have in common at their start. -/
def commonStart (a b : Array Nat) : Nat :=
  ((a.toList.zip b.toList).takeWhile fun (x, y) => x = y).length

/-- Neighbours that start with the same literal, and the literal. -/
def literalRuns : List Part → List (Option (Bool × Array Nat) × List Part)
  | [] => []
  | p :: rest => go p.leadingLiteral? [p] rest
where
  /-- The runs of `rest` after a run that is given last first. -/
  go (lead : Option (Bool × Array Nat)) (run : List Part) :
      List Part → List (Option (Bool × Array Nat) × List Part)
    | [] => [(lead, run.reverse)]
    | p :: rest =>
      let shared := match lead, p.leadingLiteral? with
        | some (ignoreCase, codes), some (ignoreCase', codes') =>
          if ignoreCase = ignoreCase' then commonStart codes codes' else 0
        | _, _ => 0
      if shared = 0 then (lead, run.reverse) :: go p.leadingLiteral? [p] rest
      else
        go (lead.map fun (ignoreCase, codes) => (ignoreCase, codes.extract 0 shared)) (p :: run) rest

/-- Neighbours that agree in a key; those without a key stand alone. -/
def runsBy {α : Type} [DecidableEq α] (key : Part → Option α) : List Part → List (List Part)
  | [] => []
  | p :: rest => go p [] rest
where
  /-- The runs of `rest` after a run, given by its last part and those before it, last first. -/
  go (last : Part) (run : List Part) : List Part → List (List Part)
    | [] => [(last :: run).reverse]
    | p :: rest =>
      if (key last).isSome && key last = key p then go p (last :: run) rest
      else (last :: run).reverse :: go p [] rest

/-- A part without the first `n` characters of the literal that it starts with. -/
def dropLiteral (n : Nat) : Part → Step Part
  | .seq size? (.literal literalSize? ignoreCase codes :: rest) => do
    if n < codes.size then
      return .seq size? (.literal literalSize? ignoreCase (codes.extract n codes.size) :: rest)
    giveNode
    match rest with
    | [p] =>
      giveNode
      return p
    | rest => return .seq size? rest
  | .literal size? ignoreCase codes =>
    return if n < codes.size then .literal size? ignoreCase (codes.extract n codes.size) else .empty
  | p => return p

/-- A part without its first part; `isFirst` keeps the node of what is dropped. -/
def dropLead (isFirst : Bool) : Part → Step Part
  | .seq size? (_ :: rest) => do
    if !isFirst then giveNode
    match rest with
    | [p] =>
      giveNode
      return p
    | rest => return .seq size? rest
  | _ => do
    if !isFirst then giveNode
    takeNode
    return .empty

/-- Single characters and classes next to each other as one class; anything else stands alone. -/
def mergeRun : List Part → Step (List Part)
  | [] => return []
  | p :: rest => do
    let merged ← rest.foldlM (fun merged q => do
      giveNode
      return merged.merge q) p
    return [merged]

/-- Of neighbours that are empty only the last one. -/
def dropEmpties : List Part → List Part
  | [] => []
  | p :: rest =>
    match p, rest with
    | .empty, .empty :: _ => dropEmpties rest
    | _, _ => p :: dropEmpties rest

/-- Alternatives as one part: what neighbours share at their start is taken out, literals first. The
first argument bounds how often that happens. -/
def alternatives : Nat → List Part → Step Part
  | _, [p] => return p
  | 0, parts => return .alt none parts
  | fuel + 1, parts => do
    takeNode
    let branches ← parts.mapM fun p =>
      match p with
      | .alt _ branches => do
        giveNode
        return branches
      | p => return [p]
    let branches ← (literalRuns branches.flatten).mapM fun (lead, run) =>
      match lead, run with
      | some (ignoreCase, codes), _ :: _ :: _ => do
        takeNode
        let rest ← run.mapM fun p => do check (← dropLiteral codes.size p)
        let rest ← alternatives fuel rest
        takeNode
        return [Part.seq none [.literal none ignoreCase codes, rest]]
      | _, run => return run
    let branches ← (runsBy (fun p => p.lead?.map Prod.snd) branches.flatten).mapM fun run =>
      match run with
      | first :: second :: more => do
        let lead := (first.lead?.map Prod.fst).getD .empty
        let head ← check (← dropLead true first)
        let rest ← (second :: more).mapM fun p => do check (← dropLead false p)
        let rest ← alternatives fuel (head :: rest)
        takeNode
        return [Part.seq none [lead, rest]]
      | run => return run
    let branches ←
      (runsBy (fun p => if p.isSingle then some () else none) branches.flatten).mapM mergeRun
    match dropEmpties branches.flatten with
    | [p] =>
      giveNode
      return p
    | branches => return .alt none branches

/-- Ends the current alternative. It joins the one before it if both are single characters or
classes. -/
def endBranch : Step Unit := do
  endItems
  let level := (← get).level
  match level.items, level.branches with
  | p :: _, b :: branches =>
    if p.isSingle && b.isSingle then
      giveNode
      setBranches (b.merge p :: branches)
    else setBranches (p :: b :: branches)
  | p :: _, [] => setBranches [p]
  | [], _ => return
where
  /-- Replaces the finished alternatives; the next one starts. -/
  setBranches (branches : List Part) : Step Unit :=
    modify fun o => { o with level := { o.level with branches, items := [] } }

/-- Goes on with another alternative. -/
def nextBranch : Step Unit := do
  let isFirst := (← get).level.branches.isEmpty
  endBranch
  if isFirst then
    takeNode
    let _ ← check .empty

/-- Makes one part of the current group. -/
def endLevel : Step Unit := do
  endBranch
  let o ← get
  let branches := o.level.branches.reverse
  set { o with level := { o.level with branches := [], items := [] } }
  put (← alternatives (Part.totalWeight branches + 1) branches)

/-! ## Groups -/

/-- Opens a group. -/
def openLevel (isCaptured : Bool) : Step Unit := do
  takeNode
  joinLast
  let _ ← check .empty
  modify fun o => { o with level := ⟨isCaptured, [], []⟩, outer := o.level :: o.outer }

/-- Ends the innermost group and closes it, if one is open. -/
def close : Step Unit := do
  endLevel
  let o ← get
  match o.outer, o.level.items with
  | level :: outer, p :: _ =>
    set { o with level, outer }
    put (if o.level.isCaptured then p.captured else p)
  | _, _ => return

end Outline

end Linewise.Pattern
