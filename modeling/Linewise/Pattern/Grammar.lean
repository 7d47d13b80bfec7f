import Linewise.Pattern.Expr
import Linewise.Pattern.Outline
import Linewise.Text.Rune

/-!
# Reading regular expressions

An expression is read from left to right; the first problem met is reported together with the part
of the expression that it is about. Groups that are still open are kept as a list of scopes.
-/

namespace Linewise.Pattern

/-! ## Errors -/

/-- What is wrong with an expression. -/
inductive Problem where
  | missingParen
  | unexpectedParen
  | missingBracket
  | badRange
  | badEscape
  | missingArgument
  | nestedRepeat
  | badRepeatCount
  | trailingBackslash
  | badGroup
  | badGroupName
  | notUtf8
  | tooDeep
  | tooLarge
deriving DecidableEq, Repr

/-- A problem and the part of the expression that shows it. -/
structure ExprError where
  problem : Problem
  excerpt : Text
deriving DecidableEq, Repr

namespace Problem

def message : Problem → Text
  | .missingParen => "missing closing )"
  | .unexpectedParen => "unexpected )"
  | .missingBracket => "missing closing ]"
  | .badRange => "invalid character class range"
  | .badEscape => "invalid escape sequence"
  | .missingArgument => "missing argument to repetition operator"
  | .nestedRepeat => "invalid nested repetition operator"
  | .badRepeatCount => "invalid repeat count"
  | .trailingBackslash => "trailing backslash at end of expression"
  | .badGroup => "invalid or unsupported Perl syntax"
  | .badGroupName => "invalid named capture"
  | .notUtf8 => "invalid UTF-8"
  | .tooDeep => "expression nests too deeply"
  | .tooLarge => "expression too large"

/-- The problem of going beyond a limit. -/
def ofExcess : Excess → Problem
  | .tooDeep => .tooDeep
  | .tooLarge => .tooLarge

end Problem

namespace ExprError

def message (e : ExprError) : Text :=
  Text.ofString "error parsing regexp: " ++ e.problem.message ++ Text.ofString ": \x60" ++ e.excerpt
    ++ Text.ofString "\x60"

end ExprError

/-! ## Characters -/

namespace Grammar

/-- The runes still to be read. -/
abbrev Input := List Rune

/-- Reading gives a result or meets a problem. -/
abbrev Read := Except ExprError

def fail {α : Type} (problem : Problem) (excerpt : Text) : Read α :=
  .error ⟨problem, excerpt⟩

/-- The text between two points of reading. -/
def consumed (before after : Input) : Text :=
  Text.ofRunes (before.take (before.length - after.length))

/-- The next character. At the end it is U+FFFD; a stray byte is an error. -/
def next : Input → Read (Char × Input)
  | [] => .ok (Rune.replacement, [])
  | r :: rest =>
    if r.isStray then fail .notUtf8 (Text.ofRunes (r :: rest)) else .ok (r.char, rest)

/-- Fails at the first stray byte. -/
def checkUtf8 (input : Input) : Read Unit :=
  match input.dropWhile fun r => !r.isStray with
  | [] => .ok ()
  | rest => fail .notUtf8 (Text.ofRunes rest)

/-- The value of a hexadecimal digit. -/
def hexValue? (c : Char) : Option Nat :=
  if '0' ≤ c ∧ c ≤ '9' then some (c.toNat - 48)
  else if 'a' ≤ c ∧ c ≤ 'f' then some (c.toNat - 87)
  else if 'A' ≤ c ∧ c ≤ 'F' then some (c.toNat - 55)
  else none

def isOctal (r : Rune) : Bool := '0' ≤ r.char ∧ r.char ≤ '7'

def isDecimal (r : Rune) : Bool := '0' ≤ r.char ∧ r.char ≤ '9'

/-- The value of octal digits after `value`. -/
def octalValue (value : Nat) (digits : Input) : Nat :=
  digits.foldl (fun n r => n * 8 + (r.char.toNat - 48)) value

/-- Hexadecimal digits up to a closing brace; `count` of them, with the given value, are read. An
error is told by the input that is left. -/
def bracedHex (value count : Nat) : Input → Read (Option Nat × Input)
  | [] => .ok (none, [])
  | r :: rest => do
    let (c, rest') ← next (r :: rest)
    if c = '\x7d' then return (if count = 0 then none else some value, rest')
    match hexValue? c with
    | none => return (none, rest')
    | some digit =>
      if value * 16 + digit > maxCode then return (none, rest')
      else bracedHex (value * 16 + digit) (count + 1) rest

/-- The code point of an escape after its backslash and its letter `c`, none if there is no such
escape; and what is left. -/
def escapeCode (c : Char) (rest : Input) : Read (Option Nat × Input) :=
  if '0' ≤ c ∧ c ≤ '7' then
    if c = '0' || (rest.head?.map isOctal).getD false then
      let digits := (rest.take 2).takeWhile isOctal
      .ok (some (octalValue (c.toNat - 48) digits), rest.drop digits.length)
    else .ok (none, rest)
  else
    match c with
    | 'a' => .ok (some 7, rest)
    | 'f' => .ok (some 12, rest)
    | 'n' => .ok (some 10, rest)
    | 'r' => .ok (some 13, rest)
    | 't' => .ok (some 9, rest)
    | 'v' => .ok (some 11, rest)
    | 'x' =>
      if rest.isEmpty then .ok (none, rest)
      else do
        let (high, rest) ← next rest
        if high = '\x7b' then bracedHex 0 0 rest
        else
          let (low, rest) ← next rest
          match hexValue? high, hexValue? low with
          | some x, some y => return (some (x * 16 + y), rest)
          | _, _ => return (none, rest)
    | _ =>
      if c.toNat < 0x80 && !c.isAlphanum then .ok (some c.toNat, rest) else .ok (none, rest)

/-- The code point of an escape; the input starts with its backslash. -/
def escape (input : Input) : Read (Nat × Input) :=
  match input.drop 1 with
  | [] => fail .trailingBackslash []
  | rest => do
    let (c, rest) ← next rest
    let (code?, rest) ← escapeCode c rest
    match code? with
    | some code => return (code, rest)
    | none => fail .badEscape (consumed input rest)

/-! ## Classes -/

/-- A class named by a letter after a backslash. -/
def escapeClass? (ignoreCase : Bool) : Input → Option (CharSet × Input)
  | backslash :: letter :: rest =>
    if backslash.char = '\\' then
      (CharSet.escapeClass? letter.char).map fun (negated, s) =>
        ((s.withCase ignoreCase).signed negated, rest)
    else none
  | _ => none

/-- The characters of a name. -/
def nameOf (input : Input) : String := String.ofList (input.map Rune.char)

/-- The class that a property name stands for; a leading circumflex negates it. -/
def propertyClass (ignoreCase negated : Bool) (name : Input) (excerpt : Text) :
    Read CharSet :=
  let (negated, name) := match name with
    | r :: rest => if r.char = '^' then (!negated, rest) else (negated, r :: rest)
    | [] => (negated, [])
  match CharSet.property? ignoreCase (nameOf name) with
  | some s => .ok (s.signed negated)
  | none => fail .badRange excerpt

/-- A class given by a Unicode property: backslash, `p` or `P`, and a letter or a name in braces. -/
def unicodeClass? (ignoreCase : Bool) (input : Input) :
    Read (Option (CharSet × Input)) :=
  match input with
  | backslash :: letter :: rest =>
    if backslash.char = '\\' && (letter.char = 'p' || letter.char = 'P') then do
      let negated := letter.char = 'P'
      let (c, after) ← next rest
      if c = '\x7b' then
        let closing := fun r : Rune => r.char = '\x7d'
        match after.dropWhile fun r => !closing r with
        | [] =>
          checkUtf8 input
          fail .badRange (Text.ofRunes input)
        | _ :: after' =>
          let name := after.takeWhile fun r => !closing r
          checkUtf8 name
          let s ← propertyClass ignoreCase negated name (consumed input after')
          return some (s, after')
      else
        let s ← propertyClass ignoreCase negated (rest.take 1) (consumed input after)
        return some (s, after)
    else .ok none
  | _ => .ok none

/-- The input up to the first place where `a` and `b` follow each other, and after them. -/
def cutPair (a b : Char) : Input → Option (Input × Input)
  | r :: s :: rest =>
    if r.char = a && s.char = b then some ([], rest)
    else (cutPair a b (s :: rest)).map fun (front, back) => (r :: front, back)
  | _ => none

/-- A class named between `[:` and `:]`; a leading circumflex in the name negates it. -/
def bracketClass? (ignoreCase : Bool) (input : Input) :
    Read (Option (CharSet × Input)) :=
  match input with
  | a :: b :: rest =>
    if a.char = '[' && b.char = ':' then
      match cutPair ':' ']' rest with
      | none => .ok none
      | some (name, after) =>
        let (negated, name) := match name with
          | r :: more => if r.char = '^' then (true, more) else (false, r :: more)
          | [] => (false, [])
        match CharSet.bracketClass? (nameOf name) with
        | some s => .ok (some ((s.withCase ignoreCase).signed negated, after))
        | none => fail .badRange (consumed input after)
    else .ok none
  | _ => .ok none

/-- One character of a class; `whole` is the class from its bracket on. -/
def classChar (whole input : Input) : Read (Nat × Input) :=
  match input with
  | [] => fail .missingBracket (Text.ofRunes whole)
  | r :: _ =>
    if r.char = '\\' then escape input
    else do
      let (c, rest) ← next input
      return (c.toNat, rest)

/-- A character or a range of characters in a class. -/
def classRange (ignoreCase : Bool) (whole input : Input) : Read (CharSet × Input) := do
  let (low, rest) ← classChar whole input
  match rest with
  | dash :: r :: _ =>
    if dash.char = '-' && r.char ≠ ']' then
      let (high, rest) ← classChar whole (rest.drop 1)
      if high < low then fail .badRange (consumed input rest)
      return ((CharSet.range low high).withCase ignoreCase, rest)
    else return ((CharSet.single low).withCase ignoreCase, rest)
  | _ => return ((CharSet.single low).withCase ignoreCase, rest)

/-- One member of a class. -/
def classItem (ignoreCase : Bool) (whole input : Input) : Read (CharSet × Input) := do
  match ← bracketClass? ignoreCase input with
  | some found => return found
  | none =>
    match ← unicodeClass? ignoreCase input with
    | some found => return found
    | none =>
      match escapeClass? ignoreCase input with
      | some found => return found
      | none => classRange ignoreCase whole input

/-- The members of a class up to its closing bracket, which does not close it in first place. -/
def classItems (ignoreCase : Bool) (whole : Input) :
    Nat → Bool → CharSet → Input → Read (CharSet × Input)
  | 0, _, _, _ => fail .missingBracket (Text.ofRunes whole)
  | fuel + 1, first, found, input =>
    if !first && (input.head?.map Rune.char) = some ']' then .ok (found, input.drop 1)
    else do
      let (s, rest) ← classItem ignoreCase whole input
      classItems ignoreCase whole fuel false (.union found s) rest

/-- A class in brackets. -/
def bracketed (ignoreCase : Bool) (input : Input) : Read (CharSet × Input) :=
  match input.drop 1 with
  | r :: rest =>
    if r.char = '^' then do
      let (s, rest) ← classItems ignoreCase input (input.length + 1) true .none rest
      return (.complement s, rest)
    else classItems ignoreCase input (input.length + 1) true .none (r :: rest)
  | [] => classItems ignoreCase input (input.length + 1) true .none []

/-! ## Counts -/

/-- A count of turns: digits without a leading zero, with what follows them. -/
def count? (input : Input) : Option (Nat × Input) :=
  let digits := input.takeWhile isDecimal
  match digits with
  | [] => none
  | r :: more =>
    if r.char = '0' && !more.isEmpty then none
    else
      some (digits.foldl (fun n r => n * 10 + (r.char.toNat - 48)) 0, input.drop digits.length)

/-- The counts in braces, none if the brace opens no counts. -/
def counts? (input : Input) : Option ((Nat × Option Nat) × Input) := do
  let (least, rest) ← count? (input.drop 1)
  let closed (most : Option Nat) : Input → Option ((Nat × Option Nat) × Input)
    | r :: rest => if r.char = '\x7d' then some ((least, most), rest) else none
    | [] => none
  match rest with
  | [] => none
  | r :: after =>
    if r.char = ',' then
      match after with
      | [] => none
      | s :: _ =>
        if s.char = '\x7d' then closed none after
        else
          let (most, rest) ← count? after
          closed (some most) rest
    else closed (some least) rest

/-! ## Groups -/

/-- How characters and repetitions are read. -/
structure Flags where
  ignoreCase : Bool := false
  multiLine : Bool := false
  dotAll : Bool := false
  /-- Repetitions prefer fewer turns. -/
  lazy : Bool := false

/-- An open group: its number if it is captured, the flags to return to after it, its finished
alternatives and the items of the current one, both last first. -/
structure Scope where
  index : Option Nat
  outerFlags : Flags
  branches : List Expr
  items : List Expr

/-- What has been read so far. -/
structure State where
  /-- The whole expression. -/
  whole : Text
  flags : Flags
  /-- The names of the captured groups, last first. -/
  names : List (Option Text)
  scope : Scope
  /-- The scopes around the current one, innermost first. -/
  outer : List Scope
  outline : Outline

namespace State

/-- Nothing read yet. -/
def start (whole : Text) : State := ⟨whole, {}, [], ⟨none, {}, [], []⟩, [], .start⟩

/-- Takes a step in the outline; to go beyond a limit is a problem of the whole expression. -/
def outlined (st : State) (step : Outline.Step Unit) : Read State :=
  match step.run st.outline with
  | .ok (_, outline) => .ok { st with outline }
  | .error excess => fail (.ofExcess excess) st.whole

/-- Adds an item to the current alternative. -/
def addItem (st : State) (e : Expr) : State :=
  { st with scope := { st.scope with items := e :: st.scope.items } }

/-- Adds a condition on the position. -/
def pushAssertion (st : State) (condition : Assertion) : Read State :=
  (st.addItem (.assert condition)).outlined Outline.addAssertion

/-- Adds a class. -/
def pushClass (st : State) (s : CharSet) : Read State :=
  (st.addItem (.char s)).outlined (Outline.addClass s)

/-- Adds a character. -/
def pushChar (st : State) (code : Nat) : Read State :=
  (st.addItem (.char ((CharSet.single code).withCase st.flags.ignoreCase))).outlined
    (Outline.addChar st.flags.ignoreCase code)

/-- The current scope with the current alternative ended. -/
def endBranch (st : State) : State :=
  { st with
    scope := { st.scope with
      branches := .ofItems st.scope.items.reverse :: st.scope.branches
      items := [] } }

/-- Goes on with another alternative. -/
def nextBranch (st : State) : Read State := st.endBranch.outlined Outline.nextBranch

/-- The expression of the current scope. -/
def finish (st : State) : Expr := .ofBranches st.endBranch.scope.branches.reverse

/-- Opens a group that is captured under the next number. -/
def openGroup (st : State) (name : Option Text) : Read State :=
  { st with
    names := name :: st.names
    scope := ⟨some (st.names.length + 1), st.flags, [], []⟩
    outer := st.scope :: st.outer }.outlined (Outline.openLevel true)

/-- Opens a group that is not captured, with its own flags. -/
def openScope (st : State) (flags : Flags) : Read State :=
  { st with flags, scope := ⟨none, st.flags, [], []⟩, outer := st.scope :: st.outer }.outlined
    (Outline.openLevel false)

/-- Closes the innermost group. Without an open group that is a problem, though limits come first. -/
def close (st : State) : Read State := do
  let st ← st.outlined Outline.close
  match st.outer with
  | [] => fail .unexpectedParen st.whole
  | scope :: outer =>
    let e := match st.scope.index with
      | some i => .group i st.finish
      | none => st.finish
    return { st with flags := st.scope.outerFlags, scope, outer }.addItem e

end State

/-- Whether a group may have this name. -/
def isGroupName (name : Input) : Bool :=
  !name.isEmpty && name.all fun r => r.char.isAlphanum || r.char = '_'

/-- Opens a named group; `rest` is the input after `<`. -/
def namedGroup (st : State) (input rest : Input) : Read (State × Input) :=
  let closing := fun r : Rune => r.char = '>'
  match input.dropWhile fun r => !closing r with
  | [] => do
    checkUtf8 input
    fail .badGroupName (Text.ofRunes input)
  | _ :: after => do
    let name := rest.take (rest.length - after.length - 1)
    checkUtf8 name
    if isGroupName name then return (← st.openGroup (some (Text.ofRunes name)), after)
    fail .badGroupName (consumed input after)

/-- Reads flags after `(?` up to `)` or `:`. After a minus flags are switched off, and there has to be
one. -/
def flagGroup (input : Input) (st : State) :
    Flags → Bool → Bool → Input → Read (State × Input)
  | _, _, _, [] => fail .badGroup (consumed input [])
  | flags, off, seen, r :: rest =>
    if r.isStray then fail .notUtf8 (Text.ofRunes (r :: rest))
    else
      match r.char with
      | 'i' => flagGroup input st { flags with ignoreCase := !off } off true rest
      | 'm' => flagGroup input st { flags with multiLine := !off } off true rest
      | 's' => flagGroup input st { flags with dotAll := !off } off true rest
      | 'U' => flagGroup input st { flags with lazy := !off } off true rest
      | '-' =>
        if off then fail .badGroup (consumed input rest)
        else flagGroup input st flags true false rest
      | ':' =>
        if off && !seen then fail .badGroup (consumed input rest)
        else (st.openScope flags).map (·, rest)
      | ')' =>
        if off && !seen then fail .badGroup (consumed input rest)
        else .ok ({ st with flags }, rest)
      | _ => fail .badGroup (consumed input rest)

/-- Opens what a parenthesis opens. -/
def openParen (st : State) (input : Input) : Read (State × Input) :=
  match input with
  | _ :: q :: rest =>
    if q.char = '?' then
      match rest with
      | p :: l :: n :: more =>
        if p.char = 'P' && l.char = '<' then namedGroup st input (n :: more)
        else if p.char = '<' then namedGroup st input (l :: n :: more)
        else flagGroup input st st.flags false false rest
      | l :: n :: more =>
        if l.char = '<' then namedGroup st input (n :: more)
        else flagGroup input st st.flags false false rest
      | _ => flagGroup input st st.flags false false rest
    else (st.openGroup none).map (·, q :: rest)
  | _ => (st.openGroup none).map (·, input.drop 1)

/-! ## Repetition -/

/-- The ways to repeat an item. -/
inductive Repetition where
  | star
  | plus
  | opt
  | counted (least : Nat) (most : Option Nat)
deriving DecidableEq, Repr

namespace Repetition

/-- An expression repeated. -/
def expr (greedy : Bool) (e : Expr) : Repetition → Expr
  | .star => .star greedy e
  | .plus => .plus greedy e
  | .opt => .opt greedy e
  | .counted least most => .counted greedy least most e

/-- A part of an outline repeated. -/
def part (greedy : Bool) (p : Outline.Part) : Repetition → Outline.Part
  | .star => p.star
  | .plus => p.plusOrOpt
  | .opt => p.plusOrOpt
  | .counted least most => p.counted greedy least most

end Repetition

/-- Repeats the last item. `before` starts with the operator, `after` follows it, and `last` starts
with the repetition operator right before, if there is one. -/
def repeatLast (st : State) (how : Repetition) (before after : Input) (last : Option Input) :
    Read (State × Input) :=
  let (isLazy, after) := match after with
    | r :: rest => if r.char = '?' then (!st.flags.lazy, rest) else (st.flags.lazy, r :: rest)
    | [] => (st.flags.lazy, [])
  match last with
  | some last => fail .nestedRepeat (consumed last after)
  | none =>
    match st.scope.items with
    | [] => fail .missingArgument (consumed before after)
    | e :: items => do
      let repeated := how.expr (!isLazy) e
      let st ← { st with scope := { st.scope with items := repeated :: items } }.outlined
        (Outline.repeatLast fun p => how.part (!isLazy) p)
      if repeated.countsWithin 1000 then return (st, after)
      fail .badRepeatCount (consumed before after)

/-! ## Expressions -/

/-- Adds the characters of a literal. -/
def pushLiteral (st : State) : Input → Read State
  | [] => .ok st
  | r :: rest => do
    let (c, _) ← next (r :: rest)
    pushLiteral (← st.pushChar c.toNat) rest

/-- Reads a literal up to `\E` or the end. -/
def quotedRun (st : State) (input : Input) : Read (State × Input) := do
  let (literal, rest) := (cutPair '\\' 'E' input).getD (input, [])
  return (← pushLiteral st literal, rest)

/-- Reads what a backslash starts. -/
def backslash (st : State) (input : Input) : Read (State × Input) := do
  let letter := ((input.drop 1).head?.map Rune.char).getD ' '
  let rest := input.drop 2
  match letter with
  | 'A' => return (← st.pushAssertion .textStart, rest)
  | 'b' => return (← st.pushAssertion .wordBoundary, rest)
  | 'B' => return (← st.pushAssertion .noWordBoundary, rest)
  | 'z' => return (← st.pushAssertion .textEnd, rest)
  | 'C' => fail .badEscape (consumed input rest)
  | 'Q' => quotedRun st rest
  | _ =>
    match ← unicodeClass? st.flags.ignoreCase input with
    | some (s, rest) => return (← st.pushClass s, rest)
    | none =>
      match escapeClass? st.flags.ignoreCase input with
      | some (s, rest) => return (← st.pushClass s, rest)
      | none =>
        let (code, rest) ← escape input
        return (← st.pushChar code, rest)

/-- Reads one element of an expression that starts with `r`. The last component is the input from the
operator on if the element was a repetition. -/
def element (st : State) (r : Rune) (rest : Input) (last : Option Input) :
    Read ((State × Option Input) × Input) :=
  let input := r :: rest
  let plain (s : Read (State × Input)) : Read ((State × Option Input) × Input) :=
    s.map fun (st, rest) => ((st, none), rest)
  let single (s : Read State) : Read ((State × Option Input) × Input) :=
    s.map fun st => ((st, none), rest)
  let repetition (how : Repetition) (after : Input) : Read ((State × Option Input) × Input) :=
    (repeatLast st how input after last).map fun (st, rest) => ((st, some input), rest)
  match r.char with
  | '(' => plain (openParen st input)
  | '|' => single st.nextBranch
  | ')' => single st.close
  | '^' => single (st.pushAssertion (if st.flags.multiLine then .lineStart else .textStart))
  | '$' => single (st.pushAssertion (if st.flags.multiLine then .lineEnd else .textEnd))
  | '.' => single (st.pushClass (if st.flags.dotAll then .any else .anyInLine))
  | '[' => plain do
    let (s, rest) ← bracketed st.flags.ignoreCase input
    return (← st.pushClass s, rest)
  | '*' => repetition .star rest
  | '+' => repetition .plus rest
  | '?' => repetition .opt rest
  | '\x7b' =>
    match counts? input with
    | none => single (st.pushChar r.char.toNat)
    | some ((least, most), after) =>
      if least > 1000 || most.any (fun most => most > 1000 || most < least) then
        fail .badRepeatCount (consumed input after)
      else repetition (.counted least most) after
  | '\\' => plain (backslash st input)
  | _ => plain do
    let (c, rest) ← next input
    return (← st.pushChar c.toNat, rest)

/-- Reads elements until the input ends; every one takes at least a rune. -/
def elements : Nat → State → Input → Option Input → Read State
  | _, st, [], _ => .ok st
  | 0, st, _, _ => .ok st
  | fuel + 1, st, r :: rest, last => do
    let ((st, last), rest) ← element st r rest last
    elements fuel st rest last

/-- The expression that a text writes, and the names of its groups from the first one on. -/
def read (whole : Text) : Read (Expr × List (Option Text)) := do
  let input := whole.runes
  let st ← elements input.length (.start whole) input none
  let st ← st.outlined Outline.endLevel
  if st.outer.isEmpty then return (st.finish, st.names.reverse)
  fail .missingParen whole

end Grammar

end Linewise.Pattern
