import Linewise.Pattern.CharSet

/-!
# Regular expressions

The expressions that patterns are written in, and their expansion into expressions without counted
repetition.
-/

namespace Linewise.Pattern

/-- Conditions on a position in a text. -/
inductive Assertion where
  | textStart
  | textEnd
  | lineStart
  | lineEnd
  | wordBoundary
  | noWordBoundary
deriving DecidableEq, Repr

/-- A regular expression. A repetition that is not greedy prefers fewer turns. -/
inductive Expr where
  | empty
  | char (set : CharSet)
  | assert (condition : Assertion)
  | group (index : Nat) (body : Expr)
  | seq (first second : Expr)
  | alt (first second : Expr)
  | star (greedy : Bool) (body : Expr)
  | plus (greedy : Bool) (body : Expr)
  | opt (greedy : Bool) (body : Expr)
  /-- From `least` to `most` turns, or any number from `least` on. -/
  | counted (greedy : Bool) (least : Nat) (most : Option Nat) (body : Expr)
deriving Repr

namespace Expr

/-- The expressions one after the other. -/
def ofItems : List Expr → Expr
  | [] => .empty
  | [e] => e
  | e :: rest => .seq e (ofItems rest)

/-- The expressions as alternatives, the first one preferred. -/
def ofBranches : List Expr → Expr
  | [] => .empty
  | [e] => e
  | e :: rest => .alt e (ofBranches rest)

/-- Whether nested counts multiply to at most `limit`. -/
def countsWithin : Nat → Expr → Bool
  | limit, .group _ e => countsWithin limit e
  | limit, .seq a b => countsWithin limit a && countsWithin limit b
  | limit, .alt a b => countsWithin limit a && countsWithin limit b
  | limit, .star _ e => countsWithin limit e
  | limit, .plus _ e => countsWithin limit e
  | limit, .opt _ e => countsWithin limit e
  | limit, .counted _ least most e =>
    match most with
    | some 0 => true
    | some (n + 1) => n + 1 ≤ limit && countsWithin (limit / (n + 1)) e
    | none => least ≤ limit && countsWithin (if least = 0 then limit else limit / least) e
  | _, _ => true

/-! ## Expansion -/

/-- Zero or more turns; a repetition of the same kind, or of nothing, is not repeated again. -/
def mkStar (greedy : Bool) : Expr → Expr
  | .empty => .empty
  | .star g e => if g = greedy then .star g e else .star greedy (.star g e)
  | e => .star greedy e

/-- One or more turns. -/
def mkPlus (greedy : Bool) : Expr → Expr
  | .empty => .empty
  | .plus g e => if g = greedy then .plus g e else .plus greedy (.plus g e)
  | e => .plus greedy e

/-- At most one turn. -/
def mkOpt (greedy : Bool) : Expr → Expr
  | .empty => .empty
  | .opt g e => if g = greedy then .opt g e else .opt greedy (.opt g e)
  | e => .opt greedy e

/-- Up to `n + 1` turns, each one optional after the one before. -/
def upTo (greedy : Bool) (e : Expr) : Nat → Expr
  | 0 => mkOpt greedy e
  | n + 1 => mkOpt greedy (.seq e (upTo greedy e n))

/-- Counted turns written out. -/
def unroll (greedy : Bool) (least : Nat) (most : Option Nat) (e : Expr) : Expr :=
  match most with
  | some 0 => .empty
  | none =>
    if least = 0 then mkStar greedy e
    else ofItems (List.replicate (least - 1) e ++ [mkPlus greedy e])
  | some most =>
    if least < most then
      ofItems (List.replicate least e ++ [upTo greedy e (most - least - 1)])
    else ofItems (List.replicate least e)

/-- The expression without counted repetition. -/
def expand : Expr → Expr
  | .group i e => .group i e.expand
  | .seq a b => .seq a.expand b.expand
  | .alt a b => .alt a.expand b.expand
  | .star greedy e => mkStar greedy e.expand
  | .plus greedy e => mkPlus greedy e.expand
  | .opt greedy e => mkOpt greedy e.expand
  | .counted greedy least most e => unroll greedy least most e.expand
  | e => e

/-- Whether the expression can match the empty text, assertions taken to hold. -/
def nullable : Expr → Bool
  | .empty => true
  | .char _ => false
  | .assert _ => true
  | .group _ e => e.nullable
  | .seq a b => a.nullable && b.nullable
  | .alt a b => a.nullable || b.nullable
  | .star _ _ => true
  | .plus _ e => e.nullable
  | .opt _ _ => true
  | .counted _ least _ e => least = 0 || e.nullable

end Expr

end Linewise.Pattern
