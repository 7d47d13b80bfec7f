import Linewise.Pattern.Program
import Linewise.Unicode.Category

/-!
# Replacement templates

A template is a text in which `$1`, `$name` and their forms in braces stand for what a group has
matched, and `$$` for a dollar sign. A name is as long as it can be; a dollar sign that starts none of
these stands for itself. A group that does not exist, or took no part in the match, is empty.
-/

namespace Linewise.Pattern

/-- What a piece of a template stands for. -/
inductive Reference where
  | number (i : Nat)
  | name (name : Text)
deriving DecidableEq, Repr

namespace Template

/-- Letters, decimal digits and the underscore make up names. -/
def isNameRune (r : Rune) : Bool :=
  r.char = '_' || Unicode.Category.letters.contains r.char.toNat
    || Unicode.Category.nd.contains r.char.toNat

/-- Digits without a leading zero, below a limit of nine digits, are a group's number; everything
else is a name. -/
def reference (name : Text) : Reference :=
  let isNumber := name.all (fun b => 48 ≤ b && b ≤ 57) && (name.length = 1 || name.head? ≠ some 48)
    && name.length ≤ 9
  if isNumber then .number (name.foldl (fun n b => n * 10 + (b.toNat - 48)) 0) else .name name

/-- The reference after a dollar sign, and the template after it. -/
def reference? (input : List Rune) : Option (Reference × List Rune) :=
  let braced := (input.head?.map Rune.char) = some '\x7b'
  let body := if braced then input.drop 1 else input
  let name := body.takeWhile isNameRune
  let rest := body.dropWhile isNameRune
  if name.isEmpty then none
  else if braced then
    match rest with
    | r :: rest => if r.char = '\x7d' then some (reference (Text.ofRunes name), rest) else none
    | [] => none
  else some (reference (Text.ofRunes name), rest)

/-- The runes of a text between two positions. -/
def between (runes : List Rune) (start stop : Nat) : Text :=
  Text.ofRunes ((runes.drop start).take (stop - start))

/-- The number of the first group with a name that took part in a match; `i` is the number of the
first of the given names. -/
def groupNamed? (m : Found) (name : Text) : Nat → List (Option Text) → Option (Nat × Nat)
  | _, [] => none
  | i, candidate :: rest =>
    if candidate = some name then (m.group? i).or (groupNamed? m name (i + 1) rest)
    else groupNamed? m name (i + 1) rest

/-- What a reference stands for in a match. -/
def resolve (runes : List Rune) (names : List (Option Text)) (m : Found) (ref : Reference) : Text :=
  let range := match ref with
    | .number i => m.group? i
    | .name name => groupNamed? m name 1 names
  match range with
  | some (start, stop) => between runes start stop
  | none => []

/-- The template with its references resolved; every turn takes at least one rune. -/
def expand (resolve : Reference → Text) : Nat → List Rune → Text
  | 0, _ => []
  | _ + 1, [] => []
  | fuel + 1, r :: rest =>
    if r.char = '$' then
      match rest with
      | s :: more =>
        if s.char = '$' then 36 :: expand resolve fuel more
        else
          match reference? rest with
          | some (ref, rest) => resolve ref ++ expand resolve fuel rest
          | none => 36 :: expand resolve fuel rest
      | [] => [36]
    else r.bytes ++ expand resolve fuel rest

end Template

end Linewise.Pattern
