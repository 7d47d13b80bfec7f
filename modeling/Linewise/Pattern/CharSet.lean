import Linewise.Unicode.Category
import Linewise.Unicode.Folding
import Linewise.Unicode.Script

/-!
# Character classes

Sets of characters as patterns describe them. A set is kept as it was put together; membership is
decided along its structure.
-/

namespace Linewise.Pattern

/-- The greatest code point. -/
def maxCode : Nat := 0x10FFFF

/-- A set of characters, given by code points. -/
inductive CharSet where
  | none
  /-- The code points from `first` to `last`. -/
  | range (first last : Nat)
  /-- The code points of a table. -/
  | table (ranges : Unicode.Ranges)
  | union (a b : CharSet)
  | complement (a : CharSet)
  /-- Everything that differs in case only from a member. -/
  | folded (a : CharSet)
deriving Repr

namespace CharSet

def contains : CharSet → Nat → Bool
  | .none, _ => false
  | .range first last, code => first ≤ code && code ≤ last
  | .table ranges, code => ranges.contains code
  | .union a b, code => a.contains code || b.contains code
  | .complement a, code => code ≤ maxCode && !a.contains code
  | .folded a, code => (Unicode.Folding.orbit code).any a.contains

/-- One character. -/
def single (code : Nat) : CharSet := .range code code

/-- The union of several ranges. -/
def ofRanges (ranges : List (Nat × Nat)) : CharSet :=
  ranges.foldr (fun (first, last) s => .union (.range first last) s) .none

/-- Every character. -/
def any : CharSet := .range 0 maxCode

/-- Every character but the line feed. -/
def anyInLine : CharSet := .complement (single 10)

/-- A set, with its members of other case if case does not matter. -/
def withCase (ignoreCase : Bool) (s : CharSet) : CharSet := if ignoreCase then .folded s else s

/-- A set or its complement. -/
def signed (negated : Bool) (s : CharSet) : CharSet := if negated then .complement s else s

/-! ## Named classes -/

def digits : CharSet := .range 48 57

def blanks : CharSet := ofRanges [(9, 10), (12, 13), (32, 32)]

def wordChars : CharSet := ofRanges [(48, 57), (65, 90), (95, 95), (97, 122)]

/-- The classes that a letter after a backslash names; a capital letter names the complement. -/
def escapeClass? (letter : Char) : Option (Bool × CharSet) :=
  match letter with
  | 'd' => some (false, digits)
  | 'D' => some (true, digits)
  | 's' => some (false, blanks)
  | 'S' => some (true, blanks)
  | 'w' => some (false, wordChars)
  | 'W' => some (true, wordChars)
  | _ => Option.none

/-- The classes that a name between colons stands for. -/
def bracketClass? (name : String) : Option CharSet :=
  match name with
  | "alnum" => some (ofRanges [(48, 57), (65, 90), (97, 122)])
  | "alpha" => some (ofRanges [(65, 90), (97, 122)])
  | "ascii" => some (.range 0 0x7F)
  | "blank" => some (ofRanges [(9, 9), (32, 32)])
  | "cntrl" => some (ofRanges [(0, 0x1F), (0x7F, 0x7F)])
  | "digit" => some digits
  | "graph" => some (.range 33 126)
  | "lower" => some (.range 97 122)
  | "print" => some (.range 32 126)
  | "punct" => some (ofRanges [(33, 47), (58, 64), (91, 96), (123, 126)])
  | "space" => some (ofRanges [(9, 13), (32, 32)])
  | "upper" => some (.range 65 90)
  | "word" => some wordChars
  | "xdigit" => some (ofRanges [(48, 57), (65, 70), (97, 102)])
  | _ => Option.none

/-! ## Properties -/

/-- A name without what does not count in it: case, blanks, underscores and hyphens. -/
def looseName (name : String) : String :=
  String.ofList ((name.toList.filter fun c => c ≠ ' ' && c ≠ '_' && c ≠ '-').map Char.toLower)

/-- The general categories and scripts by their loose names. -/
def properties : List (String × Unicode.Ranges) :=
  (Unicode.Category.named ++ Unicode.Script.named).map fun (name, ranges) =>
    (looseName name, ranges)

/-- All code points that stand for nothing. -/
def unassigned : CharSet := .complement (.table Unicode.Category.assigned)

/-- The characters of a general category or a script. Cased letters stay among themselves if case
does not matter: the one mark that differs in case only from a letter is not added. -/
def property? (ignoreCase : Bool) (name : String) : Option CharSet :=
  match looseName name with
  | "any" => some any
  | "ascii" => some ((CharSet.range 0 0x7F).withCase ignoreCase)
  | "assigned" => some (.table Unicode.Category.assigned)
  | "cn" | "unassigned" => some unassigned
  | "c" | "other" => some (.union (.table Unicode.Category.controls) unassigned)
  | "lc" | "casedletter" => some (.table Unicode.Category.casedLetters)
  | loose => (properties.lookup loose).map fun ranges => (CharSet.table ranges).withCase ignoreCase

end CharSet

end Linewise.Pattern
