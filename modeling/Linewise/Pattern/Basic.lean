import Linewise.Pattern.Grammar
import Linewise.Pattern.Program
import Linewise.Pattern.Template
import Linewise.Text.Quoted

/-!
# Patterns

A pattern is a regular expression with flags: `g` replaces every match and not only the first,
`i` ignores case, `m` lets the anchors match at lines, `s` lets the point match line feeds; `u` and
`y` are taken and have no effect.
-/

namespace Linewise

/-- A compiled pattern. -/
structure Pattern where
  source : Text
  flags : Text
  /-- Whether every match is replaced. -/
  isGlobal : Bool
  program : Pattern.Program
  /-- The names of the groups, from the first one on. -/
  groupNames : List (Option Text)

/-- Why a pattern could not be made. -/
inductive PatternError where
  | badFlag (flag : Char)
  | badExpr (error : Pattern.ExprError)
deriving DecidableEq, Repr

namespace PatternError

def message : PatternError → Text
  | .badFlag flag => Text.ofString "invalid pattern flag " ++ Quoted.char flag
  | .badExpr error => error.message

end PatternError

namespace Pattern

/-- Sorts flags: whether the pattern is global, and the flags that belong to the expression. -/
def sortFlags : List Char → Except PatternError (Bool × List Char)
  | [] => .ok (false, [])
  | 'g' :: rest => do
    let (_, inner) ← sortFlags rest
    return (true, inner)
  | c :: rest => do
    if c = 'u' || c = 'y' then sortFlags rest
    else if c = 'i' || c = 'm' || c = 's' then
      let (all, inner) ← sortFlags rest
      return (all, c :: inner)
    else .error (.badFlag c)

/-- Compiles a source with flags. Flags are checked before the source. -/
def compile (source flags : Text) : Except PatternError Pattern := do
  let (isGlobal, inner) ← sortFlags flags.chars
  let whole : Text :=
    if inner.isEmpty then source
    else Text.ofString "(?" ++ Text.ofChars inner ++ Text.ofString ")" ++ source
  let (e, groupNames) ← (Grammar.read whole).mapError .badExpr
  return { source, flags, isGlobal, program := .ofExpr e, groupNames }

/-- The pattern as it was written. -/
def text (p : Pattern) : Text := 47 :: p.source ++ (47 :: p.flags)

/-- The replacement for one match. -/
def substitute (p : Pattern) (runes template : List Rune) (m : Found) : Text :=
  Template.expand (Template.resolve runes p.groupNames m) (template.length + 1) template

/-- Replaces matches from position `c` on. What is before `copied` is already in the result. A match
of nothing right after another match is left alone, and the search always moves on. -/
def replaceFrom (p : Pattern) (runes template : List Rune) : Nat → Cursor → Nat → Text
  | 0, _, copied => Text.ofRunes (runes.drop copied)
  | fuel + 1, c, copied =>
    match p.program.find c.after c with
    | none => Text.ofRunes (runes.drop copied)
    | some m =>
      let skipped := Template.between runes copied m.start
      let replacement :=
        if copied < m.stop || m.start = 0 then p.substitute runes template m else []
      let rest :=
        if c.after.isEmpty then Text.ofRunes (runes.drop m.stop)
        else
          let steps := max 1 (m.stop - c.index)
          replaceFrom p runes template fuel (Nat.repeat Cursor.advance steps c) m.stop
      skipped ++ replacement ++ rest

/-- The text with the template in place of the first match, or of every match if the pattern is
global. -/
def replace (p : Pattern) (s template : Text) : Text :=
  let runes := s.runes
  let template := template.runes
  if p.isGlobal then p.replaceFrom runes template (runes.length + 1) (.start runes) 0
  else
    match p.program.find runes (.start runes) with
    | none => s
    | some m =>
      Template.between runes 0 m.start ++ p.substitute runes template m
        ++ Text.ofRunes (runes.drop m.stop)

end Pattern

end Linewise
