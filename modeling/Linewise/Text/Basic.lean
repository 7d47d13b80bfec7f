/-!
# Texts

A text is a string of bytes. Program lines, names, printed output and messages are texts; most of
them hold UTF-8, none has to. String literals stand for their UTF-8 bytes.
-/

namespace Linewise

/-- A string of bytes. -/
abbrev Text := List UInt8

namespace Text

/-- The UTF-8 bytes of a string. -/
def ofString (s : String) : Text := s.toUTF8.data.toList

instance : Coe String Text := ⟨ofString⟩

/-- The texts one after the other with `separator` between neighbours. -/
def join (separator : Text) : List Text → Text
  | [] => []
  | [s] => s
  | s :: t :: rest => s ++ separator ++ join separator (t :: rest)

theorem join_eq_intercalate (separator : Text) (texts : List Text) :
    join separator texts = separator.intercalate texts := by
  induction texts using join.induct with
  | case1 => rfl
  | case2 s => simp [join]
  | case3 s t rest ih => rw [join, ih, List.intercalate_cons_cons]

/-- The decimal digits of a natural number. -/
def ofNat (n : Nat) : Text := (Nat.toDigits 10 n).map fun c => c.toNat.toUInt8

/-- The decimal digits of an integer, after a minus sign if it is negative. -/
def ofInt : Int → Text
  | .ofNat n => ofNat n
  | .negSucc n => 45 :: ofNat (n + 1)

/-- `s` repeated `n` times. -/
def replicate (n : Nat) (s : Text) : Text := (List.replicate n s).flatten

/-- The text before the first occurrence of `b` and the text after it. -/
def cut? (b : UInt8) : Text → Option (Text × Text)
  | [] => none
  | c :: rest =>
    if c = b then some ([], rest) else (cut? b rest).map fun (front, back) => (c :: front, back)

/-- The pieces between the occurrences of `b`; there is always at least one piece. -/
def splitOn (b : UInt8) : Text → List Text
  | [] => [[]]
  | c :: rest =>
    if c = b then [] :: splitOn b rest
    else
      match splitOn b rest with
      | [] => [[c]]
      | piece :: pieces => (c :: piece) :: pieces

/-- `s` without `ending`, when it ends with it. -/
def dropEnding (ending s : Text) : Text :=
  if ending.isSuffixOf s then s.take (s.length - ending.length) else s

/-- `s` with the first occurrence of `old` replaced by `new`. An empty `old` occurs at the start. -/
def replaceFirst (old new : Text) : Text → Text
  | [] => if old.isEmpty then new else []
  | c :: rest =>
    if old.isPrefixOf (c :: rest) then new ++ (c :: rest).drop old.length
    else c :: replaceFirst old new rest

/-- Byte-wise lexicographic order, a proper beginning coming first. -/
def lt : Text → Text → Bool
  | [], [] => false
  | [], _ :: _ => true
  | _ :: _, [] => false
  | a :: s, b :: t => a < b || (a = b && lt s t)

/-- The texts in byte-wise order; equal texts stay next to each other. -/
def sort (texts : List Text) : List Text := texts.mergeSort fun s t => !lt t s

end Text

end Linewise
