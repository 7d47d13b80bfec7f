import Linewise.Proofs.Action

/-!
# Comments in text literals

The command `string` reads its parameters up to a comment. It goes over them from the left, and a backslash
makes it pass over the byte that follows. Whether a semicolon is passed over can also be told without
reading from the start: it begins a comment exactly if the number of backslashes right before it is even
(`Text.StartsComment`). The reading keeps this: it only ever stands where that number is even
(`Text.uncommented_append`).
-/

namespace Linewise

namespace Text

/-- How many backslashes stand at the end of a text. -/
def trailingBackslashes (s : Text) : Nat := (s.reverse.takeWhile (· = 92)).length

/-- A semicolon with an even number of backslashes right before it. -/
def StartsComment (s : Text) (i : Nat) : Prop :=
  s[i]? = some 59 ∧ trailingBackslashes (s.take i) % 2 = 0

/-- What comes before the first comment of a text: all of the text if it has none. -/
inductive Uncommented (s : Text) : Text → Prop
  | whole (h : ∀ i, ¬ s.StartsComment i) : Uncommented s s
  | before {i : Nat} (h : s.StartsComment i) (hfirst : ∀ j < i, ¬ s.StartsComment j) :
      Uncommented s (s.take i)

@[simp] theorem trailingBackslashes_backslash (s : Text) :
    trailingBackslashes (s ++ [92]) = trailingBackslashes s + 1 := by
  simp [trailingBackslashes]

theorem trailingBackslashes_other (s : Text) {b : UInt8} (hb : b ≠ 92) :
    trailingBackslashes (s ++ [b]) = 0 := by
  simp [trailingBackslashes, hb]

/-- No comment starts in the part of a text that has been seen, whose length is given. -/
def UncommentedTo (s : Text) (seen : Nat) : Prop := ∀ i < seen, ¬ s.StartsComment i

section

variable {seen rest : Text} {b : UInt8}

/-- Whether a comment starts at a byte is told by that byte and those before it. -/
theorem startsComment_iff :
    StartsComment (seen ++ b :: rest) seen.length ↔ b = 59 ∧ trailingBackslashes seen % 2 = 0 := by
  simp [StartsComment]

/-- One more byte is seen, at which no comment starts. -/
theorem UncommentedTo.next (h : UncommentedTo (seen ++ b :: rest) seen.length)
    (hb : b ≠ 59 ∨ trailingBackslashes seen % 2 = 1) :
    UncommentedTo ((seen ++ [b]) ++ rest) (seen ++ [b]).length := by
  intro i hi
  rw [List.append_assoc, List.singleton_append]
  rw [List.length_append, List.length_singleton] at hi
  rcases Nat.lt_succ_iff_lt_or_eq.mp hi with hlt | rfl
  · exact h i hlt
  · rw [startsComment_iff]
    rintro ⟨rfl, heven⟩
    rcases hb with hb | hb
    · exact hb rfl
    · omega

theorem UncommentedTo.whole (h : UncommentedTo seen seen.length) : Uncommented seen seen :=
  .whole fun i hstart => h i (List.getElem?_eq_some_iff.mp hstart.1).1 hstart

/-- The literal is read on from where an even number of backslashes has been passed, and gives the rest of
what comes before the first comment. -/
theorem uncommented_append (rest : Text) : ∀ seen : Text, trailingBackslashes seen % 2 = 0 →
    UncommentedTo (seen ++ rest) seen.length →
    Uncommented (seen ++ rest) (seen ++ Machine.uncommented rest) := by
  induction rest using Machine.uncommented.induct with
  | case1 =>
      intro seen _ hseen
      rw [List.append_nil] at hseen
      rw [Machine.uncommented, List.append_nil]
      exact hseen.whole
  | case2 b rest ih =>
      intro seen heven hseen
      have hodd : trailingBackslashes (seen ++ [92]) % 2 = 1 := by
        rw [trailingBackslashes_backslash]
        omega
      have hnext := (hseen.next (.inl (by decide))).next (.inr hodd)
      have hparity : trailingBackslashes ((seen ++ [92]) ++ [b]) % 2 = 0 := by
        by_cases hb : b = 92
        · rw [hb, trailingBackslashes_backslash]
          omega
        · rw [trailingBackslashes_other _ hb]
      have hcut := ih _ hparity hnext
      simpa [Machine.uncommented] using hcut
  | case3 rest hescape =>
      intro seen heven hseen
      have hcut : Uncommented (seen ++ 59 :: rest) ((seen ++ 59 :: rest).take seen.length) :=
        .before (startsComment_iff.mpr ⟨rfl, heven⟩) hseen
      rw [List.take_left] at hcut
      simpa [Machine.uncommented] using hcut
  | case4 b rest hescape hb ih =>
      intro seen heven hseen
      have hnext := hseen.next (.inl hb)
      rw [Machine.uncommented, if_neg hb]
      · by_cases hslash : b = 92
        · -- a backslash that nothing follows is the end
          have hrest : rest = [] := by
            cases rest with
            | nil => rfl
            | cons c rest => exact (hescape c rest hslash rfl).elim
          subst hrest
          rw [List.append_nil] at hnext
          exact hnext.whole
        · have hcut := ih _ (by rw [trailingBackslashes_other _ hslash]) hnext
          simpa using hcut
      · exact hescape

end

end Text

namespace Machine

/-- The text literal is what comes before the first comment of the parameters, one space between each two
of them. -/
theorem string_uncommented (self : Dispatch) (params : List Text) (m : Machine) :
    ∃ s, (perform self .string params).result m = .ok (.text s) ∧
      Text.Uncommented ([32].intercalate params) s := by
  refine ⟨uncommented (Text.join [32] params), rfl, ?_⟩
  rw [← Text.join_eq_intercalate]
  exact Text.uncommented_append (Text.join [32] params) [] rfl fun i hi => absurd hi (Nat.not_lt_zero i)

/-- One backslash escapes a semicolon, two escape each other. -/
example : uncommented (Text.ofString "a\\;b\\\\;c") = Text.ofString "a\\;b\\\\" := by decide

end Machine

end Linewise
