import Linewise.Forwarding
import Linewise.Proofs.Utf8

/-!
# Forwarding the parameters of a method

A parameter list is written as names and types, names that share a type, and perhaps an ellipsis before the
last type, with white space between them. The arguments that forward it are the names, the variadic one with
an ellipsis. They are read off the pieces between the commas: the first word of a piece, and whether the
second begins with an ellipsis. A piece is a parameter as long as no type has a comma of its own, and its
first word is a name as long as white space follows the name; so these are the lists that are forwarded
(`arguments_eq_iff`).
-/

namespace Linewise

/-! ## Pieces and words -/

namespace Text

theorem splitOn_eq (b : UInt8) (s : Text) : splitOn b s = List.splitOn b s := by
  induction s with
  | nil => rfl
  | cons c rest ih =>
      obtain ⟨piece, pieces, hpieces⟩ := List.exists_cons_of_ne_nil (List.splitOn_ne_nil b rest)
      rw [splitOn, ih, List.splitOn_cons_eq_if_modifyHead, hpieces]
      simp only [beq_iff_eq, List.modifyHead_cons]

/-- What joins the pieces is split off again, and so is each piece. -/
theorem splitOn_intercalate_eq_flatMap {b : UInt8} {parts : List Text} (h : parts ≠ []) :
    List.splitOn b ([b].intercalate parts) = parts.flatMap (List.splitOn b) := by
  induction parts with
  | nil => exact absurd rfl h
  | cons part rest ih =>
      cases rest with
      | nil => simp
      | cons next rest =>
          rw [List.intercalate_cons_cons, List.append_assoc, List.singleton_append,
            List.splitOn_append_cons_self, ih (List.cons_ne_nil _ _)]
          rfl

theorem one_lt_length_splitOn {b : UInt8} {s : Text} (h : b ∈ s) : 1 < (List.splitOn b s).length := by
  obtain ⟨front, back, rfl⟩ := List.append_of_mem h
  have hfront := List.length_pos_iff.mpr (List.splitOn_ne_nil b front)
  have hback := List.length_pos_iff.mpr (List.splitOn_ne_nil b back)
  rw [List.splitOn_append_cons_self, List.length_append]
  omega

theorem not_mem_of_mem_splitOn {b : UInt8} {s piece : Text} (h : piece ∈ List.splitOn b s) : b ∉ piece := by
  induction s generalizing piece with
  | nil =>
      rw [List.mem_singleton.mp h]
      exact List.not_mem_nil
  | cons c s ih =>
      obtain ⟨first, rest, hpieces⟩ := List.exists_cons_of_ne_nil (List.splitOn_ne_nil b s)
      rw [List.splitOn_cons_eq_if_modifyHead, hpieces] at h
      rw [hpieces] at ih
      split at h
      · rcases List.mem_cons.mp h with rfl | hrest
        · exact List.not_mem_nil
        · exact ih hrest
      · rename_i hc
        rcases List.mem_cons.mp h with rfl | hrest
        · intro hmem
          rcases List.mem_cons.mp hmem with rfl | hmem
          · exact hc (beq_self_eq_true b)
          · exact ih List.mem_cons_self hmem
        · exact ih (List.mem_cons_of_mem _ hrest)

section

variable {b : UInt8} {parts : List Text}

theorem length_le_length_pieces (b : UInt8) (parts : List Text) :
    parts.length ≤ (parts.flatMap (List.splitOn b)).length := by
  induction parts with
  | nil => exact Nat.zero_le _
  | cons part parts ih =>
      have hpart := List.length_pos_iff.mpr (List.splitOn_ne_nil b part)
      rw [List.flatMap_cons, List.length_append, List.length_cons]
      omega

/-- If there are no more pieces than parts, no part has been split. -/
theorem not_mem_of_length_pieces (h : (parts.flatMap (List.splitOn b)).length ≤ parts.length) :
    ∀ part ∈ parts, b ∉ part := by
  induction parts with
  | nil => exact fun _ => nofun
  | cons part parts ih =>
      have hpart := List.length_pos_iff.mpr (List.splitOn_ne_nil b part)
      have hparts := length_le_length_pieces b parts
      rw [List.flatMap_cons, List.length_append, List.length_cons] at h
      refine List.forall_mem_cons.mpr ⟨fun hmem => ?_, ih (by omega)⟩
      have hsplit := one_lt_length_splitOn hmem
      omega

theorem pieces_of_not_mem (h : ∀ part ∈ parts, b ∉ part) : parts.flatMap (List.splitOn b) = parts := by
  induction parts with
  | nil => rfl
  | cons part parts ih =>
      obtain ⟨hpart, hparts⟩ := List.forall_mem_cons.mp h
      rw [List.flatMap_cons, List.splitOn_eq_singleton hpart, ih hparts, List.singleton_append]

end

/-- The texts of a list with commas and blanks between them, as the pieces between the commas. -/
theorem splitOn_listed {first : Text} {rest : List Text} (h : ∀ s ∈ first :: rest, 44 ∉ s) :
    List.splitOn 44 (List.intercalate [44, 32] (first :: rest)) = first :: rest.map (32 :: ·) := by
  have hblank : List.intercalate [44, 32] (first :: rest)
      = List.intercalate [44] (first :: rest.map (32 :: ·)) := by
    clear h
    induction rest generalizing first with
    | nil => rfl
    | cons next rest ih =>
        rw [List.intercalate_cons_cons, ih, List.map_cons, List.intercalate_cons_cons,
          List.intercalate_cons_cons_left]
        simp
  rw [hblank]
  refine List.splitOn_intercalate 44 ?_ (List.cons_ne_nil _ _)
  obtain ⟨hfirst, hrest⟩ := List.forall_mem_cons.mp h
  refine List.forall_mem_cons.mpr ⟨hfirst, List.forall_mem_map.mpr fun s hs hmem => ?_⟩
  rcases List.mem_cons.mp hmem with hcomma | hmem
  · cases hcomma
  · exact hrest s hs hmem

/-- Texts without commas can be told apart after they have been listed. -/
theorem listed_inj {first first' : Text} {rest rest' : List Text} (h : ∀ s ∈ first :: rest, 44 ∉ s)
    (h' : ∀ s ∈ first' :: rest', 44 ∉ s)
    (heq : List.intercalate [44, 32] (first :: rest) = List.intercalate [44, 32] (first' :: rest')) :
    first :: rest = first' :: rest' := by
  have hpieces := congrArg (List.splitOn 44) heq
  rw [splitOn_listed h, splitOn_listed h'] at hpieces
  obtain ⟨hfirst, hrest⟩ := List.cons.inj hpieces
  rw [hfirst, (List.map_inj_right fun _ _ hs => (List.cons.inj hs).2).mp hrest]

theorem splitBlanks_append {vs : List Rune} (h : ∀ r ∈ vs, r.isBlank = false) (rs : List Rune) :
    splitBlanks (vs ++ rs) = (splitBlanks rs).modifyHead (ofRunes vs ++ ·) := by
  obtain ⟨piece, pieces, hpieces⟩ := List.exists_cons_of_ne_nil (splitBlanks_ne_nil rs)
  induction vs with
  | nil =>
      rw [hpieces]
      exact hpieces
  | cons r vs ih =>
      obtain ⟨hr, hvs⟩ := List.forall_mem_cons.mp h
      rw [List.cons_append, splitBlanks, ih hvs, hpieces, hr, if_neg Bool.false_ne_true]
      simp [ofRunes]

theorem mem_of_mem_splitBlanks {rs : List Rune} {piece : Text} {b : UInt8} (hpiece : piece ∈ splitBlanks rs)
    (hb : b ∈ piece) : b ∈ ofRunes rs := by
  induction rs generalizing piece with
  | nil =>
      rw [List.mem_singleton.mp hpiece] at hb
      cases hb
  | cons r rs ih =>
      obtain ⟨first, rest, hpieces⟩ := List.exists_cons_of_ne_nil (splitBlanks_ne_nil rs)
      have hrunes : ofRunes (r :: rs) = r.bytes ++ ofRunes rs := List.flatMap_cons
      rw [hrunes]
      rw [splitBlanks] at hpiece
      split at hpiece
      · rcases List.mem_cons.mp hpiece with rfl | hpiece
        · cases hb
        · exact List.mem_append_right _ (ih hpiece hb)
      · rw [hpieces] at hpiece ih
        rcases List.mem_cons.mp hpiece with rfl | hpiece
        · rcases List.mem_append.mp hb with hb | hb
          · exact List.mem_append_left _ hb
          · exact List.mem_append_right _ (ih List.mem_cons_self hb)
        · exact List.mem_append_right _ (ih (List.mem_cons_of_mem _ hpiece) hb)

/-- The bytes of a word are bytes of the text. -/
theorem mem_of_mem_words {s w : Text} {b : UInt8} (hw : w ∈ words s) (hb : b ∈ w) : b ∈ s := by
  have hmem : b ∈ ofRunes s.runes := mem_of_mem_splitBlanks (List.mem_filter.mp hw).1 hb
  rwa [flatten_runes] at hmem

theorem runes_ofChars_append (cs : List Char) (s : Text) :
    runes (ofChars cs ++ s) = cs.map Rune.ofChar ++ runes s := by
  induction cs with
  | nil => rfl
  | cons c cs ih =>
      rw [ofChars, List.flatMap_cons, List.append_assoc, runes_encode_append, List.map_cons, List.cons_append]
      exact congrArg _ ih

theorem comma_mem_ofChars {cs : List Char} : 44 ∈ ofChars cs ↔ ',' ∈ cs := by
  constructor
  · intro h
    obtain ⟨front, back, hsplit⟩ := List.append_of_mem h
    have hchars : chars (ofChars cs) = chars front ++ ',' :: chars back := by
      rw [hsplit, chars, runes_append_ascii (by decide), runes_cons_ascii (by decide), List.map_append]
      rfl
    rw [chars_ofChars] at hchars
    rw [hchars]
    exact List.mem_append_right _ List.mem_cons_self
  · intro h
    exact List.mem_flatMap.mpr ⟨',', h, by decide⟩

/-- Texts of characters begin with one another as the characters do. -/
theorem isPrefixOf_ofChars (cs ds : List Char) :
    (ofChars cs).isPrefixOf (ofChars ds) = cs.isPrefixOf ds := by
  rw [Bool.eq_iff_iff, List.isPrefixOf_iff_prefix, List.isPrefixOf_iff_prefix]
  constructor
  · rintro ⟨rest, hrest⟩
    have hchars := congrArg chars hrest
    rw [chars_ofChars, chars, runes_ofChars_append, List.map_append, ← runes_ofChars, ← chars,
      chars_ofChars] at hchars
    exact ⟨_, hchars⟩
  · rintro ⟨rest, rfl⟩
    exact ⟨ofChars rest, List.flatMap_append.symm⟩

end Text

namespace Forwarding

open Text

/-! ## The argument for one parameter -/

/-- A blank among characters. -/
def isBlank (c : Char) : Bool := (Rune.ofChar c).isBlank

/-- A character of a word. -/
def isVisible (c : Char) : Bool := !isBlank c

theorem words_ofChars_blanks {blanks : List Char} (h : ∀ c ∈ blanks, isBlank c = true) (cs : List Char) :
    words (ofChars (blanks ++ cs)) = words (ofChars cs) := by
  induction blanks with
  | nil => rfl
  | cons c blanks ih =>
      obtain ⟨hc, hblanks⟩ := List.forall_mem_cons.mp h
      have hpieces : splitBlanks ((c :: (blanks ++ cs)).map Rune.ofChar)
          = [] :: splitBlanks ((blanks ++ cs).map Rune.ofChar) := if_pos hc
      rw [← ih hblanks, words, words, runes_ofChars, runes_ofChars, List.cons_append, hpieces]
      rfl

theorem words_dropWhile_isBlank (cs : List Char) :
    words (ofChars (cs.dropWhile isBlank)) = words (ofChars cs) := by
  have hblank : ∀ c ∈ cs.takeWhile isBlank, isBlank c = true := List.all_eq_true.mp List.all_takeWhile
  rw [← words_ofChars_blanks hblank, List.takeWhile_append_dropWhile]

/-- Behind a word there is a blank, or nothing. -/
theorem exists_splitBlanks_dropWhile (cs : List Char) :
    ∃ pieces, splitBlanks ((cs.dropWhile isVisible).map Rune.ofChar) = [] :: pieces := by
  have hhead := List.head?_dropWhile_not isVisible cs
  cases hrest : cs.dropWhile isVisible with
  | nil => exact ⟨[], rfl⟩
  | cons d ds =>
      rw [hrest] at hhead
      have hblank : (Rune.ofChar d).isBlank = true := by simpa [isVisible, isBlank] using hhead
      exact ⟨_, if_pos hblank⟩

/-- A text that begins with a visible character begins with a word, up to the first blank. -/
theorem words_ofChars_visible {c : Char} (hc : isVisible c = true) (cs : List Char) :
    words (ofChars (c :: cs)) = ofChars ((c :: cs).takeWhile isVisible)
      :: words (ofChars ((c :: cs).dropWhile isVisible)) := by
  have hvisible : ∀ r ∈ ((c :: cs).takeWhile isVisible).map Rune.ofChar, r.isBlank = false := by
    refine List.forall_mem_map.mpr fun d hd => ?_
    simpa [isVisible, isBlank] using List.all_eq_true.mp List.all_takeWhile d hd
  have hword : ofRunes (((c :: cs).takeWhile isVisible).map Rune.ofChar)
      = ofChars ((c :: cs).takeWhile isVisible) := List.flatMap_map _ _ _
  have hnonempty : (ofChars ((c :: cs).takeWhile isVisible)).isEmpty = false := by
    rw [List.takeWhile_cons, if_pos hc, ofChars, List.flatMap_cons]
    simp [Rune.encode]
  obtain ⟨pieces, hpieces⟩ := exists_splitBlanks_dropWhile (c :: cs)
  have hsplit : splitBlanks ((c :: cs).map Rune.ofChar)
      = ofChars ((c :: cs).takeWhile isVisible) :: pieces := by
    rw [← List.takeWhile_append_dropWhile (p := isVisible) (l := c :: cs), List.map_append,
      splitBlanks_append hvisible, hpieces, hword]
    simp
  rw [words, words, runes_ofChars, runes_ofChars, hsplit, hpieces, List.filter_cons_of_pos (by simp [hnonempty])]
  rfl

/-- What stands before a variadic type. -/
def ellipsis : List Char := ['.', '.', '.']

theorem isVisible_ellipsis : ∀ c ∈ ellipsis, isVisible c = true := List.all_eq_true.mp rfl

/-- An ellipsis, if the text begins with one after blanks. -/
def mark (cs : List Char) : List Char :=
  if ellipsis.isPrefixOf (cs.dropWhile isBlank) then ellipsis else []

theorem isPrefixOf_takeWhile_isVisible (cs : List Char) :
    ellipsis.isPrefixOf (cs.takeWhile isVisible) = ellipsis.isPrefixOf cs := by
  rw [Bool.eq_iff_iff, List.isPrefixOf_iff_prefix, List.isPrefixOf_iff_prefix]
  refine ⟨fun h => h.trans (List.takeWhile_prefix _), ?_⟩
  rintro ⟨rest, rfl⟩
  rw [List.takeWhile_append_of_pos isVisible_ellipsis]
  exact List.prefix_append _ _

/-- What is taken of a text: the word at its front, with an ellipsis if the next word begins with one. -/
def taken (cs : List Char) : List Char := cs.takeWhile isVisible ++ mark (cs.dropWhile isVisible)

theorem taken_append {word : List Char} (h : ∀ c ∈ word, isVisible c = true) (cs : List Char) :
    taken (word ++ cs) = word ++ taken cs := by
  rw [taken, taken, List.takeWhile_append_of_pos h, List.dropWhile_append_of_pos h, List.append_assoc]

/-- The argument for a part is what is taken of it from its first visible character on. -/
theorem argument_ofChars {blanks : List Char} (hblanks : ∀ c ∈ blanks, isBlank c = true) {c : Char}
    (hc : isVisible c = true) (cs : List Char) :
    argument (ofChars (blanks ++ c :: cs)) = .ok (ofChars (taken (c :: cs))) := by
  rw [taken]
  generalize hword : (c :: cs).takeWhile isVisible = word
  generalize hrest : (c :: cs).dropWhile isVisible = rest
  have hwords : words (ofChars (blanks ++ c :: cs)) = ofChars word :: words (ofChars (rest.dropWhile isBlank)) := by
    rw [words_ofChars_blanks hblanks, words_ofChars_visible hc, hword, hrest, words_dropWhile_isBlank]
  have hellipsis : Text.ofString "..." = ofChars ellipsis := by decide
  have hhead := List.head?_dropWhile_not isBlank rest
  rw [argument, hwords, mark]
  cases hsecond : rest.dropWhile isBlank with
  | nil =>
      rw [if_neg (by decide), List.append_nil]
      rfl
  | cons d ds =>
      rw [hsecond] at hhead
      have hd : isVisible d = true := by simpa [isVisible] using hhead
      rw [words_ofChars_visible hd]
      dsimp only
      rw [hellipsis, isPrefixOf_ofChars, isPrefixOf_takeWhile_isVisible]
      split
      · rw [ofChars, ofChars, ofChars, List.flatMap_append]
      · rw [List.append_nil]

/-! ## Parameter lists as they are written -/

/-- White space. -/
structure Space where
  chars : List Char
  blank : ∀ c ∈ chars, isBlank c = true

def Space.none : Space := ⟨[], nofun⟩

def Space.single : Space := ⟨[' '], List.forall_mem_singleton.mpr rfl⟩

/-- A name: a word without commas. -/
structure Name where
  chars : List Char
  nonempty : chars ≠ []
  visible : ∀ c ∈ chars, isVisible c = true
  commaless : ',' ∉ chars

/-- The text of a type, with the white space behind it. There may be words, brackets and commas in it. -/
structure TypeText where
  first : Char
  rest : List Char
  visible : isVisible first = true
  single : ¬ ellipsis <+: first :: rest

/-- What follows the name of a parameter. -/
inductive Typing where
  /-- Nothing, since the type is that of the next parameter. -/
  | shared (space : Space)
  /-- A type. That of a variadic parameter stands behind an ellipsis and more white space. -/
  | own (space : Space) (variadic : Option Space) (type : TypeText)

/-- A parameter as it is written between two commas. -/
structure Parameter where
  before : Space
  name : Name
  typing : Typing

/-- A parameter list as it is written. A comma may stand behind the last parameter. -/
structure ParameterList where
  first : Parameter
  rest : List Parameter
  trailing : Option Space

def TypeText.chars (t : TypeText) : List Char := t.first :: t.rest

namespace Typing

def chars : Typing → List Char
  | shared space => space.chars
  | own space none type => space.chars ++ type.chars
  | own space (some after) type => space.chars ++ ellipsis ++ after.chars ++ type.chars

/-- The ellipsis of a variadic parameter. -/
def ellipsis : Typing → List Char
  | own _ (some _) _ => Forwarding.ellipsis
  | _ => []

/-- White space stands between the name and the type, or between the ellipsis and the type. -/
def Spaced : Typing → Prop
  | shared _ => True
  | own space none _ => space.chars ≠ []
  | own space (some after) _ => space.chars ≠ [] ∨ after.chars ≠ []

end Typing

namespace Parameter

def text (p : Parameter) : Text := ofChars (p.before.chars ++ p.name.chars ++ p.typing.chars)

/-- The argument that passes a parameter on. -/
def passed (p : Parameter) : Text := ofChars (p.name.chars ++ p.typing.ellipsis)

/-- A parameter whose type has no comma and is set off by white space. -/
structure Plain (p : Parameter) : Prop where
  commaless : ',' ∉ p.typing.chars
  spaced : p.typing.Spaced

end Parameter

namespace ParameterList

def parameters (l : ParameterList) : List Parameter := l.first :: l.rest

/-- What stands between the commas of the list itself. -/
def parts (l : ParameterList) : List Text :=
  l.parameters.map Parameter.text ++ l.trailing.toList.map fun space => ofChars space.chars

def text (l : ParameterList) : Text := List.intercalate [44] l.parts

/-- The names of the parameters in their order, with an ellipsis behind a variadic one. -/
def passed (l : ParameterList) : Text := List.intercalate [44, 32] (l.parameters.map Parameter.passed)

/-- A list of plain parameters without a comma behind the last. -/
structure Plain (l : ParameterList) : Prop where
  ended : l.trailing = none
  plain : ∀ p ∈ l.parameters, p.Plain

end ParameterList

/-! ## What is forwarded -/

theorem ofChars_inj {cs ds : List Char} : ofChars cs = ofChars ds ↔ cs = ds :=
  ⟨fun h => by rw [← chars_ofChars cs, h, chars_ofChars], congrArg _⟩

theorem mark_space_append (space : Space) (cs : List Char) : mark (space.chars ++ cs) = mark cs := by
  rw [mark, mark, List.dropWhile_append_of_pos space.blank]

theorem mark_type (t : TypeText) : mark t.chars = [] := by
  have hfirst : isBlank t.first = false := by simpa [isVisible] using t.visible
  rw [mark, TypeText.chars, List.dropWhile_cons_of_neg (by simp [hfirst])]
  exact if_neg (mt List.isPrefixOf_iff_prefix.mp t.single)

/-- Behind white space no more of the word is taken. -/
theorem taken_space_append {space : Space} (h : space.chars ≠ []) (cs : List Char) :
    taken (space.chars ++ cs) = mark cs := by
  obtain ⟨c, rest, hspace⟩ := List.exists_cons_of_ne_nil h
  have hc : ¬ isVisible c = true := by
    have hblank : isBlank c = true := space.blank c (by simp [hspace])
    simp [isVisible, hblank]
  rw [← mark_space_append space cs, taken, hspace, List.cons_append, List.takeWhile_cons_of_neg hc,
    List.dropWhile_cons_of_neg hc, List.nil_append]

/-- Nothing is taken of a type exactly if white space stands before it. -/
theorem taken_type_eq_nil_iff (space : Space) (t : TypeText) :
    taken (space.chars ++ t.chars) = [] ↔ space.chars ≠ [] := by
  constructor
  · intro htaken hspace
    rw [hspace, List.nil_append, TypeText.chars, taken, List.takeWhile_cons_of_pos t.visible] at htaken
    cases htaken
  · intro hspace
    rw [taken_space_append hspace, mark_type]

/-- What is taken behind a name is the ellipsis, if there is one, exactly for types that white space sets
off. -/
theorem taken_typing_iff (t : Typing) : taken t.chars = t.ellipsis ↔ t.Spaced := by
  have hmark : ∀ cs, mark (ellipsis ++ cs) = ellipsis := fun cs => rfl
  cases t with
  | shared space =>
      refine iff_of_true ?_ trivial
      by_cases hspace : space.chars = []
      · rw [Typing.chars, hspace]
        rfl
      · rw [Typing.chars, ← List.append_nil space.chars, taken_space_append hspace]
        rfl
  | own space variadic type =>
      cases variadic with
      | none => exact taken_type_eq_nil_iff space type
      | some after =>
          rw [Typing.chars, Typing.ellipsis, Typing.Spaced, List.append_assoc, List.append_assoc]
          by_cases hspace : space.chars = []
          · rw [hspace, List.nil_append, taken_append isVisible_ellipsis, List.append_right_eq_self,
              taken_type_eq_nil_iff]
            simp
          · rw [taken_space_append hspace, hmark]
            exact iff_of_true rfl (.inl hspace)

/-- The argument for a parameter is the name that passes it on exactly if white space sets its type off. -/
theorem argument_text_iff (p : Parameter) : argument p.text = .ok p.passed ↔ p.typing.Spaced := by
  obtain ⟨c, rest, hname⟩ := List.exists_cons_of_ne_nil p.name.nonempty
  have htext : p.text = ofChars (p.before.chars ++ c :: (rest ++ p.typing.chars)) := by
    rw [Parameter.text, hname, List.append_assoc, List.cons_append]
  rw [htext, argument_ofChars p.before.blank (p.name.visible c (by simp [hname])), ← List.cons_append, ← hname,
    taken_append p.name.visible, Parameter.passed, Except.ok.injEq, ofChars_inj, List.append_right_inj,
    taken_typing_iff]

/-- The commas of a part are those of its type. -/
theorem comma_mem_text (p : Parameter) : 44 ∈ p.text ↔ ',' ∈ p.typing.chars := by
  have hbefore : ',' ∉ p.before.chars := fun h => Bool.false_ne_true (p.before.blank ',' h)
  rw [Parameter.text, comma_mem_ofChars, List.mem_append, List.mem_append]
  simp [hbefore, p.name.commaless]

theorem comma_not_mem_passed (p : Parameter) : 44 ∉ p.passed := by
  have hellipsis : ',' ∉ p.typing.ellipsis := by
    unfold Typing.ellipsis
    split <;> decide
  rw [Parameter.passed, comma_mem_ofChars, List.mem_append]
  simp [hellipsis, p.name.commaless]

theorem comma_not_mem_argument {part out : Text} (h : argument part = .ok out) (hpart : 44 ∉ part) :
    44 ∉ out := by
  have hword : ∀ w ∈ words part, 44 ∉ w := fun w hw hmem => hpart (mem_of_mem_words hw hmem)
  rw [argument] at h
  split at h
  · cases h
  · rename_i hwords
    cases h
    exact hword _ (by simp [hwords])
  · rename_i name type rest hwords
    have hname := hword name (by simp [hwords])
    have hellipsis : 44 ∉ Text.ofString "..." := by decide
    cases h
    split
    · exact fun hmem => (List.mem_append.mp hmem).elim hname hellipsis
    · exact hname

/-- The arguments are found if there is one for each part. -/
theorem mapM_argument_eq_ok_iff {parts outs : List Text} :
    parts.mapM argument = .ok outs ↔ parts.map argument = outs.map .ok := by
  induction parts generalizing outs with
  | nil =>
      rw [List.mapM_nil, List.map_nil, List.nil_eq, List.map_eq_nil_iff]
      exact ⟨fun h => (Except.ok.inj h).symm, fun h => h ▸ rfl⟩
  | cons part parts ih =>
      have hcons : (part :: parts).mapM argument = .ok outs ↔
          ∃ out later, argument part = .ok out ∧ parts.mapM argument = .ok later ∧ outs = out :: later := by
        rw [List.mapM_cons]
        cases argument part with
        | error e => simp [bind, Except.bind]
        | ok out =>
            cases parts.mapM argument with
            | error e => simp [bind, Except.bind]
            | ok later => simp [bind, Except.bind, pure, Except.pure, eq_comm]
      rw [hcons, List.map_cons]
      constructor
      · rintro ⟨out, later, hpart, hparts, rfl⟩
        rw [hpart, ih.mp hparts, List.map_cons]
      · intro h
        obtain ⟨out, later, rfl, hpart, hparts⟩ := List.map_eq_cons_iff.mp h.symm
        exact ⟨out, later, hpart.symm, ih.mpr hparts.symm, rfl⟩

theorem arguments_eq_ok_iff {parameters listed : Text} : arguments parameters = .ok listed ↔
    ∃ outs : List Text, (List.splitOn 44 parameters).map argument = outs.map .ok ∧
      List.intercalate [44, 32] outs = listed := by
  have hseparator : Text.ofString ", " = [44, 32] := by decide
  simp only [← mapM_argument_eq_ok_iff, arguments, Text.splitOn_eq, hseparator, join_eq_intercalate]
  cases (List.splitOn 44 parameters).mapM argument with
  | error e => simp [bind, Except.bind]
  | ok outs => simp [bind, Except.bind, pure, Except.pure]

/-- The arguments that are found have no commas, since the pieces of the list have none. -/
theorem comma_not_mem_found {parameters : Text} {outs : List Text}
    (h : (List.splitOn 44 parameters).map argument = outs.map .ok) : ∀ out ∈ outs, 44 ∉ out := by
  intro out hout
  have hmem : Except.ok out ∈ (List.splitOn 44 parameters).map argument := h ▸ List.mem_map_of_mem hout
  obtain ⟨piece, hpiece, hargument⟩ := List.mem_map.mp hmem
  exact comma_not_mem_argument hargument (not_mem_of_mem_splitOn hpiece)

namespace ParameterList

theorem parts_of_ended {l : ParameterList} (h : l.trailing = none) : l.parts = l.parameters.map Parameter.text := by
  simp [parts, h]

theorem length_parts (l : ParameterList) :
    l.parts.length = l.parameters.length + l.trailing.toList.length := by
  simp [parts]

theorem pieces (l : ParameterList) : List.splitOn 44 l.text = l.parts.flatMap (List.splitOn 44) :=
  splitOn_intercalate_eq_flatMap (List.cons_ne_nil _ _)

/-- If what is found reads as the names of the parameters, it is the names of the parameters. -/
theorem found_eq_passed {l : ParameterList} {outs : List Text}
    (h : (List.splitOn 44 l.text).map argument = outs.map .ok)
    (hlisted : List.intercalate [44, 32] outs = l.passed) : outs = l.parameters.map Parameter.passed := by
  have hne : outs ≠ [] := by
    rintro rfl
    exact List.splitOn_ne_nil 44 l.text (List.map_eq_nil_iff.mp h)
  have hpassed : ∀ name ∈ l.parameters.map Parameter.passed, 44 ∉ name := by
    simp [comma_not_mem_passed]
  obtain ⟨out, rest, rfl⟩ := List.exists_cons_of_ne_nil hne
  exact listed_inj (comma_not_mem_found h) hpassed hlisted

end ParameterList

/-- The arguments for a parameter list are the names of its parameters, in their order and each once, with a
comma and a blank between them and an ellipsis behind a variadic one, exactly if no type has a comma of its
own, white space sets every type off, and no comma stands behind the last parameter. -/
theorem arguments_eq_iff (l : ParameterList) : arguments l.text = .ok l.passed ↔ l.Plain := by
  rw [arguments_eq_ok_iff]
  constructor
  · rintro ⟨outs, houts, hlisted⟩
    rw [l.found_eq_passed houts hlisted, l.pieces] at houts
    -- there are as many pieces as parameters, so no comma splits a part and none ends the list
    have hcount : (l.parts.flatMap (List.splitOn 44)).length = l.parameters.length := by
      simpa using congrArg List.length houts
    have hparts := length_le_length_pieces 44 l.parts
    have hlength := l.length_parts
    have hended : l.trailing = none := by
      rw [← Option.toList_eq_nil_iff, ← List.length_eq_zero_iff]
      omega
    have hcommaless : ∀ part ∈ l.parts, 44 ∉ part := not_mem_of_length_pieces (by omega)
    rw [pieces_of_not_mem hcommaless, l.parts_of_ended hended, List.map_map, List.map_map,
      List.map_inj_left] at houts
    rw [l.parts_of_ended hended, List.forall_mem_map] at hcommaless
    refine ⟨hended, fun p hp => ⟨?_, (argument_text_iff p).mp (houts p hp)⟩⟩
    exact mt (comma_mem_text p).mpr (hcommaless p hp)
  · rintro ⟨hended, hplain⟩
    have hcommaless : ∀ part ∈ l.parts, 44 ∉ part := by
      rw [l.parts_of_ended hended]
      exact List.forall_mem_map.mpr fun p hp => mt (comma_mem_text p).mp (hplain p hp).commaless
    refine ⟨l.parameters.map Parameter.passed, ?_, rfl⟩
    rw [l.pieces, pieces_of_not_mem hcommaless, l.parts_of_ended hended, List.map_map, List.map_map]
    exact List.map_congr_left fun p hp => (argument_text_iff p).mpr (hplain p hp).spaced

/-- A callback and a name: `cb func(int, string) error, name string`. -/
def callback : ParameterList where
  first := ⟨.none, ⟨"cb".toList, nofun, List.all_eq_true.mp rfl, by decide⟩,
    .own .single none ⟨'f', "unc(int, string) error".toList, rfl, by decide⟩⟩
  rest := [⟨.single, ⟨"name".toList, nofun, List.all_eq_true.mp rfl, by decide⟩,
    .own .single none ⟨'s', "tring".toList, rfl, by decide⟩⟩]
  trailing := none

/-- The comma in the type of the callback makes a third argument of the rest of that type. -/
theorem callback_not_passed : callback.text = Text.ofString "cb func(int, string) error, name string" ∧
    callback.passed = Text.ofString "cb, name" ∧
    arguments callback.text = .ok (Text.ofString "cb, string), name") ∧
    ¬ ∀ l : ParameterList, arguments l.text = .ok l.passed := by
  have hpassed : callback.passed = Text.ofString "cb, name" := by decide +kernel
  have hfound : arguments callback.text = .ok (Text.ofString "cb, string), name") := by rfl
  refine ⟨by decide +kernel, hpassed, hfound, fun h => ?_⟩
  have heq := (hfound.symm.trans (h callback)).trans (congrArg Except.ok hpassed)
  exact absurd (Except.ok.inj heq) (by decide)

end Forwarding

end Linewise
