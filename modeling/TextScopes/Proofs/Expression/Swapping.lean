import TextScopes.Proofs.Expression.Filling

/-!
# Exchanging the two notations of references

A reference is a mark with a digit behind it, where the mark is not taken by a backslash
(`Notation.HasReference`): the mark is a backslash in the notation of expressions, and a
dollar in that of replacements. What a backslash takes is said by a scan that keeps one truth
value (`Notation.taken`), while `swapNotation` and `hasPlaceholder` each cut the text by
looking one character ahead.

`swapNotation` keeps the digits where they are and changes marks only, so that what it writes is cut
at the same places as what it reads. Hence it is its own inverse
(`Notation.swapNotation_swapNotation`), and it exchanges the two kinds of reference
(`Notation.hasPlaceholder_swapNotation`): no reference is lost or made by the text around it.
-/

namespace TextScopes.Notation

variable {c d mark : Char} {cs : List Char}

/-- Whether the character behind a text is taken by a backslash. A backslash takes the next
character unless it is taken itself. -/
def taken (before : List Char) : Bool :=
  before.foldl (fun taken c => !taken && c = '\\') false

/-- A text has a reference in the notation of `mark`: a mark that no backslash takes,
and a digit behind it. -/
def HasReference (mark : Char) (cs : List Char) : Prop :=
  ∃ before d after, cs = before ++ mark :: d :: after ∧ d.isDigit = true ∧
    taken before = false

/-- The first character of a text is a digit. -/
def StartsWithDigit (cs : List Char) : Prop := ∃ d ∈ cs.head?, d.isDigit = true

/-- A text with a character in front starts with a digit just when that is one. -/
theorem startsWithDigit_cons : StartsWithDigit (d :: cs) ↔ d.isDigit = true := by
  simp [StartsWithDigit]

/-! ### Where references are -/

/-- A character other than a backslash takes nothing. -/
theorem taken_plain (h : c ≠ '\\') (cs : List Char) : taken (c :: cs) = taken cs := by
  simp [taken, h]

/-- It takes two characters to make a reference. -/
theorem HasReference.two_le_length (h : HasReference mark cs) : 2 ≤ cs.length := by
  obtain ⟨before, d, after, rfl, -⟩ := h
  rw [List.length_append, List.length_cons, List.length_cons]
  omega

/-- A backslash makes a reference of the digit that it takes, and hides a mark that it takes. -/
theorem hasReference_escape_iff :
    HasReference mark ('\\' :: d :: cs) ↔
      (mark = '\\' ∧ d.isDigit = true) ∨ HasReference mark cs := by
  constructor
  · rintro ⟨before, e, after, heq, hdigit, htaken⟩
    -- The reference begins at the backslash, or behind the character that it takes.
    rcases before with _ | ⟨b, _ | ⟨b', before⟩⟩
    · obtain ⟨rfl, rfl, -⟩ : '\\' = mark ∧ d = e ∧ cs = after := by simpa using heq
      exact .inl ⟨rfl, hdigit⟩
    · obtain ⟨rfl, -⟩ : '\\' = b ∧ d :: cs = mark :: e :: after := by simpa using heq
      cases htaken
    · obtain ⟨rfl, rfl, rfl⟩ : '\\' = b ∧ d = b' ∧ cs = before ++ mark :: e :: after := by
        simpa using heq
      exact .inr ⟨before, e, after, rfl, hdigit, htaken⟩
  · rintro (⟨rfl, hdigit⟩ | ⟨before, e, after, rfl, hdigit, htaken⟩)
    · exact ⟨[], d, cs, rfl, hdigit, rfl⟩
    · exact ⟨'\\' :: d :: before, e, after, rfl, hdigit, htaken⟩

/-- A character other than a backslash begins a reference just when it is the mark of one. -/
theorem hasReference_plain_iff (h : c ≠ '\\') :
    HasReference mark (c :: cs) ↔ (c = mark ∧ StartsWithDigit cs) ∨ HasReference mark cs := by
  constructor
  · rintro ⟨before, d, after, heq, hdigit, htaken⟩
    -- The reference begins here, or behind this character.
    rcases before with _ | ⟨b, before⟩
    · obtain ⟨rfl, rfl⟩ : c = mark ∧ cs = d :: after := by simpa using heq
      exact .inl ⟨rfl, d, rfl, hdigit⟩
    · obtain ⟨rfl, rfl⟩ : c = b ∧ cs = before ++ mark :: d :: after := by simpa using heq
      rw [taken_plain h] at htaken
      exact .inr ⟨before, d, after, rfl, hdigit, htaken⟩
  · rintro (⟨rfl, d, hhead, hdigit⟩ | ⟨before, d, after, rfl, hdigit, htaken⟩)
    · obtain ⟨after, rfl⟩ := List.head?_eq_some_iff.1 hhead
      exact ⟨[], d, after, rfl, hdigit, rfl⟩
    · exact ⟨c :: before, d, after, rfl, hdigit, (taken_plain h before).trans htaken⟩

/-- A placeholder is a reference in the notation of expressions. -/
theorem hasPlaceholder_iff_hasReference : hasPlaceholder cs = true ↔ HasReference '\\' cs := by
  -- On the pieces as they are cut off.
  induction cs using pieces.induct with
  | case1 | case2 => exact iff_of_false (by decide) fun h => absurd h.two_le_length (by decide)
  | case3 c hplain =>
    rw [hasPlaceholder_plain hplain]
    exact iff_of_false (by decide) fun h => absurd h.two_le_length (by simp)
  | case4 d cs ih =>
    rw [hasPlaceholder_escape, hasReference_escape_iff, Bool.or_eq_true, ih]
    simp
  | case5 c d cs hplain ih =>
    rw [hasPlaceholder_plain hplain, hasReference_plain_iff hplain, ih]
    simp [hplain]

/-! ### What the exchange does -/

/-- A reference in the notation of expressions becomes one in that of replacements. -/
theorem swapNotation_escape_digit (h : d.isDigit = true) (cs : List Char) :
    swapNotation ('\\' :: d :: cs) = '$' :: d :: swapNotation cs := by
  rw [swapNotation, if_pos rfl, if_pos h]

/-- Any other character stays behind the backslash that takes it. -/
theorem swapNotation_escape_other (h : d.isDigit = false) (cs : List Char) :
    swapNotation ('\\' :: d :: cs) = '\\' :: d :: swapNotation cs := by
  rw [swapNotation, if_pos rfl, if_neg (by simp [h])]

/-- A reference in the notation of replacements becomes one in that of expressions. -/
theorem swapNotation_dollar_digit (h : d.isDigit = true) (cs : List Char) :
    swapNotation ('$' :: d :: cs) = '\\' :: d :: swapNotation cs := by
  rw [swapNotation, if_neg (by decide), if_pos ⟨rfl, h⟩]

/-- A character that begins neither a reference nor an escape stays. -/
theorem swapNotation_plain (h : c ≠ '\\') (hdollar : ¬ (c = '$' ∧ StartsWithDigit cs)) :
    swapNotation (c :: cs) = c :: swapNotation cs := by
  cases cs with
  | nil => rfl
  | cons d cs =>
    rw [startsWithDigit_cons] at hdollar
    rw [swapNotation, if_neg h, if_neg hdollar]

/-- An exchanged text begins with no digit where the text does not. -/
theorem startsWithDigit_of_swapNotation (h : StartsWithDigit (swapNotation cs)) :
    StartsWithDigit cs := by
  fun_cases swapNotation cs with
  | case1 | case2 => exact h
  | case3 d cs =>
    -- What is written first is a mark.
    rw [swapNotation, if_pos rfl, startsWithDigit_cons] at h
    split at h <;> exact absurd h (by decide)
  | case4 c d cs hplain hdollar =>
    rw [swapNotation, if_neg hplain, if_pos hdollar, startsWithDigit_cons] at h
    exact absurd h (by decide)
  | case5 c d cs hplain hdollar =>
    rw [swapNotation, if_neg hplain, if_neg hdollar, startsWithDigit_cons] at h
    exact startsWithDigit_cons.2 h

/-- Exchanging the notations twice gives the text back. -/
theorem swapNotation_swapNotation (cs : List Char) : swapNotation (swapNotation cs) = cs := by
  induction cs using swapNotation.induct with
  | case1 => rfl
  | case2 c => rfl
  | case3 d cs ih =>
    cases hdigit : d.isDigit with
    | true => rw [swapNotation_escape_digit hdigit, swapNotation_dollar_digit hdigit, ih]
    | false => rw [swapNotation_escape_other hdigit, swapNotation_escape_other hdigit, ih]
  | case4 c d cs hplain hdollar ih =>
    obtain ⟨rfl, hdigit⟩ := hdollar
    rw [swapNotation_dollar_digit hdigit, swapNotation_escape_digit hdigit, ih]
  | case5 c d cs hplain hdollar ih =>
    have hdollar : ¬ (c = '$' ∧ StartsWithDigit (d :: cs)) := by rwa [startsWithDigit_cons]
    -- The character stays what it is in the exchanged text, since no digit comes to stand behind
    -- it.
    have hdollar' : ¬ (c = '$' ∧ StartsWithDigit (swapNotation (d :: cs))) := fun h =>
      hdollar ⟨h.1, startsWithDigit_of_swapNotation h.2⟩
    rw [swapNotation_plain hplain hdollar, swapNotation_plain hplain hdollar', ih]

/-- An exchanged text has a placeholder just when the text has a reference in the notation of
replacements. -/
theorem hasPlaceholder_swapNotation :
    hasPlaceholder (swapNotation cs) = true ↔ HasReference '$' cs := by
  -- By the cases of the exchange: a backslash before a digit goes, a dollar before one gives it.
  induction cs using swapNotation.induct with
  | case1 | case2 =>
    rw [hasPlaceholder_iff_hasReference]
    exact iff_of_false (fun h => absurd h.two_le_length (by simp [swapNotation]))
      fun h => absurd h.two_le_length (by simp)
  | case3 d cs ih =>
    rw [hasReference_escape_iff, ← ih]
    cases hdigit : d.isDigit with
    | true =>
      -- A digit is no backslash, so that the dollar put in front of it is plain.
      have hd : d ≠ '\\' := by
        rintro rfl
        cases hdigit
      rw [swapNotation_escape_digit hdigit, hasPlaceholder_plain (by decide),
        hasPlaceholder_plain hd]
      simp
    | false =>
      rw [swapNotation_escape_other hdigit, hasPlaceholder_escape, hdigit]
      simp
  | case4 c d cs hplain hdollar ih =>
    obtain ⟨rfl, hdigit⟩ := hdollar
    rw [swapNotation_dollar_digit hdigit, hasPlaceholder_escape, hasReference_plain_iff hplain,
      startsWithDigit_cons, hdigit]
    simp
  | case5 c d cs hplain hdollar ih =>
    have hdollar : ¬ (c = '$' ∧ StartsWithDigit (d :: cs)) := by rwa [startsWithDigit_cons]
    rw [swapNotation_plain hplain hdollar, hasPlaceholder_plain hplain,
      hasReference_plain_iff hplain, ih, or_iff_right hdollar]

/-- The two notations of references are exchanged without loss. To exchange them twice gives the
text back, whatever it holds. A placeholder is a backslash that no other takes, with a digit behind
it; an exchanged text has one just when the text has a dollar that no backslash takes with a digit
behind it, and has such a dollar just when the text has a placeholder. -/
theorem swapNotation_exchanges (cs : List Char) :
    swapNotation (swapNotation cs) = cs ∧
      (hasPlaceholder cs = true ↔ HasReference '\\' cs) ∧
      (hasPlaceholder (swapNotation cs) = true ↔ HasReference '$' cs) ∧
      (HasReference '$' (swapNotation cs) ↔ hasPlaceholder cs = true) := by
  refine ⟨swapNotation_swapNotation cs, hasPlaceholder_iff_hasReference,
    hasPlaceholder_swapNotation, ?_⟩
  rw [← hasPlaceholder_swapNotation, swapNotation_swapNotation]

/-- Behind an escaped backslash a dollar is free, behind a single one it is taken. -/
example : swapNotation ['\\', '\\', '$', '1', '\\', '$', '2', '\\'] =
    ['\\', '\\', '\\', '1', '\\', '$', '2', '\\'] := by decide

end TextScopes.Notation
