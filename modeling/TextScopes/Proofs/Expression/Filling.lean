import TextScopes.Expression.Basic
import TextScopes.Proofs.Text.Boundary

/-!
# Filling a template

The text of an expression is read piece by piece: a backslash with the character behind it, any
other character by itself, and a backslash with nothing behind it (`Notation.pieces`). Three
functions walk over such a text, and all cut it at the same places. A placeholder is found just when
a piece is an escaped digit (`Notation.hasPlaceholder_iff`). An escaped text has one piece for each
of its characters, whatever follows it (`Notation.pieces_escapeLiteral_append`). And filling a
template replaces its placeholders piece by piece and keeps the others
(`Notation.pieces_fillPlaceholders`).

So `Expression.expand_pieces` says all that captured text can do to an expression: it stands for
itself, it joins with nothing around it, and it brings in no reference.
-/

namespace TextScopes

namespace Notation

/-- A piece of an expression's text. -/
inductive Piece where
  /-- A backslash with the character behind it. -/
  | escape (c : Char)
  /-- A character by itself. -/
  | plain (c : Char)
  /-- A backslash with nothing behind it. -/
  | backslash
  deriving DecidableEq, Repr

/-- The pieces of a text, one after the other. -/
def pieces : List Char → List Piece
  | [] => []
  | [c] => if c = '\\' then [.backslash] else [.plain c]
  | c :: d :: cs => if c = '\\' then .escape d :: pieces cs else .plain c :: pieces (d :: cs)

namespace Piece

/-- The piece that stands for a character: escaped if it has a meaning of its own, else by
itself. -/
def literal (c : Char) : Piece := if c ∈ metacharacters then .escape c else .plain c

/-- The character of a piece, without the backslash that escapes it. -/
def char : Piece → Char
  | .escape c => c
  | .plain c => c
  | .backslash => '\\'

/-- What a piece of a template is replaced by: an escaped digit other than zero by the text of its
group, and any other piece by itself. -/
def fill (text : Nat → List Char) : Piece → List Piece
  | .escape d =>
    if d.isDigit ∧ d ≠ '0' then (text (d.toNat - '0'.toNat)).map literal
    else [.escape d]
  | .plain c => [.plain c]
  | .backslash => [.backslash]

/-- A character is what its piece stands for. -/
theorem char_literal (c : Char) : (literal c).char = c := by
  unfold literal
  split <;> rfl

/-- What stands for a character is escaped just when it has a meaning of its own. -/
theorem literal_eq_escape_iff {c d : Char} : literal c = .escape d ↔
    c = d ∧ d ∈ metacharacters := by
  unfold literal
  split
  · next hmeta =>
    rw [Piece.escape.injEq]
    exact ⟨fun h => ⟨h, h ▸ hmeta⟩, fun h => h.1⟩
  · next hplain =>
    refine ⟨fun h => (nomatch h), fun h => ?_⟩
    exact absurd (h.1 ▸ h.2) hplain

/-- What stands for a character stands by itself just when it has no meaning of its own. -/
theorem literal_eq_plain_iff {c d : Char} : literal c = .plain d ↔
    c = d ∧ d ∉ metacharacters := by
  unfold literal
  split
  · next hmeta =>
    refine ⟨fun h => (nomatch h), fun h => ?_⟩
    exact absurd hmeta (h.1 ▸ h.2)
  · next hplain =>
    rw [Piece.plain.injEq]
    exact ⟨fun h => ⟨h, h ▸ hplain⟩, fun h => h.1⟩

end Piece

/-- No digit has a meaning of its own. -/
theorem isDigit_of_mem_metacharacters {c : Char} (h : c ∈ metacharacters) :
    c.isDigit = false := by
  have hall : (metacharacters.all fun c => !c.isDigit) = true := by decide
  simpa using List.all_eq_true.1 hall c h

/-- A backslash takes the character behind it. -/
theorem pieces_escape (d : Char) (cs : List Char) :
    pieces ('\\' :: d :: cs) = .escape d :: pieces cs := by
  rw [pieces, if_pos rfl]

/-- Any other character is a piece by itself. -/
theorem pieces_plain {c : Char} (h : c ≠ '\\') (cs : List Char) :
    pieces (c :: cs) = .plain c :: pieces cs := by
  cases cs with
  | nil =>
    unfold pieces
    rw [if_neg h]
  | cons d cs => rw [pieces, if_neg h]

/-- A backslash is a placeholder just when it takes a digit. -/
theorem hasPlaceholder_escape (d : Char) (cs : List Char) :
    hasPlaceholder ('\\' :: d :: cs) = (d.isDigit || hasPlaceholder cs) := by
  rw [hasPlaceholder]

/-- No other character begins a placeholder. -/
theorem hasPlaceholder_plain {c : Char} (h : c ≠ '\\') (cs : List Char) :
    hasPlaceholder (c :: cs) = hasPlaceholder cs := by
  rw [hasPlaceholder]
  intro e es heq
  exact absurd heq h

/-- A placeholder is found just when a piece is an escaped digit. -/
theorem hasPlaceholder_iff {cs : List Char} :
    hasPlaceholder cs = true ↔ ∃ d, d.isDigit = true ∧ Piece.escape d ∈ pieces cs := by
  -- On the pieces as they are cut off: an escape has two characters, all else has one.
  induction cs using pieces.induct with
  | case1 => simp [hasPlaceholder, pieces]
  | case2 => simp [hasPlaceholder, pieces]
  | case3 c hplain => simp [hasPlaceholder, pieces, hplain]
  | case4 d cs ih =>
    rw [hasPlaceholder_escape, Bool.or_eq_true, ih, pieces_escape]
    constructor
    · rintro (hdigit | ⟨e, hdigit, hmem⟩)
      · exact ⟨d, hdigit, List.mem_cons_self⟩
      · exact ⟨e, hdigit, List.mem_cons_of_mem _ hmem⟩
    · rintro ⟨e, hdigit, hmem⟩
      rcases List.mem_cons.1 hmem with heq | hmem
      · rw [Piece.escape.injEq] at heq
        exact .inl (heq ▸ hdigit)
      · exact .inr ⟨e, hdigit, hmem⟩
  | case5 c d cs hplain ih =>
    rw [hasPlaceholder_plain hplain, ih, pieces_plain hplain]
    simp only [List.mem_cons, reduceCtorEq, false_or]

/-- An escaped text has one piece for each of its characters, and those of what follows stay. -/
theorem pieces_escapeLiteral_append (cs rest : List Char) :
    pieces (escapeLiteral cs ++ rest) = cs.map Piece.literal ++ pieces rest := by
  -- Each character is written as one piece: escaped, or plain and no backslash.
  induction cs with
  | nil => rfl
  | cons c cs ih =>
    unfold escapeLiteral
    rw [List.map_cons, List.cons_append, ← ih]
    unfold Piece.literal
    split
    · exact pieces_escape c _
    · next hplain =>
      have hne : c ≠ '\\' := by
        rintro rfl
        exact hplain (by decide)
      exact pieces_plain hne _

/-- The digits other than zero refer to a group, each to that of its value. -/
theorem placeholder?_eq (d : Char) :
    placeholder? d = if d.isDigit ∧ d ≠ '0' then some (d.toNat - '0'.toNat) else none := by
  unfold placeholder?
  -- Digits are next to one another, and zero is the first.
  have hrange : ('1' ≤ d ∧ d ≤ '9') ↔ (d.isDigit = true ∧ d ≠ '0') := by
    have hne : d ≠ '0' ↔ d.val.toNat ≠ 48 := by
      rw [ne_eq, ne_eq, Char.ext_iff, ← UInt32.toNat_inj]
      rfl
    simp only [hne, Char.isDigit, Bool.and_eq_true, decide_eq_true_eq, Char.le_def, ge_iff_le,
      UInt32.le_iff_toNat_le]
    have h0 : ('0' : Char).val.toNat = 48 := rfl
    have h1 : ('1' : Char).val.toNat = 49 := rfl
    have h9 : ('9' : Char).val.toNat = 57 := rfl
    rw [h0, h1, h9]
    omega
  simp only [hrange]

/-- Filling a template replaces its pieces one by one. -/
theorem pieces_fillPlaceholders (text? : Nat → Option (List Char)) (cs : List Char) :
    pieces (fillPlaceholders text? cs) =
      (pieces cs).flatMap (Piece.fill fun n => (text? n).getD []) := by
  induction cs using pieces.induct with
  | case1 => rfl
  | case2 => rfl
  | case3 c hplain =>
    rw [fillPlaceholders, pieces_plain hplain, List.flatMap_cons]
    rfl
  | case4 d cs ih =>
    unfold fillPlaceholders
    rw [if_pos rfl, placeholder?_eq, pieces_escape, List.flatMap_cons, ← ih, Piece.fill]
    -- A digit gives the pieces of its group's text, and any other character stays escaped.
    by_cases hdigit : d.isDigit = true ∧ d ≠ '0'
    · rw [if_pos hdigit, if_pos hdigit]
      exact pieces_escapeLiteral_append _ _
    · rw [if_neg hdigit, if_neg hdigit]
      exact pieces_escape d _
  | case5 c d cs hplain ih =>
    unfold fillPlaceholders
    rw [if_neg hplain, pieces_plain hplain, pieces_plain hplain, List.flatMap_cons, ← ih]
    rfl

/-- Behind an escaped backslash a placeholder is still one, and a captured digit is none. -/
example : fillPlaceholders (fun _ => some ['.', '1']) ['\\', '\\', '\\', '1'] =
    ['\\', '\\', '\\', '.', '1'] := by decide

/-- No piece of a group's text is an escaped digit. -/
theorem not_isDigit_of_mem_map_literal {cs : List Char} {d : Char}
    (h : Piece.escape d ∈ cs.map Piece.literal) : d.isDigit = false := by
  obtain ⟨c, -, hc⟩ := List.mem_map.1 h
  exact isDigit_of_mem_metacharacters (Piece.literal_eq_escape_iff.1 hc).2

/-- A digit is escaped in a filled template just when it is zero and the template has it. -/
theorem escape_mem_flatMap_fill_iff {text : Nat → List Char} {ps : List Piece} {d : Char}
    (hdigit : d.isDigit = true) :
    Piece.escape d ∈ ps.flatMap (Piece.fill text) ↔ d = '0' ∧ Piece.escape '0' ∈ ps := by
  rw [List.mem_flatMap]
  constructor
  · rintro ⟨piece, hpiece, hmem⟩
    cases piece with
    -- A filled placeholder has no escaped digit; what is kept is no placeholder.
    | escape e =>
      rw [Piece.fill] at hmem
      split at hmem
      · exact absurd hdigit (by rw [not_isDigit_of_mem_map_literal hmem]; decide)
      · next hkept =>
        obtain rfl := Piece.escape.inj (List.mem_singleton.1 hmem)
        have hzero : d = '0' := Decidable.not_not.1 fun hne => hkept ⟨hdigit, hne⟩
        exact ⟨hzero, hzero ▸ hpiece⟩
    | plain c => simp [Piece.fill] at hmem
    | backslash => simp [Piece.fill] at hmem
  · rintro ⟨rfl, hmem⟩
    exact ⟨_, hmem, by simp [Piece.fill]⟩

end Notation

namespace Text

/-- The text of a span is what lies between its ends, if these are boundaries in their order. -/
theorem slice?_eq_some_iff {text inner : String} {span : Span} :
    slice? text span = some inner ↔
    ∃ before after, text.toList = before ++ inner.toList ++ after ∧
      span.start = byteCount before ∧ span.stop = byteCount (before ++ inner.toList) := by
  unfold slice?
  constructor
  · -- The text is cut at the start of the span, and the rest at its length.
    intro h
    split at h
    · cases h
    · next hle =>
      simp only [Option.bind_eq_bind, Option.bind_eq_some_iff, Option.pure_def,
        Option.some.injEq] at h
      obtain ⟨⟨before, rest⟩, hbefore, ⟨cs, after⟩, hcs, rfl⟩ := h
      obtain ⟨htext, hstart⟩ := split?_eq_some_iff.1 hbefore
      obtain ⟨hrest, hcount⟩ := split?_eq_some_iff.1 hcs
      dsimp only at hrest hcount
      refine ⟨before, after, ?_, hstart.symm, ?_⟩
      · rw [String.toList_ofList, List.append_assoc, hrest, htext]
      · rw [String.toList_ofList, byteCount_append, hstart, hcount]
        omega
  · rintro ⟨before, after, htext, hstart, hstop⟩
    rw [byteCount_append] at hstop
    have hlength : span.stop - span.start = byteCount inner.toList := by omega
    rw [if_neg (by omega), htext, hstart, ← hstart, hlength, hstart, List.append_assoc,
      split?_byteCount]
    simp [split?_byteCount]

end Text

/-- The text of a group of a match over `content`, if the group has one. -/
def Match.text? (found : Match) (content : String) (index : Nat) : Option String :=
  (found.group? index).bind (Text.slice? content)

/-- The characters of a group's text; none when it has no text. -/
def Match.chars (found : Match) (content : String) (index : Nat) : List Char :=
  ((found.text? content index).map String.toList).getD []

namespace Expression

open Notation

/-- What captured text does to an expression. A template that is filled with the groups of a match
is compiled, and stays a template when that is not possible. The pieces of the filled text are those
of the template, with every escaped digit other than zero replaced by one piece for each character
of its group's text. Such pieces are the characters themselves, those with a meaning of their own
escaped, and no placeholder; so the filled text has a placeholder just when the template has an
escaped zero. The text of a group is what lies between its ends, and a group has none when it took
no part, leaves the text or cuts a character. -/
theorem expand_pieces (E : Engine) (pattern : String) (options : Options) (content : String)
    (found : Match) :
    ∃ concrete : String,
      concrete = (template pattern options : Expression E).filled content found ∧
      (template pattern options : Expression E).expand content found =
        (match compile E concrete options with
          | .ok e => e
          | .error _ => template pattern options) ∧
      pieces concrete.toList =
        (pieces pattern.toList).flatMap (Piece.fill (found.chars content)) ∧
      (∀ n, ∀ piece ∈ (found.chars content n).map Piece.literal,
        (∃ c ∈ metacharacters, piece = .escape c) ∨
          (∃ c, c ∉ metacharacters ∧ piece = .plain c)) ∧
      (∀ n d, d.isDigit = true →
        Piece.escape d ∉ (found.chars content n).map Piece.literal) ∧
      (hasPlaceholder concrete.toList = true ↔ Piece.escape '0' ∈ pieces pattern.toList) ∧
      (∀ n, ((found.chars content n).map Piece.literal).map Piece.char =
        found.chars content n) ∧
      ∀ n text, found.text? content n = some text ↔
        ∃ span before after, found.group? n = some span ∧
          content.toList = before ++ text.toList ++ after ∧
          span.start = Text.byteCount before ∧
          span.stop = Text.byteCount (before ++ text.toList) := by
  have hpieces : pieces ((template pattern options : Expression E).filled content found).toList =
      (pieces pattern.toList).flatMap (Piece.fill (found.chars content)) := by
    unfold filled
    rw [String.toList_ofList]
    exact pieces_fillPlaceholders _ _
  refine ⟨(template pattern options : Expression E).filled content found, rfl, rfl, hpieces,
    fun n piece hpiece => ?_, fun n d hdigit hmem => ?_, ?_, fun n => ?_, fun n text => ?_⟩
  · obtain ⟨c, -, rfl⟩ := List.mem_map.1 hpiece
    by_cases hmeta : c ∈ metacharacters
    · exact .inl ⟨c, hmeta, Piece.literal_eq_escape_iff.2 ⟨rfl, hmeta⟩⟩
    · exact .inr ⟨c, hmeta, Piece.literal_eq_plain_iff.2 ⟨rfl, hmeta⟩⟩
  · rw [not_isDigit_of_mem_map_literal hmem] at hdigit
    cases hdigit
  · -- Only an escaped zero is a placeholder that is not filled.
    rw [hasPlaceholder_iff, hpieces]
    constructor
    · rintro ⟨d, hdigit, hmem⟩
      exact ((escape_mem_flatMap_fill_iff hdigit).1 hmem).2
    · intro hzero
      exact ⟨'0', by decide, (escape_mem_flatMap_fill_iff (by decide)).2 ⟨rfl, hzero⟩⟩
  · rw [List.map_map]
    exact (List.map_congr_left fun c _ => Piece.char_literal c).trans (List.map_id _)
  · unfold Match.text?
    simp only [Option.bind_eq_some_iff, Text.slice?_eq_some_iff]
    constructor
    · rintro ⟨span, hgroup, before, after, hcut⟩
      exact ⟨span, before, after, hgroup, hcut⟩
    · rintro ⟨span, before, after, hgroup, hcut⟩
      exact ⟨span, hgroup, before, after, hcut⟩

end Expression

end TextScopes
