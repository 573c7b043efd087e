import Mathlib.Data.Nat.Find
import TextScopes.Proofs.Expression.Filling
import TextScopes.Proofs.Expression.Literal

/-!
# Expressions that stand for a text

The text of an expression can be meant literally. It is escaped then, and behind the flags handed to
an engine; of engines it is assumed that escaped and ordinary characters match just the text that
they stand for, at its first place (`Engine.FindsText`). So an expression that is compiled from any
text, whatever characters it has, finds that text and nothing else (`Expression.compile_literal`).
`Engine.literal` is such an engine.

Not every expression is compiled when it is read. Whether it is a template is decided before it is
escaped, so that a backslash with a digit behind it makes a template of a literal text as well, and
a template finds nothing. `Expression.ofPattern_literal` says what is read of every text, and that
the expression comes to stand for the text once it is read on its own.
-/

namespace TextScopes

namespace Text

/-- A word stands at an offset of a text. -/
def StandsAt (text : String) (word : List Char) (offset : Nat) : Prop :=
  ∃ before after, text.toList = before ++ word ++ after ∧ byteCount before = offset

/-- The span where a word stands first, from an offset on. -/
structure FirstFrom (text : String) (word : List Char) (pos : Nat) (span : Span) : Prop where
  le_start : pos ≤ span.start
  stands : StandsAt text word span.start
  stop_eq : span.stop = span.start + byteCount word
  first : ∀ offset, pos ≤ offset → offset < span.start → ¬ StandsAt text word offset

/-- A word that stands somewhere from an offset on stands at a first place from there on. -/
theorem exists_firstFrom {text : String} {word : List Char} {pos offset : Nat}
    (hle : pos ≤ offset)
    (h : StandsAt text word offset) : ∃ span, FirstFrom text word pos span := by
  classical
  have hex : ∃ n, pos ≤ n ∧ StandsAt text word n := ⟨offset, hle, h⟩
  obtain ⟨hpos, hstands⟩ := Nat.find_spec hex
  refine ⟨⟨Nat.find hex, Nat.find hex + byteCount word⟩, hpos, hstands, rfl,
    fun earlier h1 h2 h3 => ?_⟩
  exact Nat.find_min hex h2 ⟨h1, h3⟩

end Text

namespace Notation

/-- A piece that stands for one character: an escaped one that has a meaning of its own, or one that
has none by itself. -/
def Piece.IsLiteral (piece : Piece) : Prop :=
  (∃ c ∈ metacharacters, piece = .escape c) ∨ ∃ c, c ∉ metacharacters ∧ piece = .plain c

/-- What is written for a character stands for one. -/
theorem Piece.isLiteral_literal (c : Char) : (literal c).IsLiteral := by
  unfold literal
  split
  · next hmeta => exact .inl ⟨c, hmeta, rfl⟩
  · next hplain => exact .inr ⟨c, hplain, rfl⟩

/-- A character that stands for itself has no meaning of its own. -/
theorem not_mem_of_isLiteral {c : Char} (h : (Piece.plain c).IsLiteral) : c ∉ metacharacters := by
  obtain ⟨d, -, hd⟩ | ⟨d, hmeta, hd⟩ := h
  · cases hd
  · obtain rfl := Piece.plain.inj hd
    exact hmeta

/-- An escaped character that stands for one has a meaning of its own. -/
theorem mem_of_isLiteral {c : Char} (h : (Piece.escape c).IsLiteral) : c ∈ metacharacters := by
  obtain ⟨d, hmeta, hd⟩ | ⟨d, -, hd⟩ := h
  · obtain rfl := Piece.escape.inj hd
    exact hmeta
  · cases hd

/-- The pieces of an escaped text stand for its characters. -/
theorem pieces_escapeLiteral (cs : List Char) :
    pieces (escapeLiteral cs) = cs.map Piece.literal := by
  have h := pieces_escapeLiteral_append cs []
  rwa [List.append_nil, pieces, List.append_nil] at h

/-- The characters that the pieces of an escaped text stand for are those of the text. -/
theorem map_char_pieces_escapeLiteral (cs : List Char) :
    (pieces (escapeLiteral cs)).map Piece.char = cs := by
  rw [pieces_escapeLiteral, List.map_map]
  exact (List.map_congr_left fun c _ => Piece.char_literal c).trans (List.map_id _)

end Notation

namespace Options

/-- What is handed to an engine: the flags, in a group of their own when there are any, and
behind them the rest. -/
def behindFlags (flags body : List Char) : String :=
  if flags = [] then String.ofList body else String.ofList (['(', '?'] ++ flags ++ [')'] ++ body)

/-- A literal text is escaped behind the flags. -/
theorem source_of_literal {options : Options} (h : options.literal = true) (pattern : String) :
    options.source pattern = behindFlags options.flags (Notation.escapeLiteral pattern.toList) := by
  rw [source, h]
  rfl

/-- With a literal text, where upper and lower case differ, the flags are about
anchors and dots only. -/
theorem flags_sublist {options : Options} (hliteral : options.literal = true)
    (hcase : options.ignoreCase = false) : options.flags.Sublist ['m', 's'] := by
  have hflags : options.flags =
      (if options.anchorsMatchLines then ['m'] else []) ++
        if options.dotMatchesNewline then ['s'] else [] := by
    simp only [flags, hliteral, hcase, Bool.not_true, Bool.and_false, Bool.false_eq_true, if_false,
      List.nil_append, List.append_nil]
  rw [hflags]
  cases options.anchorsMatchLines <;> cases options.dotMatchesNewline <;> decide

end Options

/-- Behind flags about anchors and dots, escaped and ordinary characters are an expression that
matches just the text that they stand for: a search answers the first place of that text. -/
def Engine.FindsText (E : Engine) : Prop :=
  ∀ flags body, flags.Sublist ['m', 's'] →
    (∀ piece ∈ Notation.pieces body, piece.IsLiteral) →
    ∃ program, E.compile (Options.behindFlags flags body) = some program ∧
      ∀ text pos, Text.isBoundary text pos = true → ∀ span,
        ((∃ others, E.search program text pos = some (some span :: others)) ↔
          Text.FirstFrom text ((Notation.pieces body).map Notation.Piece.char) pos span)

namespace Engine

/-- Escaped and ordinary characters stand for a text. -/
theorem literalText?_of_isLiteral {body : List Char}
    (h : ∀ piece ∈ Notation.pieces body, piece.IsLiteral) :
    literalText? body = some ((Notation.pieces body).map Notation.Piece.char) := by
  -- On the pieces: an escape writes a metacharacter, a plain character is none.
  induction body using Notation.pieces.induct with
  | case1 => rfl
  | case2 =>
    -- A backslash that escapes nothing is not how a character is written.
    obtain ⟨c, -, hc⟩ | ⟨c, -, hc⟩ := h .backslash (List.mem_singleton.2 rfl) <;> cases hc
  | case3 c hplain =>
    have hpieces : Notation.pieces [c] = [.plain c] := Notation.pieces_plain hplain []
    rw [hpieces] at h ⊢
    rw [literalText?, if_neg (Notation.not_mem_of_isLiteral (h _ (List.mem_singleton.2 rfl)))]
    rfl
  | case4 d cs ih =>
    rw [Notation.pieces_escape] at h ⊢
    have hmeta := Notation.mem_of_isLiteral (h _ List.mem_cons_self)
    rw [literalText?, if_pos rfl, if_pos hmeta,
      ih fun piece hpiece => h _ (List.mem_cons_of_mem _ hpiece)]
    rfl
  | case5 c d cs hplain ih =>
    rw [Notation.pieces_plain hplain] at h ⊢
    have hmeta := Notation.not_mem_of_isLiteral (h _ List.mem_cons_self)
    rw [literalText?, if_neg hplain, if_neg hmeta,
      ih fun piece hpiece => h _ (List.mem_cons_of_mem _ hpiece)]
    rfl

/-- Escaped and ordinary characters begin with no group, so none of them is left out with the
flags. -/
theorem withoutFlags_behindFlags {flags body : List Char} (hflags : flags.Sublist ['m', 's'])
    (h : ∀ piece ∈ Notation.pieces body, piece.IsLiteral) :
    withoutFlags (Options.behindFlags flags body).toList = body := by
  unfold Options.behindFlags
  split
  · rw [String.toList_ofList]
    unfold withoutFlags
    split
    · -- The text itself does not begin with flags, since its parentheses are escaped.
      next cs =>
      rw [Notation.pieces_plain (by decide)] at h
      exact absurd (Notation.not_mem_of_isLiteral (h _ List.mem_cons_self)) (by decide)
    · rfl
  · -- The engine skips these flags up to the parenthesis that closes them.
    have hidle : ∀ flag ∈ flags, isIdleFlag flag = true := fun flag hmem =>
      List.all_eq_true.1 (by decide : ['m', 's'].all isIdleFlag = true) flag (hflags.subset hmem)
    have hrest : (flags ++ [')'] ++ body).dropWhile isIdleFlag = ')' :: body := by
      rw [List.append_assoc, List.dropWhile_append_of_pos hidle]
      rfl
    rw [String.toList_ofList]
    show withoutFlags ('(' :: '?' :: (flags ++ [')'] ++ body)) = body
    rw [withoutFlags, hrest]
    rfl

/-- A word has an answer just where it stands. -/
theorem wordAt_eq_some_iff {word : List Char} {text : String} {place : Nat} {groups : Groups} :
    wordAt word text place = some groups ↔
      groups = [some ⟨place, place + Text.byteCount word⟩] ∧
      Text.StandsAt text word place := by
  constructor
  · intro h
    refine ⟨(wordAt_eq_some h).1, ?_⟩
    unfold wordAt at h
    split at h
    · -- The place is a boundary, and the word stands behind it.
      next before after hsplit =>
      split at h
      · next hword =>
        obtain ⟨happ, hcount⟩ := Text.split?_eq_some_iff.1 hsplit
        obtain ⟨rest, rfl⟩ := List.isPrefixOf_iff_prefix.1 hword
        exact ⟨before, rest, by rw [← happ, List.append_assoc], hcount⟩
      · cases h
    · cases h
  · rintro ⟨rfl, before, after, happ, hcount⟩
    have hsplit : Text.split? text.toList place = some (before, word ++ after) :=
      Text.split?_eq_some_iff.2 ⟨by rw [happ, List.append_assoc], hcount⟩
    have hword : word.isPrefixOf (word ++ after) = true :=
      List.isPrefixOf_iff_prefix.2 (List.prefix_append word after)
    simp only [wordAt, hsplit, hword, if_true]

/-- A word has no answer just where it does not stand. -/
theorem wordAt_eq_none_iff {word : List Char} {text : String} {place : Nat} :
    wordAt word text place = none ↔ ¬ Text.StandsAt text word place := by
  rw [Option.eq_none_iff_forall_ne_some]
  constructor
  · exact fun h hstands => h _ (wordAt_eq_some_iff.2 ⟨rfl, hstands⟩)
  · exact fun h groups hgroups => h (wordAt_eq_some_iff.1 hgroups).2

/-- The engine for plain text finds texts. -/
theorem literal_findsText : literal.FindsText := by
  intro flags body hflags hbody
  refine ⟨(Notation.pieces body).map Notation.Piece.char, ?_, fun text pos _ span => ?_⟩
  · exact (congrArg literalText? (withoutFlags_behindFlags hflags hbody)).trans
      (literalText?_of_isLiteral hbody)
  show (∃ others, literal.search _ text pos = some (some span :: others)) ↔ _
  -- The first place at which the word is found is the first at which it stands.
  constructor
  · rintro ⟨others, hsearch⟩
    obtain ⟨place, hle, hword, hfirst⟩ := literal_search_iff.1 hsearch
    obtain ⟨hgroups, hstands⟩ := wordAt_eq_some_iff.1 hword
    obtain rfl := Option.some.inj (List.cons.inj hgroups).1
    exact ⟨hle, hstands, rfl, fun offset h1 h2 => wordAt_eq_none_iff.1 (hfirst offset h1 h2)⟩
  · rintro ⟨hle, hstands, hstop, hfirst⟩
    refine ⟨[], literal_search_iff.2 ⟨span.start, hle, wordAt_eq_some_iff.2 ⟨?_, hstands⟩,
      fun offset h1 h2 => wordAt_eq_none_iff.2 (hfirst offset h1 h2)⟩⟩
    rw [← hstop]

end Engine

namespace Expression

variable {E : Engine} {pattern : String} {options : Options}

/-- An expression that stands for a word: it is compiled, and what it finds is the
first place of the word. -/
structure StandsFor (e : Expression E) (word : List Char) : Prop where
  isTemplate : e.isTemplate = false
  isCompiled : e.isCompiled = true
  findAt_iff : ∀ text pos, Text.isBoundary text pos = true → ∀ span,
    ((e.findAt text pos).map (·.span) = some span ↔ Text.FirstFrom text word pos span)

/-- An expression that stands for a word finds nothing just where the word does not stand any
more. -/
theorem StandsFor.findAt_eq_none_iff {e : Expression E} {word : List Char} (h : e.StandsFor word)
    {text : String} {pos : Nat} (hpos : Text.isBoundary text pos = true) :
    e.findAt text pos = none ↔ ∀ offset, pos ≤ offset →
    ¬ Text.StandsAt text word offset := by
  constructor
  · intro hnone offset hle hstands
    obtain ⟨span, hfirst⟩ := Text.exists_firstFrom hle hstands
    have hfound := (h.findAt_iff text pos hpos span).2 hfirst
    rw [hnone] at hfound
    cases hfound
  · intro hnowhere
    cases hfound : e.findAt text pos with
    | none => rfl
    | some found =>
      have hfirst := (h.findAt_iff text pos hpos found.span).1 (by rw [hfound]; rfl)
      -- What is found is a place where the word stands.
      exact (hnowhere _ hfirst.le_start hfirst.stands).elim

/-- An expression is compiled when the engine compiles its source. -/
theorem compile_eq_ok {program : E.Program}
    (h : E.compile (options.source pattern) = some program) :
    ∃ e, compile E pattern options = .ok e ∧ e.isTemplate = false ∧
      e.program = some program := by
  unfold compile
  split
  · -- There is a program, so that compiling does not fail.
    next other hother =>
    obtain rfl : program = other := Option.some.inj (h.symm.trans hother)
    exact ⟨_, rfl, rfl, rfl⟩
  · next hnone =>
    rw [h] at hnone
    cases hnone

/-- Every text that is meant literally can be compiled, and stands for itself. -/
theorem compile_literal (hE : E.FindsText) (pattern : String) (hliteral : options.literal = true)
    (hcase : options.ignoreCase = false) :
    ∃ e, compile E pattern options = .ok e ∧ e.StandsFor pattern.toList := by
  -- The text is written out so that every piece of it stands for one character.
  have hpieces : ∀ piece ∈ Notation.pieces (Notation.escapeLiteral pattern.toList),
      piece.IsLiteral := by
    rw [Notation.pieces_escapeLiteral]
    exact List.forall_mem_map.2 fun c _ => Notation.Piece.isLiteral_literal c
  obtain ⟨program, hcompile, hsearch⟩ :=
    hE options.flags _ (Options.flags_sublist hliteral hcase) hpieces
  rw [← Options.source_of_literal hliteral] at hcompile
  rw [Notation.map_char_pieces_escapeLiteral] at hsearch
  obtain ⟨e, he, htemplate, hprogram⟩ := compile_eq_ok hcompile
  refine ⟨e, he, htemplate, by rw [isCompiled, hprogram]; rfl, fun text pos hpos span => ?_⟩
  rw [← hsearch text pos hpos, Option.map_eq_some_iff]
  constructor
  · rintro ⟨found, hfound, rfl⟩
    obtain ⟨program', hprogram', hgroups⟩ := findAt_eq_some_iff.1 hfound
    obtain rfl : program = program' := Option.some.inj (hprogram.symm.trans hprogram')
    exact ⟨found.others, hgroups⟩
  · rintro ⟨others, hgroups⟩
    exact ⟨⟨span, others⟩, findAt_eq_some_iff.2 ⟨program, hprogram, hgroups⟩, rfl⟩

/-- What is read of a text that is meant literally, with upper and lower case kept apart. If it has
no placeholder then it is compiled, and finds the first place of the text from where a search
begins, and nothing if there is none. If it has one then it is a template, and finds nothing
anywhere. On its own the expression stands for the text in both cases. -/
theorem ofPattern_literal (hE : E.FindsText) (pattern : String) (options : Options)
    (hliteral : options.literal = true) (hcase : options.ignoreCase = false) :
    ∃ e, ofPattern E pattern options = .ok e ∧
      e.isTemplate = Notation.hasPlaceholder pattern.toList ∧
      e.isCompiled = !Notation.hasPlaceholder pattern.toList ∧
      (∀ text pos, Text.isBoundary text pos = true →
        (∀ span, (e.findAt text pos).map (·.span) = some span ↔
          Notation.hasPlaceholder pattern.toList = false ∧
            Text.FirstFrom text pattern.toList pos span) ∧
        (e.findAt text pos = none ↔ Notation.hasPlaceholder pattern.toList = true ∨
          ∀ offset, pos ≤ offset → ¬ Text.StandsAt text pattern.toList offset)) ∧
      ∃ alone, e.standalone = .ok alone ∧ alone.StandsFor pattern.toList := by
  obtain ⟨e, hcompile, hstands⟩ := compile_literal hE pattern hliteral hcase
  unfold ofPattern
  cases hplaceholder : Notation.hasPlaceholder pattern.toList with
  | true =>
    refine ⟨template pattern options, if_pos rfl, rfl, rfl, fun text pos _ => ?_, e,
      ?_, hstands⟩
    · -- A template finds nothing by itself.
      have hnone : (template pattern options : Expression E).findAt text pos = none :=
        findAt_of_isTemplate rfl text pos
      simp [hnone]
    · exact hcompile
  | false =>
    refine ⟨e, hcompile, hstands.isTemplate, hstands.isCompiled, fun text pos hpos => ?_, e,
      ?_, hstands⟩
    · simp only [true_and, Bool.false_eq_true, false_or]
      exact ⟨hstands.findAt_iff text pos hpos, hstands.findAt_eq_none_iff hpos⟩
    · rw [standalone, hstands.isTemplate]
      rfl

/-- Two backslashes and a digit are no placeholder, and stand for themselves whatever else is
set. -/
theorem ofPattern_literal_backslashes :
    ∃ e, ofPattern Engine.literal "\\\\1" ⟨false, true, true, true, true⟩ = .ok e ∧
      e.isTemplate = false ∧ e.isCompiled = true ∧
      (e.findAt "x\\\\1" 0).map (·.span) = some ⟨1, 4⟩ := by
  obtain ⟨e, he, htemplate, hcompiled, hfind, -⟩ :=
    ofPattern_literal Engine.literal_findsText "\\\\1" ⟨false, true, true, true, true⟩ rfl rfl
  have hfirst : Text.FirstFrom "x\\\\1" ['\\', '\\', '1'] 0 ⟨1, 4⟩ := by
    refine ⟨Nat.zero_le _, ⟨['x'], [], rfl, rfl⟩, rfl, fun offset _ hoffset => ?_⟩
    obtain rfl : offset = 0 := Nat.lt_one_iff.1 hoffset
    exact Engine.wordAt_eq_none_iff.1 (by decide)
  refine ⟨e, he, htemplate, hcompiled, ?_⟩
  exact ((hfind "x\\\\1" 0 (by decide)).1 ⟨1, 4⟩).2 ⟨by decide, hfirst⟩

/-- A backslash with a digit behind it makes a template of a literal text, which is not
found where it stands. -/
theorem literal_template :
    ∃ e, ofPattern Engine.literal "\\1" ⟨false, false, true, false, false⟩ = .ok e ∧
      Engine.literal.FindsText ∧ e.isTemplate = true ∧ e.isCompiled = false ∧
      Text.StandsAt "\\1" ['\\', '1'] 0 ∧ e.findAt "\\1" 0 = none :=
  ⟨template "\\1" _, rfl, Engine.literal_findsText, rfl, rfl, ⟨[], [], rfl, rfl⟩, rfl⟩

end Expression

end TextScopes
