import TextScopes.Expression.Notation
import TextScopes.Regex.Engine
import TextScopes.Text

/-!
# Expressions of a grammar

An `Expression` is the text of an expression with its options and, unless it is a template, the
form that the engine compiled it to. A template refers to the groups of a match that is yet to
be made; it is compiled by `expand`, once that match is known, and until then matches nothing.
What the engine made of an expression is determined by text and options, so two expressions that
agree in these are equal.
-/

namespace TextScopes

/-- How the text of an expression is read (`RegexOptions`). -/
structure Options where
  ignoreCase : Bool
  /-- Blanks and comments are passed over. -/
  freeSpacing : Bool
  /-- The text stands for itself. -/
  literal : Bool
  dotMatchesNewline : Bool
  /-- `^` and `$` match at lines. -/
  anchorsMatchLines : Bool
  deriving DecidableEq, Inhabited, Repr

namespace Options

/-- The options of every expression in a grammar. -/
def grammar : Options := ⟨false, false, false, false, true⟩

/-- The letters of the flags that are set. -/
def flags (o : Options) : List Char :=
  (if o.ignoreCase then ['i'] else []) ++ (if o.anchorsMatchLines then ['m'] else [])
    ++ (if o.dotMatchesNewline then ['s'] else [])
    ++ (if o.freeSpacing && !o.literal then ['x'] else [])

/-- The text handed to the engine: the flags in front, and the text escaped when it is literal. -/
def source (o : Options) (pattern : String) : String :=
  let body := if o.literal then Notation.escapeLiteral pattern.toList else pattern.toList
  if o.flags = [] then String.ofList body
  else String.ofList (['(', '?'] ++ o.flags ++ [')'] ++ body)

end Options

/-- The groups of a match: the span of the whole, and those of the numbered groups
(`MatchResult`). -/
structure Match where
  span : Span
  others : List (Option Span)
  deriving DecidableEq, Inhabited, Repr

namespace Match

/-- The match with the groups given, the first of which is the whole and has to be
there (`from_groups`). -/
def ofGroups? : Groups → Option Match
  | some span :: others => some ⟨span, others⟩
  | _ => none

/-- All groups, the whole first. -/
def groups (m : Match) : Groups := some m.span :: m.others

/-- The span of a group, if it took part. -/
def group? (m : Match) (index : Nat) : Option Span := (m.groups[index]?).join

/-- Whether the whole match has no byte. -/
def isEmpty (m : Match) : Bool := m.span.isEmpty

theorem ofGroups?_groups (m : Match) : ofGroups? m.groups = some m := rfl

end Match

/-- The text of an expression that is none. -/
structure CompileError where
  pattern : String
  deriving DecidableEq, Repr

/-- An expression, compiled by the engine `E` unless it is a template (`RegularExpression`). -/
structure Expression (E : Engine) where
  pattern : String
  options : Options
  isTemplate : Bool
  program : Option E.Program
  /-- What the engine made of the expression follows from its text. -/
  program_eq : program = if isTemplate then none else E.compile (options.source pattern)

namespace Expression

variable {E : Engine}

theorem ext_iff_pattern (a b : Expression E) :
    a = b ↔ a.pattern = b.pattern ∧ a.options = b.options ∧ a.isTemplate = b.isTemplate := by
  constructor
  · rintro rfl
    exact ⟨rfl, rfl, rfl⟩
  · obtain ⟨p, o, t, g, hg⟩ := a
    obtain ⟨p', o', t', g', hg'⟩ := b
    rintro ⟨rfl, rfl, rfl⟩
    obtain rfl : g = g' := hg.trans hg'.symm
    rfl

instance : DecidableEq (Expression E) := fun a b =>
  decidable_of_iff _ (ext_iff_pattern a b).symm

/-- A template, which is not compiled. -/
def template (pattern : String) (options : Options) : Expression E :=
  ⟨pattern, options, true, none, rfl⟩

instance : Inhabited (Expression E) := ⟨template "" .grammar⟩

/-- Compiles an expression whatever it refers to. -/
def compile (E : Engine) (pattern : String) (options : Options) :
    Except CompileError (Expression E) :=
  match h : E.compile (options.source pattern) with
  | some program => .ok ⟨pattern, options, false, some program, by simp [h]⟩
  | none => .error ⟨pattern⟩

/-- Reads an expression: one with a placeholder is kept as a template, any other is compiled
(`new`). -/
def ofPattern (E : Engine) (pattern : String) (options : Options) :
    Except CompileError (Expression E) :=
  if Notation.hasPlaceholder pattern.toList then .ok (template pattern options)
  else compile E pattern options

/-- The expression with its placeholders as references to its own groups (`into_standalone`). -/
def standalone (e : Expression E) : Except CompileError (Expression E) :=
  if e.isTemplate then compile E e.pattern e.options else .ok e

/-- Whether the expression can be searched for. -/
def isCompiled (e : Expression E) : Bool := e.program.isSome

/-- The first match in `text` at or behind the offset `pos` (`find_at`). -/
def findAt (e : Expression E) (text : String) (pos : Nat) : Option Match :=
  match e.program with
  | some program => (E.search program text pos).bind Match.ofGroups?
  | none => none

/-- Up to `limit` matches, each searched for where the one before stops, or a character further when
that one is empty; none follows an empty match at the end of the text. -/
def findFrom (e : Expression E) (text : String) : Nat → Nat → List Match
  | 0, _ => []
  | limit + 1, pos =>
    match e.findAt text pos with
    | none => []
    | some found =>
      -- Behind a match without a byte the search goes on a character further.
      if found.isEmpty then
        match Text.next? text found.span.stop with
        | some pos => found :: findFrom e text limit pos
        | none => [found]
      else found :: findFrom e text limit found.span.stop

/-- All matches that follow one another in a text. -/
def findAll (e : Expression E) (text : String) : List Match :=
  e.findFrom text (text.utf8ByteSize + 1) 0

/-- The text that a template comes to with the groups of a match over `content`. -/
def filled (e : Expression E) (content : String) (found : Match) : String :=
  let text? (index : Nat) : Option (List Char) :=
    ((found.group? index).bind (Text.slice? content)).map String.toList
  String.ofList (Notation.fillPlaceholders text? e.pattern.toList)

/-- The template filled with the groups of a match over `content`, and compiled. Where that is no
expression the template stays, which matches nothing; what is no template stays as well. -/
def expand (e : Expression E) (content : String) (found : Match) : Expression E :=
  if e.isTemplate then
    match compile E (e.filled content found) e.options with
    | .ok concrete => concrete
    | .error _ => e
  else e

/-- A template matches nothing. -/
theorem findAt_of_isTemplate {e : Expression E} (h : e.isTemplate = true) (text : String)
    (pos : Nat) : e.findAt text pos = none := by
  have hp : e.program = none := by rw [e.program_eq]; simp [h]
  simp [findAt, hp]

end Expression

end TextScopes
