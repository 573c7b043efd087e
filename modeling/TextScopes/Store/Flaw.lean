import TextScopes.Store.Basic
import TextScopes.Text.Quoted

/-!
# Flaws of a store

`check`, which is `check_invariants`, looks a store over for what breaks the nesting of its scopes:
a global scope that does not span the text, two scopes on one level that overlap, one that is empty
or leaves the text, one that no scope of the level below encloses. It answers the first flaw, from
the global scope over the outermost level on, and `Flaw.message` is its wording.
-/

namespace TextScopes

/-- A breach of the nesting of scopes. -/
inductive Flaw where
  /-- The global scope, over `span`, does not span the text, which has `length` bytes. -/
  | notSpanning (span : Span) (length : Nat)
  /-- Two neighbours on a level overlap or stand in the wrong order. -/
  | overlap (level : Nat) (left right : Scope)
  /-- A scope is empty or leaves the text. -/
  | badSpan (level : Nat) (scope : Scope)
  /-- No scope of the level below encloses the scope. -/
  | noParent (level : Nat) (scope : Scope)
  deriving DecidableEq, Repr

namespace Store

/-- The first pair of neighbours of which the left one reaches over the start of the right one. -/
def firstOverlap? : Level → Option (Scope × Scope)
  | a :: b :: rest => if b.span.start < a.span.stop then some (a, b) else firstOverlap? (b :: rest)
  | _ => none

/-- Whether a scope of the level `below` encloses `scope`. -/
def hasParent (below : Level) (scope : Scope) : Bool :=
  match below.find? scope.span.start with
  | some parent => parent.span.contains scope.span
  | none => false

/-- The flaw of a single scope on level `n` over the level `below`, if it has one. -/
def scopeFlaw? (length n : Nat) (below : Option Level) (scope : Scope) : Option Flaw :=
  if scope.span.isEmpty || length < scope.span.stop then some (.badSpan n scope)
  else
    -- Nothing has to enclose the scopes of the outermost level.
    match below with
    | some below => if hasParent below scope then none else some (.noParent n scope)
    | none => none

/-- The first flaw of the levels from number `n` on, over the level `below`. -/
def levelFlaw? (length : Nat) : Nat → Option Level → List Level → Option Flaw
  | _, _, [] => none
  | n, below, level :: levels =>
    -- The order of a level comes first, and then its scopes one by one.
    match firstOverlap? level with
    | some (a, b) => some (.overlap n a b)
    | none =>
      match level.findSome? (scopeFlaw? length n below) with
      | some flaw => some flaw
      | none => levelFlaw? length (n + 1) (some level) levels

/-- The first flaw of the store, if it has one (`check_invariants`). -/
def check (store : Store) : Option Flaw :=
  if store.globalScope.span ≠ ⟨0, store.length⟩ then
    some (.notSpanning store.globalScope.span store.length)
  else levelFlaw? store.length 0 none store.levels

end Store

/-- Positive exponents carry no sign in messages. -/
def messageStyle : Decimal.Style := ⟨false⟩

/-- How messages show a value that may be missing. -/
def showOption {α : Type} (shown : α → String) : Option α → String
  | none => "None"
  | some a => "Some(" ++ shown a ++ ")"

/-- How messages show a record. -/
def showRecord (name : String) (fields : List (String × String)) : String :=
  name ++ " \x7b " ++ ", ".intercalate (fields.map fun (k, v) => k ++ ": " ++ v) ++ " \x7d"

/-- How messages show a truth value. -/
def showBool (b : Bool) : String := if b then "true" else "false"

namespace Color

/-- How messages show a colour. -/
def listing (c : Color) : String :=
  showRecord "Color"
    [("r", toString c.red), ("g", toString c.green), ("b", toString c.blue),
      ("a", toString c.alpha)]

end Color

namespace FontStyle

/-- How messages show a font style. -/
def listing (s : FontStyle) : String :=
  showRecord "FontStyle" [("bold", showBool s.bold), ("italic", showBool s.italic),
    ("underline", showBool s.underline), ("strikethrough", showBool s.strikethrough)]

end FontStyle

namespace FontSize

/-- How messages show a font size. -/
def listing (s : FontSize) : String :=
  if s.isNaN then "NaN"
  else if s.magnitude = Decimal.infinityBits then
    if s.bits = s.magnitude then "inf" else "-inf"
  else messageStyle.write s.bits

end FontSize

namespace OtherSettings

/-- How messages show settings that are kept as text. -/
def listing (s : OtherSettings) : String :=
  "\x7b" ++ ", ".intercalate (s.entries.map fun (k, v) => Text.quoted k ++ ": " ++ Text.quoted v)
    ++ "\x7d"

end OtherSettings

namespace Attributes

/-- How messages show display attributes. -/
def listing (a : Attributes) : String :=
  showRecord "Attributes" [
    ("foreground", showOption Color.listing a.foreground),
    ("background", showOption Color.listing a.background),
    ("caret", showOption Color.listing a.caret),
    ("selection", showOption Color.listing a.selection),
    ("invisibles", showOption Color.listing a.invisibles),
    ("line_highlight", showOption Color.listing a.lineHighlight),
    ("font_style", showOption FontStyle.listing a.fontStyle),
    ("font_name", showOption Text.quoted a.fontName),
    ("font_size", showOption FontSize.listing a.fontSize),
    ("other", a.other.listing)]

end Attributes

namespace Span

/-- How messages show a span. -/
def listing (s : Span) : String := toString s.start ++ ".." ++ toString s.stop

end Span

namespace Scope

/-- How messages show a scope. -/
def listing (s : Scope) : String :=
  showRecord "Scope" [("identifier", Text.quoted s.name), ("range", s.span.listing),
    ("attribute", showOption Attributes.listing s.attributes)]

end Scope

namespace Flaw

/-- The wording of a flaw. -/
def message : Flaw → String
  | notSpanning span length =>
    "global scope " ++ span.listing ++ " does not span the text (len " ++ toString length ++ ")"
  | overlap level a b =>
    "level " ++ toString level ++ ": " ++ a.listing ++ " overlaps " ++ b.listing
  | badSpan level scope => "level " ++ toString level ++ ": bad range for " ++ scope.listing
  | noParent level scope =>
    "level " ++ toString level ++ ": " ++ scope.listing ++ " has no enclosing parent"

end Flaw

end TextScopes
