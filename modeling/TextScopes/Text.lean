import TextScopes.Span

/-!
# Byte offsets into a text

Offsets count the bytes of a text's UTF-8 form. `split?` cuts a text at an offset and fails off the
character boundaries; slices, lines and the two edits are defined through it, so that each is stated
on characters and measured in bytes.
-/

namespace TextScopes.Text

/-- The bytes that `cs` takes. -/
def byteCount : List Char → Nat
  | [] => 0
  | c :: cs => c.utf8Size + byteCount cs

/-- The characters before byte `n` and those from it on; nothing when `n` falls inside a character
or behind the text. -/
def split? : List Char → Nat → Option (List Char × List Char)
  | cs, 0 => some ([], cs)
  | [], _ + 1 => none
  | c :: cs, n + 1 =>
    if c.utf8Size ≤ n + 1 then
      (split? cs (n + 1 - c.utf8Size)).map fun (before, after) => (c :: before, after)
    else none

/-- Whether a character starts at `offset` or the text ends there. -/
def isBoundary (text : String) (offset : Nat) : Bool := (split? text.toList offset).isSome

/-- The text in `span`; nothing when the span is inverted, leaves the text or cuts a character. -/
def slice? (text : String) (span : Span) : Option String := do
  if span.stop < span.start then none
  let (_, rest) ← split? text.toList span.start
  let (inner, _) ← split? rest (span.stop - span.start)
  return String.ofList inner

/-- The text from `offset` on; empty where that is no boundary. -/
def drop (text : String) (offset : Nat) : String :=
  match split? text.toList offset with
  | some (_, after) => String.ofList after
  | none => ""

/-- The offset behind the character that starts at `offset`; nothing at the end of the text. -/
def next? (text : String) (offset : Nat) : Option Nat := do
  let (_, after) ← split? text.toList offset
  let c ← after.head?
  return offset + c.utf8Size

/-- The text with `inserted` put in at `offset`; unchanged where that is no boundary. -/
def insert (text : String) (offset : Nat) (inserted : String) : String :=
  match split? text.toList offset with
  | some (before, after) => String.ofList (before ++ inserted.toList ++ after)
  | none => text

/-- The text without the bytes in `span`; unchanged when the span does not fit it. -/
def delete (text : String) (span : Span) : String :=
  match split? text.toList span.start, split? text.toList span.stop with
  | some (before, _), some (_, after) => String.ofList (before ++ after)
  | _, _ => text

/-- The lines of `cs`, each with the newline that ends it; no line follows a final newline. -/
def splitLines : List Char → List (List Char)
  | [] => []
  | c :: cs =>
    if c = '\n' then [c] :: splitLines cs
    else
      match splitLines cs with
      | [] => [[c]]
      | line :: lines => (c :: line) :: lines

/-- A line of a text and the offset where it starts. -/
structure Line where
  start : Nat
  content : String
  deriving DecidableEq, Inhabited, Repr

namespace Line

/-- The offset just behind the line. -/
def stop (line : Line) : Nat := line.start + line.content.utf8ByteSize

end Line

/-- Numbers lines by the byte where each starts. -/
def placeLines : Nat → List (List Char) → List Line
  | _, [] => []
  | start, cs :: rest =>
    let line : Line := ⟨start, String.ofList cs⟩
    line :: placeLines line.stop rest

/-- The lines of `text` from the line start `offset` on (`line_ranges`). -/
def linesFrom (text : String) (offset : Nat) : List Line :=
  placeLines offset (splitLines (drop text offset).toList)

/-- The lines of `text`, each with its trailing newline. -/
def lines (text : String) : List Line := linesFrom text 0

/-- The bytes of `cs` up to and including its last newline; zero without one. -/
def lastLineStart (cs : List Char) : Nat :=
  byteCount (cs.reverse.dropWhile (· != '\n'))

/-- The start of the line that holds `offset`. -/
def lineStart (text : String) (offset : Nat) : Nat :=
  match split? text.toList offset with
  | some (before, _) => lastLineStart before
  | none => 0

/-- Cutting a text loses no character. -/
theorem append_of_split? {cs before after : List Char} {n : Nat}
    (h : split? cs n = some (before, after)) : before ++ after = cs := by
  fun_induction split? cs n generalizing before after with
  | case1 => simp_all
  | case2 => simp at h
  | case3 c cs n hc ih =>
    obtain ⟨⟨b, a⟩, hs, he⟩ := Option.map_eq_some_iff.1 h
    obtain ⟨rfl, rfl⟩ : c :: b = before ∧ a = after := by simpa using he
    simp [ih hs]
  | case4 => simp at h

/-- The first part of a cut text has exactly as many bytes as asked for. -/
theorem byteCount_of_split? {cs before after : List Char} {n : Nat}
    (h : split? cs n = some (before, after)) : byteCount before = n := by
  fun_induction split? cs n generalizing before after with
  | case1 => simp_all [byteCount]
  | case2 => simp at h
  | case3 c cs n hc ih =>
    obtain ⟨⟨b, a⟩, hs, he⟩ := Option.map_eq_some_iff.1 h
    obtain ⟨rfl, rfl⟩ : c :: b = before ∧ a = after := by simpa using he
    simp only [byteCount, ih hs]
    omega
  | case4 => simp at h

/-- Putting the lines of a text together again gives the text. -/
theorem flatten_splitLines (cs : List Char) : (splitLines cs).flatten = cs := by
  induction cs with
  | nil => rfl
  | cons c cs ih =>
    unfold splitLines
    split
    · simp [ih]
    · split
      · simp_all
      · simp_all

end TextScopes.Text
