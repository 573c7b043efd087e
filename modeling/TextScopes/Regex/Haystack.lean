import TextScopes.Regex.Syntax

/-!
# Texts to search

A search walks over the characters of a text by their numbers; the groups that it finds are spans of
bytes. A `Haystack` holds the characters and the byte where each starts.
-/

namespace TextScopes.Regex

/-- A text as its characters and the byte offsets where they start, the end of the text last. -/
structure Haystack where
  chars : Array Char
  offsets : Array Nat
  deriving Inhabited

namespace Haystack

/-- The offsets where characters start, from `offset` on, and the offset of the end. -/
def starts : Nat → List Char → List Nat
  | offset, [] => [offset]
  | offset, c :: cs => offset :: starts (offset + c.utf8Size) cs

/-- The haystack of a text. -/
def ofText (text : String) : Haystack :=
  let cs := text.toList
  ⟨cs.toArray, (starts 0 cs).toArray⟩

/-- The number of characters. -/
def size (h : Haystack) : Nat := h.chars.size

/-- The character with the number `i`. -/
def at? (h : Haystack) (i : Nat) : Option Char := h.chars[i]?

/-- The character before the one with the number `i`. -/
def before? (h : Haystack) (i : Nat) : Option Char := if i = 0 then none else h.chars[i - 1]?

/-- The byte where the character with the number `i` starts. -/
def offset (h : Haystack) (i : Nat) : Nat := (h.offsets[i]?).getD 0

/-- The number of the character that starts at a byte offset. -/
def index? (h : Haystack) (offset : Nat) : Option Nat := h.offsets.findIdx? (· = offset)

/-- Whether a character is one of a word. -/
def isWord (c : Option Char) : Bool :=
  match c with
  | none => false
  | some c =>
    if c.toNat < 128 then c.isAlphanum || c = '_' else Unicode.word.contains c

/-- Whether an assertion holds in front of the character with the number `i`. -/
def holds (h : Haystack) (i : Nat) : Assertion → Bool
  | .textStart => i = 0
  | .textEnd => i = h.size
  | .lastLineEnd => (h.chars.extract i h.size).all (· = '\n')
  | .lineStart => i = 0 || h.before? i = some '\n'
  | .lineEnd => i = h.size || h.at? i = some '\n'
  | .wordBoundary => isWord (h.before? i) != isWord (h.at? i)
  | .notWordBoundary => isWord (h.before? i) == isWord (h.at? i)
  | .wordStart => !isWord (h.before? i) && isWord (h.at? i)
  | .wordEnd => isWord (h.before? i) && !isWord (h.at? i)
  | .wordStartHalf => !isWord (h.before? i)
  | .wordEndHalf => !isWord (h.at? i)

end Haystack

/-- Where the groups found so far start and stop: the start of group `n` at `2 n`, its end behind
it. -/
abbrev Slots := Array (Option Nat)

end TextScopes.Regex
