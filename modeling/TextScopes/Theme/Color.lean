import TextScopes.Text.Blank
import TextScopes.Json.Reader

/-!
# Colours and font styles

A colour is written `#RGB`, `#RRGGBB` or `#RRGGBBAA`, blanks around it aside; without an alpha
channel it is opaque. A font style is a list of words that set flags, where `plain` clears them all.
-/

namespace TextScopes

/-- A colour with an alpha channel. -/
structure Color where
  red : UInt8
  green : UInt8
  blue : UInt8
  alpha : UInt8
  deriving DecidableEq, Inhabited, Repr

namespace Color

/-- A colour without transparency. -/
def opaqueColor (red green blue : UInt8) : Color := ⟨red, green, blue, 0xff⟩

/-- The channel that a single hexadecimal digit writes: the digit twice. -/
def single? (d : Char) : Option UInt8 := (Json.hexDigit? d).map fun n => (n * 0x11).toUInt8

/-- The channel that two characters write. A plus sign may stand for the leading digit. -/
def pair? (a b : Char) : Option UInt8 := do
  let high ← if a = '+' then some 0 else Json.hexDigit? a
  let low ← Json.hexDigit? b
  return (high * 16 + low).toUInt8

/-- The colour that the characters behind the hash write. -/
def ofDigits? : List Char → Option Color
  | [r, g, b] => do return opaqueColor (← single? r) (← single? g) (← single? b)
  | [r, r', g, g', b, b'] => do
    return opaqueColor (← pair? r r') (← pair? g g') (← pair? b b')
  | [r, r', g, g', b, b', a, a'] => do
    return ⟨← pair? r r', ← pair? g g', ← pair? b b', ← pair? a a'⟩
  | _ => none

/-- The colour that `text` writes (`from_hex`). -/
def ofHex? (text : String) : Option Color :=
  match Text.trim text.toList with
  | '#' :: digits => ofDigits? digits
  | _ => none

end Color

/-- The flags of a font style. -/
structure FontStyle where
  bold : Bool
  italic : Bool
  underline : Bool
  strikethrough : Bool
  deriving DecidableEq, Inhabited, Repr

namespace FontStyle

/-- The style with no flag set. -/
def plain : FontStyle := ⟨false, false, false, false⟩

/-- The style after one more word: it sets its flag, clears all of them, or is unknown. -/
def addWord (style : FontStyle) (word : String) : FontStyle :=
  if word = "bold" then { style with bold := true }
  else if word = "italic" then { style with italic := true }
  else if word = "underline" then { style with underline := true }
  else if word = "strikethrough" then { style with strikethrough := true }
  else if word = "plain" then plain
  else style

/-- The style that a text of words gives. -/
def ofText (text : String) : FontStyle :=
  ((Text.words text.toList).map String.ofList).foldl addWord plain

/-- The names of the flags that are set. -/
def flags (style : FontStyle) : List String :=
  (if style.bold then ["bold"] else []) ++ (if style.italic then ["italic"] else [])
    ++ (if style.underline then ["underline"] else [])
    ++ (if style.strikethrough then ["strikethrough"] else [])

end FontStyle

end TextScopes
