import TextScopes.Theme.Color
import TextScopes.Decimal.Reading
import TextScopes.Json.Printer
import TextScopes.Table

/-!
# Display attributes

What a theme says about the look of a scope. Every attribute may be left unset; `override`
replaces the attributes that a second value sets and keeps the others. Settings without a
typed attribute, and those whose text does not fit theirs, are kept as text under their key,
the keys in ascending order.
-/

namespace TextScopes

/-- A font size as a double, kept by its bits. -/
structure FontSize where
  bits : UInt64
  deriving DecidableEq, Inhabited, Repr

namespace FontSize

/-- The bits without the sign. -/
def magnitude (size : FontSize) : UInt64 := size.bits &&& 0x7fffffffffffffff

/-- Whether the size is no number. -/
def isNaN (size : FontSize) : Bool := Decimal.infinityBits < size.magnitude

/-- Equality of doubles: the two zeros are equal, and what is no number equals nothing. -/
def same (a b : FontSize) : Bool :=
  !a.isNaN && !b.isNaN && (a.bits = b.bits || (a.magnitude = 0 && b.magnitude = 0))

end FontSize

/-- Settings kept as text, by their keys. -/
abbrev OtherSettings := Table String String

/-- The display attributes of a scope. -/
structure Attributes where
  foreground : Option Color
  background : Option Color
  caret : Option Color
  selection : Option Color
  invisibles : Option Color
  lineHighlight : Option Color
  fontStyle : Option FontStyle
  fontName : Option String
  fontSize : Option FontSize
  /-- What has no typed attribute. -/
  other : OtherSettings
  deriving DecidableEq, Inhabited, Repr

namespace Attributes

/-- No attribute set. -/
def empty : Attributes := ⟨none, none, none, none, none, none, none, none, none, .empty⟩

/-- The first attributes with those that the second set put over them (`merged_with`). -/
def override (base top : Attributes) : Attributes where
  foreground := top.foreground.or base.foreground
  background := top.background.or base.background
  caret := top.caret.or base.caret
  selection := top.selection.or base.selection
  invisibles := top.invisibles.or base.invisibles
  lineHighlight := top.lineHighlight.or base.lineHighlight
  fontStyle := top.fontStyle.or base.fontStyle
  fontName := top.fontName.or base.fontName
  fontSize := top.fontSize.or base.fontSize
  other := base.other.override top.other

/-- Whether two font sizes are both unset or equal as doubles. -/
def sameSize : Option FontSize → Option FontSize → Bool
  | none, none => true
  | some a, some b => a.same b
  | _, _ => false

/-- Whether two values set the same attributes to the same values. -/
def same (a b : Attributes) : Bool :=
  sameSize a.fontSize b.fontSize && { a with fontSize := none } = { b with fontSize := none }

/-- The text of a setting: a string as it is, anything else as it is written in JSON. -/
def settingText : Json.Value → String
  | .string s => s
  | v => v.compact

/-- The font size that a setting gives: a number itself, else what its text reads as. -/
def fontSizeOf? (v : Json.Value) : Option FontSize :=
  match v with
  | .number n => some ⟨n.toBits⟩
  | v => (Decimal.read? (settingText v)).map FontSize.mk

/-- The attributes with the typed attribute of `key` set; nothing when there is none or the value
does not fit it. -/
def setTyped? (a : Attributes) (key : String) (v : Json.Value) : Option Attributes :=
  let text := settingText v
  if key = "foreground" then (Color.ofHex? text).map fun c => { a with foreground := some c }
  else if key = "background" then (Color.ofHex? text).map fun c => { a with background := some c }
  else if key = "caret" then (Color.ofHex? text).map fun c => { a with caret := some c }
  else if key = "selection" then (Color.ofHex? text).map fun c => { a with selection := some c }
  else if key = "invisibles" then (Color.ofHex? text).map fun c => { a with invisibles := some c }
  else if key = "lineHighlight" then
    (Color.ofHex? text).map fun c => { a with lineHighlight := some c }
  else if key = "fontStyle" then some { a with fontStyle := some (FontStyle.ofText text) }
  else if key = "fontName" then some { a with fontName := some text }
  else if key = "fontSize" then (fontSizeOf? v).map fun s => { a with fontSize := some s }
  else none

/-- The attributes after one more setting. -/
def set (a : Attributes) (key : String) (v : Json.Value) : Attributes :=
  match a.setTyped? key v with
  | some a => a
  | none => { a with other := a.other.insert key (settingText v) }

/-- The attributes that settings give, in the order of the document (`from_settings`). -/
def ofSettings (settings : List (String × Json.Value)) : Attributes :=
  settings.foldl (fun a (key, v) => a.set key v) empty

/-- Putting nothing over attributes keeps them. -/
theorem override_empty (a : Attributes) : a.override empty = a := by
  simp [override, empty, Table.override, Table.empty]

end Attributes

end TextScopes
