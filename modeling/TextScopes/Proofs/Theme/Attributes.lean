import TextScopes.Theme.Attributes
import TextScopes.Proofs.Table

/-!
# What attributes set

A setting is one of the typed attributes, or one that is kept as text under its key. Each is set or
left unset on its own (`Attributes.get?`), and that is all that an override looks at: of every
setting it keeps what the top sets, else what the base had (`Attributes.get?_override`). Of many
attributes put over each other the last that sets a setting wins (`Attributes.get?_foldl_override`).
Attributes are known from their settings (`Attributes.ext_get?`), so that to override is associative
and the empty attributes are its identity.

Attributes are compared by what they set, font sizes as doubles. No attributes with a font size that
is no number are the same as any, themselves included; of the others those that are the same form
classes (`Attributes.same_symm`, `Attributes.same_trans`).
-/

namespace TextScopes

namespace FontSize

/-- Doubles are equal when neither is no number, and the bits are the same or both are zeros. -/
theorem same_iff (a b : FontSize) : a.same b = true ↔ a.isNaN = false ∧ b.isNaN = false ∧
    (a = b ∨ (a.magnitude = 0 ∧ b.magnitude = 0)) := by
  have hbits : a.bits = b.bits ↔ a = b := by
    cases a
    cases b
    simp
  simp [same, hbits, and_assoc]

/-- Equality of doubles reads either way. -/
theorem same_symm {a b : FontSize} (h : a.same b = true) : b.same a = true := by
  obtain ⟨ha, hb, heq⟩ := (same_iff a b).1 h
  exact (same_iff b a).2 ⟨hb, ha, heq.imp Eq.symm And.symm⟩

/-- Equality of doubles is transitive. -/
theorem same_trans {a b c : FontSize} (hab : a.same b = true) (hbc : b.same c = true) :
    a.same c = true := by
  obtain ⟨ha, -, hab⟩ := (same_iff a b).1 hab
  obtain ⟨-, hc, hbc⟩ := (same_iff b c).1 hbc
  refine (same_iff a c).2 ⟨ha, hc, ?_⟩
  rcases hab with rfl | ⟨hza, hzb⟩
  · exact hbc
  · rcases hbc with rfl | ⟨-, hzc⟩
    · exact .inr ⟨hza, hzb⟩
    · exact .inr ⟨hza, hzc⟩

end FontSize

/-- What attributes can set. -/
inductive Setting where
  | foreground
  | background
  | caret
  | selection
  | invisibles
  | lineHighlight
  | fontStyle
  | fontName
  | fontSize
  | other (key : String)

/-- What a setting is set to. -/
def Setting.Value : Setting → Type
  | foreground | background | caret | selection | invisibles | lineHighlight => Color
  | fontStyle => FontStyle
  | fontName => String
  | fontSize => FontSize
  | other _ => String

namespace Attributes

/-- What the attributes set a setting to, if they set it. -/
def get? (a : Attributes) : (setting : Setting) → Option setting.Value
  | .foreground => a.foreground
  | .background => a.background
  | .caret => a.caret
  | .selection => a.selection
  | .invisibles => a.invisibles
  | .lineHighlight => a.lineHighlight
  | .fontStyle => a.fontStyle
  | .fontName => a.fontName
  | .fontSize => a.fontSize
  | .other key => a.other.find? key

/-- No setting is set where no attribute is. -/
@[simp]
theorem get?_empty (setting : Setting) : empty.get? setting = none := by
  cases setting <;> rfl

/-- An override replaces just the settings that the top sets. -/
theorem get?_override (base top : Attributes) (setting : Setting) :
    (base.override top).get? setting = (top.get? setting).or (base.get? setting) := by
  cases setting with
  | other key => exact base.other.find?_override top.other key
  | _ => rfl

/-- Of attributes put over each other the last that sets a setting wins, and the base when none
does. -/
theorem get?_foldl_override (tops : List Attributes) (base : Attributes) (setting : Setting) :
    (tops.foldl override base).get? setting =
      (tops.reverse.findSome? (·.get? setting)).or (base.get? setting) := by
  induction tops generalizing base with
  | nil => rfl
  | cons top tops ih =>
    rw [List.foldl_cons, ih, get?_override, List.reverse_cons, List.findSome?_append,
      List.findSome?_singleton, Option.or_assoc]

/-- Attributes that set the same to the same are equal. -/
theorem ext_get? {a b : Attributes} (h : ∀ setting, a.get? setting = b.get? setting) : a = b := by
  -- The nine known settings are fields, and all others stand in the table.
  have hother : a.other = b.other := Table.ext_find? fun key => h (.other key)
  obtain ⟨_, _, _, _, _, _, _, _, _, _⟩ := a
  obtain ⟨_, _, _, _, _, _, _, _, _, _⟩ := b
  obtain rfl := h .foreground
  obtain rfl := h .background
  obtain rfl := h .caret
  obtain rfl := h .selection
  obtain rfl := h .invisibles
  obtain rfl := h .lineHighlight
  obtain rfl := h .fontStyle
  obtain rfl := h .fontName
  obtain rfl := h .fontSize
  obtain rfl := hother
  rfl

/-- Of three attributes put over each other it does not matter which two are taken first. -/
theorem override_assoc (a b c : Attributes) :
    (a.override b).override c = a.override (b.override c) := by
  refine ext_get? fun setting => ?_
  rw [get?_override, get?_override, get?_override, get?_override, Option.or_assoc]

/-- Attributes that are put over nothing stay as they are. -/
theorem empty_override (a : Attributes) : empty.override a = a := by
  refine ext_get? fun setting => ?_
  rw [get?_override, get?_empty, Option.or_none]

/-- Attributes that are put over themselves stay as they are. -/
theorem override_self (a : Attributes) : a.override a = a := by
  refine ext_get? fun setting => ?_
  rw [get?_override, Option.or_self]

/-- Font sizes that are both unset or equal are so either way. -/
theorem sameSize_symm {a b : Option FontSize} (h : sameSize a b = true) : sameSize b a = true := by
  cases a <;> cases b
  case some.some => exact FontSize.same_symm h
  all_goals exact h

/-- Being both unset or equal is transitive. -/
theorem sameSize_trans {a b c : Option FontSize} (hab : sameSize a b = true)
    (hbc : sameSize b c = true) : sameSize a c = true := by
  cases b with
  | none =>
    cases a with
    | none => exact hbc
    | some size => cases hab
  | some size =>
    cases a <;> cases c
    case some.some => exact FontSize.same_trans hab hbc
    all_goals first | cases hab | cases hbc

/-- Attributes are the same when the font sizes are and everything else is equal. -/
theorem same_iff (a b : Attributes) : a.same b = true ↔
    sameSize a.fontSize b.fontSize = true ∧
      { a with fontSize := none } = { b with fontSize := none } := by
  rw [same, Bool.and_eq_true, decide_eq_true_eq]

/-- Being the same reads either way. -/
theorem same_symm {a b : Attributes} (h : a.same b = true) : b.same a = true := by
  obtain ⟨hsize, hrest⟩ := (same_iff a b).1 h
  exact (same_iff b a).2 ⟨sameSize_symm hsize, hrest.symm⟩

/-- Being the same is transitive. -/
theorem same_trans {a b c : Attributes} (hab : a.same b = true) (hbc : b.same c = true) :
    a.same c = true := by
  obtain ⟨hsize, hrest⟩ := (same_iff a b).1 hab
  obtain ⟨hsize', hrest'⟩ := (same_iff b c).1 hbc
  exact (same_iff a c).2 ⟨sameSize_trans hsize hsize', hrest.trans hrest'⟩

end Attributes

end TextScopes
