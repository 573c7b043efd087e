import TextScopes.Text.Blank

/-!
# Notations of expressions

An expression's text refers to groups by a backslash and a digit; a replacement refers to them by a
dollar and a digit. `swapNotation` takes each to the other, and is its own inverse. A placeholder is
a reference in backslash notation; `escapeLiteral` writes a text so that it stands for itself, and
`fillPlaceholders` puts such texts in the place of the references.
-/

namespace TextScopes.Notation

/-- The characters that have a meaning of their own in an expression. -/
def metacharacters : List Char :=
  ['\\', '|', '(', '[', '\x7b', '\x7d', ']', ')', '.', '?', '*', '+', '^', '$']

/-- The text with a backslash before every character that has a meaning of its own
(`escape_regex_literal`). -/
def escapeLiteral : List Char → List Char
  | [] => []
  | c :: cs => if c ∈ metacharacters then '\\' :: c :: escapeLiteral cs else c :: escapeLiteral cs

/-- Whether a backslash that no other escapes stands before a digit
(`has_back_reference_placeholder`). -/
def hasPlaceholder : List Char → Bool
  | '\\' :: d :: cs => d.isDigit || hasPlaceholder cs
  | _ :: cs => hasPlaceholder cs
  | [] => false

/-- Exchanges references in backslash and in dollar notation (`swap_reference_notation`). Other
escapes stay as they are. -/
def swapNotation : List Char → List Char
  | [] => []
  | [c] => [c]
  | c :: d :: cs =>
    if c = '\\' then (if d.isDigit then '$' else '\\') :: d :: swapNotation cs
    else if c = '$' ∧ d.isDigit then '\\' :: d :: swapNotation cs
    else c :: swapNotation (d :: cs)

/-- The number of the group that the digit behind a backslash refers to, if it refers to one. -/
def placeholder? (d : Char) : Option Nat :=
  if '1' ≤ d ∧ d ≤ '9' then some (d.toNat - '0'.toNat) else none

/-- The template with the escaped text of its group in the place of each reference
(`substitute_back_references`); nothing for a group without text. Escapes of other characters stay,
that of zero among them. -/
def fillPlaceholders (text? : Nat → Option (List Char)) : List Char → List Char
  | [] => []
  | [c] => [c]
  | c :: d :: cs =>
    if c = '\\' then
      match placeholder? d with
      | some n => escapeLiteral ((text? n).getD []) ++ fillPlaceholders text? cs
      | none => c :: d :: fillPlaceholders text? cs
    else c :: fillPlaceholders text? (d :: cs)

end TextScopes.Notation
