import TextScopes.Unicode.Property

/-!
# Quoted text

The form in which messages show a name: in double quotes, with a backslash before quotes and
backslashes, letters for the common control characters, and the code point in braces for every other
character that is not printable or that extends the one before it.
-/

namespace TextScopes.Text

/-- The lower-case hexadecimal digits of `n`. -/
def hexDigits (n : Nat) : List Char := Nat.toDigits 16 n

/-- The characters that stand for `c` in quoted text. -/
def quoteChar (c : Char) : List Char :=
  if c = '\x00' then ['\\', '0']
  else if c = '\t' then ['\\', 't']
  else if c = '\r' then ['\\', 'r']
  else if c = '\n' then ['\\', 'n']
  else if c = '"' then ['\\', '"']
  else if c = '\\' then ['\\', '\\']
  else if ' ' ≤ c ∧ c ≤ '~' then [c]
  else if Unicode.graphemeExtend.contains c || !Unicode.printable.contains c then
    ['\\', 'u', '\x7b'] ++ hexDigits c.toNat ++ ['\x7d']
  else [c]

/-- The text in quotes. -/
def quoted (text : String) : String := String.ofList ('"' :: text.toList.flatMap quoteChar ++ ['"'])

end TextScopes.Text
