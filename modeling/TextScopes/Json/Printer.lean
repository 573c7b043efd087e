import TextScopes.Json.Value

/-!
# Writing JSON text

`compact` writes a value without blanks, fields in their order. `pretty` puts every item and field
on a line of its own, two blanks further in than the bracket that holds it. Quotes, backslashes and
control characters are escaped, the latter by letter where JSON has one.
-/

namespace TextScopes.Json

/-- Positive exponents carry a plus sign. -/
def doubleStyle : Decimal.Style := ⟨true⟩

/-- The lower-case hexadecimal digit of `n`. -/
def hexLetter (n : Nat) : Char :=
  if n < 10 then Char.ofNat ('0'.toNat + n) else Char.ofNat ('a'.toNat + (n - 10))

/-- The characters that stand for `c` in a quoted string. -/
def escape (c : Char) : List Char :=
  if c = '"' then ['\\', '"']
  else if c = '\\' then ['\\', '\\']
  else if c = '\x08' then ['\\', 'b']
  else if c = '\x0c' then ['\\', 'f']
  else if c = '\n' then ['\\', 'n']
  else if c = '\r' then ['\\', 'r']
  else if c = '\t' then ['\\', 't']
  else if c < ' ' then ['\\', 'u', '0', '0', hexLetter (c.toNat / 16), hexLetter (c.toNat % 16)]
  else [c]

/-- A string in quotes. -/
def quote (s : String) : String := String.ofList ('"' :: s.toList.flatMap escape ++ ['"'])

/-- The text of a number. -/
def Number.write : Number → String
  | natural n => toString n
  | negative n => "-" ++ toString n
  | double bits => doubleStyle.write bits

namespace Value

/-- The value's text without blanks. -/
def compact : Value → String
  | null => "null"
  | bool true => "true"
  | bool false => "false"
  | number n => n.write
  | string s => quote s
  | array items => "[" ++ ",".intercalate (compactItems items) ++ "]"
  | object fields => "\x7b" ++ ",".intercalate (compactFields fields) ++ "\x7d"
where
  compactItems : List Value → List String
    | [] => []
    | v :: vs => compact v :: compactItems vs
  compactFields : List (String × Value) → List String
    | [] => []
    | (k, v) :: rest => (quote k ++ ":" ++ compact v) :: compactFields rest

/-- Sets items on lines of their own between two brackets, `indent` giving the margin of the line
that opens them. -/
def block (opening closing indent : String) (lines : List String) : String :=
  if lines = [] then opening ++ closing
  else
    let margin := "\n" ++ indent ++ "  "
    opening ++ margin ++ ("," ++ margin).intercalate lines ++ "\n" ++ indent ++ closing

/-- The value's text over several lines, `indent` being the margin of the first. -/
def pretty (indent : String) : Value → String
  | null => "null"
  | bool true => "true"
  | bool false => "false"
  | number n => n.write
  | string s => quote s
  | array items => block "[" "]" indent (prettyItems (indent ++ "  ") items)
  | object fields => block "\x7b" "\x7d" indent (prettyFields (indent ++ "  ") fields)
where
  prettyItems (indent : String) : List Value → List String
    | [] => []
    | v :: vs => pretty indent v :: prettyItems indent vs
  prettyFields (indent : String) : List (String × Value) → List String
    | [] => []
    | (k, v) :: rest => (quote k ++ ": " ++ pretty indent v) :: prettyFields indent rest

end Value

end TextScopes.Json
