import TextScopes.Json.Value

/-!
# Reading JSON text

A strict reader: no byte-order mark, comments, trailing commas, raw control characters or lone
surrogates, and nothing but blanks behind the value. Brackets may nest to a given depth. Numbers
without a point or exponent that fit 64 bits are integers; the others are doubles, read from the
leading digits that fit 64 bits and scaled in one or two steps, and an error when they are infinite.

The functions take the characters left and return those behind what they read. Recursion is on a
fuel that the length of the text provides, since every step takes a character.
-/

namespace TextScopes.Json

/-- The brackets that may be open at once in a document. -/
def nestingLimit : Nat := 127

/-- The four blanks of JSON. -/
def isBlank (c : Char) : Bool := c = ' ' || c = '\n' || c = '\t' || c = '\r'

/-- The text without the blanks at its front. -/
def skipBlanks (cs : List Char) : List Char := cs.dropWhile isBlank

/-- The text behind the literal `word`. -/
def expect (word cs : List Char) : Option (List Char) :=
  match word, cs with
  | [], cs => some cs
  | w :: word, c :: cs => if w = c then expect word cs else none
  | _ :: _, [] => none

/-- The value of a hexadecimal digit. -/
def hexDigit? (c : Char) : Option Nat :=
  if c.isDigit then some (c.toNat - '0'.toNat)
  else if 'a' ≤ c ∧ c ≤ 'f' then some (c.toNat - 'a'.toNat + 10)
  else if 'A' ≤ c ∧ c ≤ 'F' then some (c.toNat - 'A'.toNat + 10)
  else none

/-- The number that four hexadecimal digits write. -/
def hexUnit : List Char → Option (Nat × List Char)
  | a :: b :: c :: d :: rest => do
    let a ← hexDigit? a
    let b ← hexDigit? b
    let c ← hexDigit? c
    let d ← hexDigit? d
    return (((a * 16 + b) * 16 + c) * 16 + d, rest)
  | _ => none

/-- The character of a `\u` escape, behind the `u`: one unit, or a high and a low surrogate. -/
def unicodeEscape (cs : List Char) : Option (Char × List Char) := do
  let (high, rest) ← hexUnit cs
  if 0xDC00 ≤ high ∧ high ≤ 0xDFFF then none
  -- A high surrogate asks for a low one right behind it.
  else if 0xD800 ≤ high ∧ high ≤ 0xDBFF then
    match rest with
    | '\\' :: 'u' :: rest =>
      let (low, rest) ← hexUnit rest
      if 0xDC00 ≤ low ∧ low ≤ 0xDFFF then
        return (Char.ofNat (0x10000 + (high - 0xD800) * 0x400 + (low - 0xDC00)), rest)
      else none
    | _ => none
  else return (Char.ofNat high, rest)

/-- The character that a one-letter escape stands for. -/
def simpleEscape? : Char → Option Char
  | '"' => some '"'
  | '\\' => some '\\'
  | '/' => some '/'
  | 'b' => some '\x08'
  | 'f' => some '\x0c'
  | 'n' => some '\n'
  | 'r' => some '\r'
  | 't' => some '\t'
  | _ => none

/-- The characters of a string up to its closing quote, behind the opening one. -/
def stringBody : Nat → List Char → List Char → Option (String × List Char)
  | 0, _, _ => none
  | _ + 1, _, [] => none
  | fuel + 1, read, c :: cs =>
    if c = '"' then some (String.ofList read.reverse, cs)
    else if c = '\\' then
      match cs with
      | 'u' :: cs => do
        let (c, cs) ← unicodeEscape cs
        stringBody fuel (c :: read) cs
      | e :: cs => do
        let c ← simpleEscape? e
        stringBody fuel (c :: read) cs
      | [] => none
    else if c < ' ' then none
    else stringBody fuel (c :: read) cs

/-- Leading decimal digits as a 64-bit number. The digits behind the last that fits are dropped and
counted. -/
structure Significand where
  value : Nat
  dropped : Nat
  full : Bool

/-- Takes one digit in. -/
def Significand.push (s : Significand) (c : Char) : Significand :=
  let next := s.value * 10 + (c.toNat - '0'.toNat)
  if s.full || UInt64.size ≤ next then ⟨s.value, s.dropped + 1, true⟩
  else ⟨next, 0, false⟩

/-- `significand * 10 ^ exponent` as a double, in steps that a double's range allows; nothing when
it is infinite. -/
def scale (significand : Nat) (exponent : Int) : Option Float :=
  let f := significand.toUInt64.toFloat
  let power (n : Nat) : Float := Float.ofScientific (Nat.pow 10 n) false 0
  if 0 ≤ exponent then
    if exponent ≤ 308 then
      let x := f * power exponent.toNat
      if x.isInf then none else some x
    else if significand = 0 then some f else none
  else
    let n := (-exponent).toNat
    if n ≤ 308 then some (f / power n)
    else if n ≤ 616 then some (f / power 308 / power (n - 308))
    else some 0.0

/-- The exponent part of a number, if one begins here. -/
def exponentPart : List Char → Option (Option Int × List Char)
  | c :: cs =>
    if c = 'e' ∨ c = 'E' then
      let (negative, cs) := match cs with
        | '+' :: cs => (false, cs)
        | '-' :: cs => (true, cs)
        | cs => (false, cs)
      let ds := cs.takeWhile Char.isDigit
      if ds = [] then none
      else
        let n : Int := ds.foldl (fun n d => 10 * n + (d.toNat - '0'.toNat)) (0 : Nat)
        some (some (if negative then -n else n), cs.dropWhile Char.isDigit)
    else some (none, c :: cs)
  | [] => some (none, [])

/-- An unsigned number's parts: the digits kept, the power of ten they count, and whether a point
or an exponent was written. -/
structure NumberParts where
  significand : Nat
  exponent : Int
  whole : Bool

/-- Reads an unsigned number. A leading zero stands alone, and a point needs a digit behind it. -/
def numberParts (cs : List Char) : Option (NumberParts × List Char) := do
  let ds := cs.takeWhile Char.isDigit
  let rest := cs.dropWhile Char.isDigit
  if ds = [] ∨ (ds.head? = some '0' ∧ ds.length ≠ 1) then none
  let s := ds.foldl Significand.push ⟨0, 0, false⟩
  let (s, exponent, point, rest) ← match rest with
    | '.' :: rest =>
      let fs := rest.takeWhile Char.isDigit
      let t := fs.foldl Significand.push ⟨s.value, 0, false⟩
      -- Digits behind the point count, as far as they are kept, for a smaller power of ten.
      let kept : Int := fs.length - t.dropped
      if fs = [] then none
      else some (t.value, (s.dropped : Int) - kept, true, rest.dropWhile Char.isDigit)
    | rest => some (s.value, (s.dropped : Int), false, rest)
  let (e, rest) ← exponentPart rest
  match e with
  | some e => return (⟨s, exponent + e, false⟩, rest)
  | none => return (⟨s, exponent, !point && exponent = 0⟩, rest)

/-- The number with the given sign and parts. Minus zero and integers out of range are doubles. -/
def NumberParts.toNumber (parts : NumberParts) (negative : Bool) : Option Number := do
  if parts.whole && !negative then return .natural parts.significand
  else if parts.whole && 0 < parts.significand && parts.significand ≤ Nat.pow 2 63 then
    return .negative parts.significand
  else
    let x ← scale parts.significand parts.exponent
    return .double (if negative then (-x).toBits else x.toBits)

/-- Reads a number. -/
def number (cs : List Char) : Option (Value × List Char) :=
  match cs with
  | '-' :: cs => do
    let (parts, rest) ← numberParts cs
    return (.number (← parts.toNumber true), rest)
  | cs => do
    let (parts, rest) ← numberParts cs
    return (.number (← parts.toNumber false), rest)

mutual

/-- Reads a value, with `depth` more brackets allowed to open. -/
def value : Nat → Nat → List Char → Option (Value × List Char)
  | 0, _, _ => none
  | fuel + 1, depth, cs =>
    match skipBlanks cs with
    | 'n' :: cs => (expect ['u', 'l', 'l'] cs).map (Value.null, ·)
    | 't' :: cs => (expect ['r', 'u', 'e'] cs).map (Value.bool true, ·)
    | 'f' :: cs => (expect ['a', 'l', 's', 'e'] cs).map (Value.bool false, ·)
    | '"' :: cs => (stringBody (cs.length + 1) [] cs).map fun (s, cs) => (.string s, cs)
    | '[' :: cs =>
      match depth with
      | 0 => none
      | depth + 1 =>
        match skipBlanks cs with
        | ']' :: cs => some (.array [], cs)
        | cs => items fuel depth [] cs
    | '\x7b' :: cs =>
      match depth with
      | 0 => none
      | depth + 1 =>
        match skipBlanks cs with
        | '\x7d' :: cs => some (.object [], cs)
        | cs => fields fuel depth [] cs
    | cs => number cs

/-- Reads the items of an array from the next one on, given those before it, last first. -/
def items : Nat → Nat → List Value → List Char → Option (Value × List Char)
  | 0, _, _, _ => none
  | fuel + 1, depth, before, cs => do
    let (v, cs) ← value fuel depth cs
    match skipBlanks cs with
    | ',' :: cs => items fuel depth (v :: before) cs
    | ']' :: cs => return (.array (v :: before).reverse, cs)
    | _ => none

/-- Reads the fields of an object from the next one on, given those before it. -/
def fields : Nat → Nat → List (String × Value) → List Char → Option (Value × List Char)
  | 0, _, _, _ => none
  | fuel + 1, depth, before, cs => do
    let '"' :: cs := skipBlanks cs | none
    let (key, cs) ← stringBody (cs.length + 1) [] cs
    let ':' :: cs := skipBlanks cs | none
    let (v, cs) ← value fuel depth cs
    let now := setField before key v
    match skipBlanks cs with
    | ',' :: cs => fields fuel depth now cs
    | '\x7d' :: cs => return (.object now, cs)
    | _ => none

end

/-- The value that `text` writes, brackets nesting to at most `depth`. -/
def read? (text : String) (depth : Nat) : Option Value := do
  let cs := text.toList
  let (v, rest) ← value (2 * cs.length + 2) depth cs
  if skipBlanks rest = [] then some v else none

end TextScopes.Json
