import TextScopes.Decimal.Shortest

/-!
# Reading decimals as doubles

`nearest` rounds a decimal to the nearest double. `read?` reads the text of a number: an optional
sign, then digits with at most one point among or beside them and an optional exponent, or a word
for infinity or for no number at all, in any case. Blanks, underscores and other bases are refused.
-/

namespace TextScopes.Decimal

/-- The double nearest to `digits * 10 ^ exponent`, infinite when that is too large. The guards keep
the powers of ten within what a double can tell apart. -/
def nearest (s : Scientific) : Float :=
  if s.digits = 0 then 0.0
  else
    let size : Int := (Nat.toDigits 10 s.digits).length + s.exponent
    if 400 < size then 1.0 / 0.0
    else if size < -400 then 0.0
    else if 0 ≤ s.exponent then
      Float.ofScientific (s.digits * Nat.pow 10 s.exponent.toNat) false 0
    else Float.ofScientific s.digits true (-s.exponent).toNat

/-- The decimal digits at the front of `cs`, and what follows. -/
def spanDigits (cs : List Char) : List Char × List Char :=
  (cs.takeWhile Char.isDigit, cs.dropWhile Char.isDigit)

/-- The number that decimal digits write. -/
def ofDigits (ds : List Char) : Nat := ds.foldl (fun n d => 10 * n + (d.toNat - '0'.toNat)) 0

/-- The number that `cs` writes in decimal digits alone, if it does. -/
def natural? (cs : List Char) : Option Nat :=
  if cs ≠ [] ∧ cs.all Char.isDigit then some (ofDigits cs) else none

/-- The exponent that `cs` writes: nothing at all, or a mark, an optional sign and digits. -/
def exponent? : List Char → Option Int
  | [] => some 0
  | c :: cs =>
    if c = 'e' ∨ c = 'E' then
      match cs with
      | '+' :: ds => (natural? ds).map Int.ofNat
      | '-' :: ds => (natural? ds).map fun n => -(n : Int)
      | ds => (natural? ds).map Int.ofNat
    else none

/-- The unsigned decimal that `cs` writes. -/
def unsigned? (cs : List Char) : Option Scientific := do
  let (whole, rest) := spanDigits cs
  let (fraction, rest) := match rest with
    | '.' :: rest => spanDigits rest
    | rest => ([], rest)
  if whole = [] ∧ fraction = [] then none
  let e ← exponent? rest
  return ⟨ofDigits (whole ++ fraction), e - fraction.length⟩

/-- The bits of positive infinity and of no number. -/
def infinityBits : UInt64 := 0x7ff0000000000000
/-- The bits of what is no number. -/
def nanBits : UInt64 := 0x7ff8000000000000

/-- The bits of the double that an unsigned text writes. -/
def unsignedBits? (cs : List Char) : Option UInt64 :=
  match unsigned? cs with
  | some s => some (nearest s).toBits
  | none =>
    let word := String.ofList (cs.map Char.toLower)
    if word = "inf" ∨ word = "infinity" then some infinityBits
    else if word = "nan" then some nanBits
    else none

/-- The bits of the double that `text` writes. -/
def read? (text : String) : Option UInt64 :=
  match text.toList with
  | '-' :: cs => (unsignedBits? cs).map (· ||| 0x8000000000000000)
  | '+' :: cs => unsignedBits? cs
  | cs => unsignedBits? cs

end TextScopes.Decimal
