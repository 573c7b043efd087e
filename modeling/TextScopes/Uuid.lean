import TextScopes.Json.Printer
import TextScopes.Json.Reader

/-!
# Universally unique identifiers

An identifier of 128 bits, held as its 32 hexadecimal digits. It is written as those digits alone,
or in groups of 8, 4, 4, 4 and 12 joined by hyphens; the grouped form may stand in braces or behind
`urn:uuid:` in any case. It is shown in lower-case groups.
-/

namespace TextScopes

/-- An identifier, as the values of its 32 hexadecimal digits. -/
structure Uuid where
  digits : List Nat
  deriving DecidableEq, Inhabited, Repr

namespace Uuid

/-- The values of hexadecimal digits. -/
def hexValues? (cs : List Char) : Option (List Nat) := cs.mapM Json.hexDigit?

/-- The identifier that 32 digits write. -/
def ofPlain? (cs : List Char) : Option Uuid :=
  if cs.length = 32 then (hexValues? cs).map Uuid.mk else none

/-- The identifier that 36 characters of digits in groups write. -/
def ofGrouped? (cs : List Char) : Option Uuid :=
  let hyphens := [8, 13, 18, 23]
  if cs.length = 36 ∧ hyphens.all (fun i => cs[i]? = some '-') then
    ofPlain? (cs.filter (· ≠ '-'))
  else none

/-- Takes the characters of `word` off the front of `cs`, in any case. -/
def dropWord? : List Char → List Char → Option (List Char)
  | [], cs => some cs
  | w :: word, c :: cs => if c.toLower = w then dropWord? word cs else none
  | _ :: _, [] => none

/-- The identifier that `text` writes. -/
def ofText? (text : String) : Option Uuid :=
  let cs := text.toList
  match ofPlain? cs with
  | some uuid => some uuid
  | none =>
    match ofGrouped? cs with
    | some uuid => some uuid
    | none =>
      match dropWord? "urn:uuid:".toList cs with
      | some cs => ofGrouped? cs
      | none =>
        match cs with
        | '\x7b' :: cs =>
          match cs.reverse with
          | '\x7d' :: cs => ofGrouped? cs.reverse
          | _ => none
        | _ => none

/-- The identifier in lower-case groups. -/
def toText (uuid : Uuid) : String :=
  let cs := uuid.digits.map Json.hexLetter
  "-".intercalate ([(0, 8), (8, 4), (12, 4), (16, 4), (20, 12)].map fun (start, count) =>
    String.ofList ((cs.drop start).take count))

end Uuid

end TextScopes
