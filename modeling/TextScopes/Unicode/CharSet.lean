import TextScopes.Text.Blank
import TextScopes.Json.Reader

/-!
# Sets of characters

A `CharSet` is a set of code points as ranges in ascending order that neither overlap nor touch,
with the operations that bracket expressions need. Sets are written as hexadecimal code points and
ranges of them, parted by blanks.
-/

namespace TextScopes.Unicode

/-- A set of code points: the first and last of each range, the ranges in ascending order. -/
structure CharSet where
  ranges : Array (Nat × Nat)
  deriving DecidableEq, Inhabited, Repr

namespace CharSet

/-- The last code point. -/
def lastCode : Nat := 0x10FFFF

/-- No character. -/
def empty : CharSet := ⟨#[]⟩

/-- The characters from `first` to `last`. -/
def ofRange (first last : Nat) : CharSet := ⟨#[(first, last)]⟩

/-- Every character. -/
def all : CharSet := ofRange 0 lastCode

/-- Joins ranges that overlap or touch; they come in the order of their first members. -/
def join : List (Nat × Nat) → List (Nat × Nat)
  | [] => []
  | [r] => [r]
  | (a, b) :: (c, d) :: rest =>
    if c ≤ b + 1 then join ((a, max b d) :: rest) else (a, b) :: join ((c, d) :: rest)
termination_by rs => rs.length

/-- The characters of any of the ranges, in whatever order they come. -/
def ofRanges (ranges : List (Nat × Nat)) : CharSet :=
  ⟨(join (ranges.mergeSort fun r s => r.1 ≤ s.1)).toArray⟩

/-- The characters with the given code points. -/
def ofCodes (codes : List Nat) : CharSet := ofRanges (codes.map fun n => (n, n))

/-- The number that hexadecimal digits write. -/
def readHex (cs : List Char) : Nat := cs.foldl (fun n c => 16 * n + (Json.hexDigit? c).getD 0) 0

/-- The range that a code point or two joined by a hyphen write. -/
def readRange (cs : List Char) : Nat × Nat :=
  match Text.splitOn (· = '-') cs with
  | [first, last] => (readHex first, readHex last)
  | _ => (readHex cs, readHex cs)

/-- The set that rows of ranges write. -/
def ofRows (rows : List String) : CharSet :=
  ofRanges (rows.flatMap fun row => (Text.words row.toList).map readRange)

/-- The characters of either set. -/
def union (a b : CharSet) : CharSet := ofRanges (a.ranges.toList ++ b.ranges.toList)

/-- The gaps between ranges, from `next` on. -/
def gaps : Nat → List (Nat × Nat) → List (Nat × Nat)
  | next, [] => if next ≤ lastCode then [(next, lastCode)] else []
  | next, (a, b) :: rest =>
    if next < a then (next, a - 1) :: gaps (b + 1) rest
    else gaps (b + 1) rest

/-- The characters that the set lacks. -/
def complement (a : CharSet) : CharSet := ⟨(gaps 0 a.ranges.toList).toArray⟩

/-- The characters of both sets. -/
def intersection (a b : CharSet) : CharSet := (a.complement.union b.complement).complement

/-- The characters of the first set that the second lacks. -/
def difference (a b : CharSet) : CharSet := a.intersection b.complement

/-- The characters of exactly one of the sets. -/
def symmetricDifference (a b : CharSet) : CharSet :=
  (a.union b).difference (a.intersection b)

/-- Whether the code point `n` lies in a range with an index from `low` up to `high`. -/
def search (ranges : Array (Nat × Nat)) (n : Nat) : Nat → Nat → Nat → Bool
  | 0, _, _ => false
  | fuel + 1, low, high =>
    if low < high then
      let middle := (low + high) / 2
      match ranges[middle]? with
      | some (a, b) =>
        if n < a then search ranges n fuel low middle
        else if b < n then search ranges n fuel (middle + 1) high
        else true
      | none => false
    else false

/-- Whether the code point `n` belongs to the set. -/
def holds (set : CharSet) (n : Nat) : Bool :=
  search set.ranges n (set.ranges.size + 1) 0 set.ranges.size

/-- Whether the character belongs to the set. -/
def contains (set : CharSet) (c : Char) : Bool := set.holds c.toNat

end CharSet

end TextScopes.Unicode
