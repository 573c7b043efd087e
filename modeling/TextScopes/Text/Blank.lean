/-!
# Blank characters

The characters with the Unicode property White_Space, and what it means to trim a text and to split
it into words by them.
-/

namespace TextScopes.Text

/-- Whether `c` is white space in the sense of Unicode. -/
def isBlank (c : Char) : Bool :=
  let n := c.toNat
  (9 ≤ n && n ≤ 13) || n = 0x20 || n = 0x85 || n = 0xA0 || n = 0x1680
    || (0x2000 ≤ n && n ≤ 0x200A) || n = 0x2028 || n = 0x2029 || n = 0x202F || n = 0x205F
    || n = 0x3000

/-- The text without the blanks around it. -/
def trim (cs : List Char) : List Char :=
  ((cs.dropWhile isBlank).reverse.dropWhile isBlank).reverse

/-- The maximal runs of characters that fail `cut`, in order; empty runs included. -/
def splitOn (cut : Char → Bool) : List Char → List (List Char)
  | [] => [[]]
  | c :: cs =>
    if cut c then [] :: splitOn cut cs
    else
      match splitOn cut cs with
      | [] => [[c]]
      | run :: runs => (c :: run) :: runs

/-- The words of a text, as blanks part them. -/
def words (cs : List Char) : List (List Char) := (splitOn isBlank cs).filter (· ≠ [])

end TextScopes.Text
