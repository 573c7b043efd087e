import TextScopes.Regex.Syntax

/-!
# Bracket expressions and named classes

What stands between square brackets: characters, ranges, escapes, classes named in `[:…:]`, nested
brackets, and the operations `&&` (both), `--` (the first only) and `~~` (just one), which bind from
the left and weaker than listing. A bracket right behind the opening one, or behind its caret, is a
character, and so are hyphens there and one before a closing bracket.

Properties of characters are named `\p{Name}` or `\p{Kind=Name}`; names are compared without regard
to case, blanks, underscores, hyphens and a leading `is`.
-/

namespace TextScopes.Regex

open Unicode (CharSet)

/-- A piece of a bracket expression: a character as written, an escaped character, or an escape that
stands for a set. -/
inductive Token where
  | raw (c : Char)
  | literal (c : Char)
  | set (s : CharSet)
  deriving Inhabited, Repr

/-- The set with what folds together with its members, if folding is asked for. -/
def foldIf (fold : Bool) (s : CharSet) : CharSet := if fold then s.foldCase else s

/-- The classes of ASCII with their names. -/
def asciiClasses : List (String × List String) := [
  ("alnum", ["30-39 41-5A 61-7A"]),
  ("alpha", ["41-5A 61-7A"]),
  ("ascii", ["0-7F"]),
  ("blank", ["9 20"]),
  ("cntrl", ["0-1F 7F"]),
  ("digit", ["30-39"]),
  ("graph", ["21-7E"]),
  ("lower", ["61-7A"]),
  ("print", ["20-7E"]),
  ("punct", ["21-2F 3A-40 5B-60 7B-7E"]),
  ("space", ["9-D 20"]),
  ("upper", ["41-5A"]),
  ("word", ["30-39 41-5A 5F 61-7A"]),
  ("xdigit", ["30-39 41-46 61-66"])]

/-- The raw characters at the front of the tokens. -/
def rawFront : List Token → List Char
  | .raw c :: rest => c :: rawFront rest
  | _ => []

/-- Reads a class named in `[:…:]`, behind its first bracket. -/
def namedClass? (fold : Bool) (tokens : List Token) : Option (CharSet × List Token) := do
  let .raw ':' :: rest := tokens | none
  let (negated, rest) := match rest with
    | .raw '^' :: rest => (true, rest)
    | rest => (false, rest)
  let name := (rawFront rest).takeWhile (· ≠ ':')
  let .raw ':' :: .raw ']' :: behind := rest.drop name.length | none
  let rows ← (asciiClasses.find? (·.1 = String.ofList name)).map (·.2)
  let set := foldIf fold (.ofRows rows)
  return (if negated then set.complement else set, behind)

/-- The operations between lists. -/
inductive SetOp where
  | both
  | firstOnly
  | justOne
  deriving DecidableEq, Inhabited, Repr

/-- The operation whose sign is twice the character. -/
def setOp? : Char → Option SetOp
  | '&' => some .both
  | '-' => some .firstOnly
  | '~' => some .justOne
  | _ => none

/-- Applies an operation. -/
def SetOp.apply : SetOp → CharSet → CharSet → CharSet
  | both, a, b => a.intersection b
  | firstOnly, a, b => a.difference b
  | justOne, a, b => a.symmetricDifference b

/-- What a bracket expression has read: the left side of an operation, and the list under way. -/
structure SetState where
  left : Option (SetOp × CharSet)
  list : CharSet

/-- The set read so far. -/
def SetState.value (fold : Bool) (s : SetState) : CharSet :=
  match s.left with
  | none => s.list
  | some (op, left) => op.apply (foldIf fold left) (foldIf fold s.list)

/-- The state with more in its list. -/
def SetState.add (s : SetState) (more : CharSet) : SetState := { s with list := s.list.union more }

/-- The character that a token writes, if it writes one. -/
def Token.char? : Token → Option Char
  | raw c | literal c => some c
  | set _ => none

/-- Reads one item of a list: a set, a character or a range. -/
def item? : List Token → Option (CharSet × List Token)
  | first :: .raw '-' :: last :: rest =>
    match last with
    | .raw ']' => single first (.raw '-' :: last :: rest)
    | .raw '-' => single first (.raw '-' :: last :: rest)
    | last => do
      let a ← first.char?
      let b ← last.char?
      if a ≤ b then some (.ofRange a.toNat b.toNat, rest) else none
  | first :: rest => single first rest
  | [] => none
where
  single (token : Token) (rest : List Token) : Option (CharSet × List Token) :=
    match token with
    | .raw c | .literal c => some (.ofRange c.toNat c.toNat, rest)
    | .set s => some (s, rest)

mutual

/-- Reads a bracket expression behind its opening bracket, and gives the tokens behind its closing
one. -/
def bracket (fold : Bool) : Nat → List Token → Option (CharSet × List Token)
  | 0, _ => none
  | fuel + 1, tokens =>
    let (negated, tokens) := match tokens with
      | .raw '^' :: rest => (true, rest)
      | rest => (false, rest)
    let hyphens := (rawFront tokens).takeWhile (· = '-')
    let rest := tokens.drop hyphens.length
    let (start, rest) := match rest with
      | .raw ']' :: behind =>
        if hyphens = [] then (CharSet.ofRange 0x5D 0x5D, behind) else (.ofRange 0x2D 0x2D, rest)
      | rest => (if hyphens = [] then .empty else .ofRange 0x2D 0x2D, rest)
    match bracketRest fold fuel ⟨none, start⟩ rest with
    | some (set, rest) =>
      let set := foldIf fold set
      some (if negated then set.complement else set, rest)
    | none => none

/-- Reads a bracket expression from its next item on. -/
def bracketRest (fold : Bool) : Nat → SetState → List Token → Option (CharSet × List Token)
  | 0, _, _ => none
  | _ + 1, _, [] => none
  | _ + 1, state, .raw ']' :: rest => some (state.value fold, rest)
  | fuel + 1, state, .raw '[' :: rest =>
    match namedClass? fold rest with
    | some (set, rest) => bracketRest fold fuel (state.add set) rest
    | none =>
      match bracket fold fuel rest with
      | some (set, rest) => bracketRest fold fuel (state.add set) rest
      | none => none
  | fuel + 1, state, first :: rest =>
    let operation := match first, rest with
      | .raw c, .raw d :: behind => if c = d then (setOp? c).map (·, behind) else none
      | _, _ => none
    match operation with
    | some (op, behind) => bracketRest fold fuel ⟨some (op, state.value fold), .empty⟩ behind
    | none =>
      match item? (first :: rest) with
      | some (set, rest) => bracketRest fold fuel (state.add set) rest
      | none => none

end

/-- The set that a whole bracket expression writes, given the tokens behind its opening bracket. -/
def bracketSet? (fold : Bool) (tokens : List Token) : Option CharSet :=
  match bracket fold (2 * tokens.length + 2) tokens with
  | some (set, []) => some set
  | _ => none

/-- A property's name for comparison. -/
def looseName (cs : List Char) : String :=
  let cs' := match cs with
    | i :: s :: rest => if i.toLower = 'i' ∧ s.toLower = 's' then rest else cs
    | cs => cs
  let kept :=
    (cs'.filter fun c => c ≠ ' ' && c ≠ '_' && c ≠ '-' && c.toNat < 128).map Char.toLower
  String.ofList (if kept = ['c'] ∧ cs' ≠ cs then ['i', 's', 'c'] else kept)

/-- The set that a property's name stands for: a property, else a category, else a script. The three
names that are both a property's and a category's short form mean the category. -/
def namedSet? (name : List Char) : Option CharSet :=
  let name := looseName name
  let property := if name ∈ ["cf", "sc", "lc"] then none else Unicode.property? name
  property.or ((Unicode.category? name).or (Unicode.script? name))

/-- The set of a kind of property with a value. -/
def valuedSet? (kind value : List Char) : Option CharSet :=
  let kind := looseName kind
  let value := looseName value
  if kind ∈ ["gc", "generalcategory"] then Unicode.category? value
  else if kind ∈ ["sc", "script"] then Unicode.script? value
  else none

/-- The parts of `cs` before and behind the first occurrence of `mark`. -/
def cut? (mark : List Char) : List Char → Option (List Char × List Char)
  | [] => none
  | c :: cs =>
    if mark.isPrefixOf (c :: cs) then some ([], (c :: cs).drop mark.length)
    else (cut? mark cs).map fun (before, after) => (c :: before, after)

/-- The set that a property's description stands for, the text between the braces. -/
def propertySet? (fold : Bool) (description : List Char) : Option CharSet :=
  match cut? ['!', '='] description with
  | some (kind, value) => (valuedSet? kind value).map fun s => (foldIf fold s).complement
  | none =>
    match cut? [':'] description with
    | some (kind, value) => (valuedSet? kind value).map (foldIf fold)
    | none =>
      match cut? ['='] description with
      | some (kind, value) => (valuedSet? kind value).map (foldIf fold)
      | none => if description = [] then none else (namedSet? description).map (foldIf fold)

end TextScopes.Regex
