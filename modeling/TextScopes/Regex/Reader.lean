import TextScopes.Regex.Bracket

/-!
# Reading expressions

The text of an expression is read from left to right into its tree. The reader carries the flags
that are set, how many groups have been opened and what they are called. A flag set inside a group
stays set behind it, unless the group was opened with flags of its own. Recursion is on a fuel that
the length of the text provides.
-/

namespace TextScopes.Regex

open Unicode (CharSet)

/-- What changes how the text of an expression is read. -/
structure Flags where
  /-- `i`: letters match in any case. -/
  fold : Bool
  /-- `m`: `^` and `$` match at lines. -/
  lines : Bool
  /-- `s`: `.` matches newlines. -/
  dotAll : Bool
  /-- `U`: repetitions are lazy unless marked. -/
  swapGreed : Bool
  /-- `x`: blanks and comments are passed over. -/
  blanks : Bool
  deriving DecidableEq, Inhabited, Repr

/-- No flag set. -/
def Flags.none : Flags := ⟨false, false, false, false, false⟩

/-- What the reader carries along. -/
structure ReaderState where
  /-- The text left. -/
  rest : List Char
  flags : Flags
  /-- The groups opened so far. -/
  groupCount : Nat
  names : List (String × Nat)
  /-- The groups referred to. -/
  refs : List Nat
  /-- Whether a group was referred to by a bare number. -/
  numbered : Bool
  deriving Inhabited

/-- A reading that may fail. -/
abbrev Reading := StateT ReaderState Option

namespace Reading

/-- Fails. -/
def fail {α : Type} : Reading α := fun _ => none

/-- The text left. -/
def rest : Reading (List Char) := return (← get).rest

/-- Goes on with another text. -/
def setRest (cs : List Char) : Reading Unit := modify fun s => { s with rest := cs }

/-- The flags that are set. -/
def flags : Reading Flags := return (← get).flags

end Reading

/-- The nesting of groups that is allowed. -/
def groupDepthLimit : Nat := 64

/-- The text behind a comment, behind its opening. -/
def skipComment : List Char → Option (List Char)
  | [] => none
  | ')' :: cs => some cs
  | '\\' :: _ :: cs => skipComment cs
  | ['\\'] => none
  | _ :: cs => skipComment cs

/-- The text behind blanks and comments; only `(?#…)` is a comment unless blanks are passed
over. -/
def skipFree (blanks : Bool) : Nat → List Char → Option (List Char)
  | 0, cs => some cs
  | fuel + 1, cs =>
    match cs with
    | '(' :: '?' :: '#' :: cs => (skipComment cs).bind (skipFree blanks fuel)
    | '#' :: cs' =>
      if blanks then skipFree blanks fuel ((cs'.dropWhile (· ≠ '\n')).drop 1) else some cs
    | c :: cs' =>
      -- Behind a blank or a comment another one may stand.
      if blanks && (c = ' ' || c = '\r' || c = '\n' || c = '\t') then skipFree blanks fuel cs'
      else some cs
    | [] => some []

/-- Passes over blanks and comments. -/
def free : Reading Unit := do
  let s ← get
  match skipFree s.flags.blanks (s.rest.length + 1) s.rest with
  | some cs => Reading.setRest cs
  | none => Reading.fail

/-- The number that the decimal digits at the front write, and the text behind them. -/
def decimal? (cs : List Char) : Option (Nat × List Char) :=
  let ds := cs.takeWhile Char.isDigit
  if ds = [] then none
  else
    let n := ds.foldl (fun n d => 10 * n + (d.toNat - '0'.toNat)) 0
    if n < UInt64.size then some (n, cs.dropWhile Char.isDigit) else none

/-- The bounds of a repetition, behind its opening brace, and the text behind it. -/
def bounds? (blanks : Bool) (cs : List Char) : Option (Nat × Option Nat × List Char) := do
  let skip (cs : List Char) := skipFree blanks (cs.length + 1) cs
  let cs ← skip cs
  let (lo, cs) ← match cs with
    -- Without a lower bound any number will do, from none on.
    | ',' :: _ => some (0, cs)
    | cs => decimal? cs
  let cs ← skip cs
  let (hi, cs) ← match cs with
    | '\x7d' :: _ => some (some lo, cs)
    | ',' :: cs => do
      let cs ← skip cs
      match decimal? cs with
      | some (hi, cs) => some (some hi, cs)
      | none => some (none, cs)
    | _ => none
  let cs ← skip cs
  let '\x7d' :: cs := cs | none
  return (lo, hi, cs)

/-- Whether a character may stand in a group's name. -/
def isNameChar (c : Char) : Bool :=
  c = '_' || c.isAlphanum || (127 < c.toNat && (Unicode.alphabetic.contains c
    || (Unicode.leafCategories ["nd", "nl", "no"]).contains c))

/-- A group's name behind its opening mark, and the text behind the closing one. -/
def name? (close : Char) (cs : List Char) : Option (List Char × List Char) :=
  let name := cs.takeWhile isNameChar
  match cs.drop name.length with
  | c :: rest => if c = close ∧ name ≠ [] then some (name, rest) else none
  | [] => none

/-- Reads a hexadecimal escape of a fixed number of digits or in braces. -/
def hexEscape (digits : Nat) (cs : List Char) : Option (Char × List Char) := do
  -- Digits of the fixed number come first, and braces when these are not there.
  let fixed := cs.take digits
  let (ds, rest) ←
    if fixed.length = digits ∧ fixed.all (fun c => (Json.hexDigit? c).isSome) then
      some (fixed, cs.drop digits)
    else
      match cs with
      | '\x7b' :: cs =>
        let ds := cs.takeWhile fun c => (Json.hexDigit? c).isSome
        match cs.drop ds.length with
        | '\x7d' :: rest => if ds ≠ [] ∧ ds.length ≤ 8 then some (ds, rest) else none
        | _ => none
      | _ => none
  let n := CharSet.readHex ds
  if n < 0xD800 ∨ (0xDFFF < n ∧ n < 0x110000) then return (Char.ofNat n, rest) else none

/-- What an escape stands for that means the same within brackets and outside. -/
inductive Escape where
  | literal (c : Char)
  | set (s : CharSet)
  /-- A hexadecimal digit, or any other character. -/
  | hexDigit (negated : Bool)

/-- The classes of a single letter. -/
def letterClass? : Char → Option CharSet
  | 'd' => some Unicode.digit
  | 'D' => some Unicode.digit.complement
  | 's' => some Unicode.whiteSpace
  | 'S' => some Unicode.whiteSpace.complement
  | 'w' => some Unicode.word
  | 'W' => some Unicode.word.complement
  | _ => none

/-- The characters that a letter escapes. -/
def letterEscape? : Char → Option Char
  | 'a' => some '\x07'
  | 'e' => some '\x1b'
  | 'f' => some '\x0c'
  | 'n' => some '\n'
  | 'r' => some '\r'
  | 't' => some '\t'
  | 'v' => some '\x0b'
  | _ => none

/-- Reads an escape behind its backslash, when it is one that both brackets and expressions have. -/
def commonEscape? (fold : Bool) : List Char → Option (Escape × List Char)
  | [] => none
  | c :: cs =>
    match letterClass? c, letterEscape? c with
    | some s, _ => some (.set s, cs)
    | none, some e => some (.literal e, cs)
    | none, none =>
      if c = 'h' then some (.hexDigit false, cs)
      else if c = 'H' then some (.hexDigit true, cs)
      else if c = 'x' then (hexEscape 2 cs).map fun (c, cs) => (.literal c, cs)
      else if c = 'u' then (hexEscape 4 cs).map fun (c, cs) => (.literal c, cs)
      else if c = 'U' then (hexEscape 8 cs).map fun (c, cs) => (.literal c, cs)
      -- A property stands in braces, or is a single letter.
      else if c = 'p' ∨ c = 'P' then
        let described := match cs with
          | '\x7b' :: cs =>
            let inner := cs.takeWhile (· ≠ '\x7d')
            match cs.drop inner.length with
            | _ :: rest => some (inner, rest)
            | [] => none
          | c :: rest => if c = '\\' then none else some ([c], rest)
          | [] => none
        match described with
        | some (inner, rest) =>
          (propertySet? fold inner).map fun s =>
            (.set (if c = 'P' then s.complement else s), rest)
        | none => none
      -- Letters and digits without a meaning are reserved; any other character stands for itself.
      else if c.isAlpha ∨ c.isDigit then none
      else some (.literal c, cs)

/-- The letters whose escapes have a meaning of their own outside brackets, and within them stand
for themselves. -/
def plainInBrackets (c : Char) : Bool := "kAzbBKG".toList.contains c

/-- The tokens of a bracket expression, behind its opening bracket: `depth` brackets are open, and
`first` says that a closing bracket here is a character. -/
def tokens (fold : Bool) : Nat → Nat → List Char → Option (List Token × List Char)
  | 0, _, _ => none
  | _ + 1, _, [] => none
  | fuel + 1, depth, '\\' :: cs =>
    match cs with
    | [] => none
    | c :: rest =>
      if plainInBrackets c then
        (tokens fold fuel depth rest).map fun (ts, cs) => (.literal c :: ts, cs)
      else
        match commonEscape? fold cs with
        | none => none
        | some (escape, rest) =>
          let front : List Token := match escape with
            | .literal c => [.literal c]
            | .set s => [.set s]
            -- Inside brackets the class of hexadecimal digits is written out.
            | .hexDigit negated =>
              ((if negated then "[^0-9A-Fa-f]" else "[0-9A-Fa-f]").toList).map .raw
          (tokens fold fuel depth rest).map fun (ts, cs) => (front ++ ts, cs)
  | fuel + 1, depth, '[' :: cs =>
    (tokens fold fuel (depth + 1) cs).map fun (ts, cs) => (.raw '[' :: ts, cs)
  | fuel + 1, depth, ']' :: cs =>
    match depth with
    | 0 => some ([.raw ']'], cs)
    | depth + 1 => (tokens fold fuel depth cs).map fun (ts, cs) => (.raw ']' :: ts, cs)
  | fuel + 1, depth, c :: cs => (tokens fold fuel depth cs).map fun (ts, cs) => (.raw c :: ts, cs)

/-- Reads a bracket expression behind its opening bracket. -/
def bracketExpr (cs : List Char) : Reading Node := do
  let fold := (← Reading.flags).fold
  let (front, cs) := match cs with
    | '^' :: ']' :: cs => ([Token.raw '^', .raw ']'], cs)
    | '^' :: cs => ([.raw '^'], cs)
    | ']' :: cs => ([.raw ']'], cs)
    | cs => ([], cs)
  match tokens fold (cs.length + 1) 0 cs with
  | none => Reading.fail
  | some (ts, rest) =>
    match bracketSet? fold (front ++ ts) with
    | none => Reading.fail
    | some s => do
      Reading.setRest rest
      return .set s

/-- A reference to a group by its number. -/
def reference (group : Nat) : Reading Node := do
  modify fun s => { s with refs := group :: s.refs }
  return .backref group (← Reading.flags).fold

/-- Reads a reference by name, behind its opening mark: the name of a group before it, a number, or
a number of groups to go back or forward. -/
def namedReference (close : Char) (cs : List Char) : Reading Node := do
  let s ← get
  match name? close cs with
  | some (name, rest) =>
    Reading.setRest rest
    match s.names.find? (·.1 = String.ofList name) with
    | some (_, group) => reference group
    -- A name that no group has may be a number.
    | none =>
      match decimal? name with
      | some (group, []) => reference group
      | _ => Reading.fail
  | none =>
    let (back, ds) := match cs with
      | '-' :: ds => (true, ds)
      | '+' :: ds => (false, ds)
      | _ => (true, [])
    match decimal? ds with
    | some (n, c :: rest) =>
      if c ≠ close then Reading.fail
      else if back && (n = 0 || s.groupCount + 1 ≤ n) then Reading.fail
      else do
        Reading.setRest rest
        reference (if back then s.groupCount + 1 - n else s.groupCount + n)
    | _ => Reading.fail

/-- Reads a reference by a bare number. A number of more than half the length of the whole text is
refused. -/
def numberedReference (length : Nat) (cs : List Char) : Reading Node := do
  match decimal? cs with
  | some (group, rest) =>
    if group < length / 2 then do
      Reading.setRest rest
      modify fun s => { s with numbered := true }
      reference group
    else Reading.fail
  | none => Reading.fail

/-- The assertions of a single letter. -/
def letterAssertion? : Char → Option Assertion
  | 'A' => some .textStart
  | 'z' => some .textEnd
  | 'Z' => some .lastLineEnd
  | 'B' => some .notWordBoundary
  | '<' => some .wordStart
  | '>' => some .wordEnd
  | _ => none

/-- The assertions about words that stand in braces behind `\b`. -/
def bracedBoundary? (cs : List Char) : Option (Assertion × List Char) :=
  let inner := cs.takeWhile (· ≠ '\x7d')
  let rest := cs.drop (inner.length + 1)
  match String.ofList inner with
  | "start" => some (.wordStart, rest)
  | "end" => some (.wordEnd, rest)
  | "start-half" => some (.wordStartHalf, rest)
  | "end-half" => some (.wordEndHalf, rest)
  | _ => none

/-- Reads an escape behind its backslash. -/
def escapeExpr (length : Nat) (cs : List Char) : Reading Node := do
  match cs with
  | [] => Reading.fail
  | c :: rest =>
    if c.isDigit then numberedReference length cs
    else if c = 'k' then
      match rest with
      | '\'' :: rest => namedReference '\'' rest
      | '<' :: rest => namedReference '>' rest
      | _ => Reading.fail
    -- Marks for the search itself: where a match starts, and where searching began.
    else if c = 'K' then do Reading.setRest rest; return .keepOut
    else if c = 'G' then do Reading.setRest rest; return .searchStart
    else if c = 'O' then do Reading.setRest rest; return .any true
    else if c = 'b' then
      match rest with
      | '\x7b' :: inner =>
        match bracedBoundary? inner with
        | some (a, rest) => do Reading.setRest rest; return .assertion a
        | none => Reading.fail
      | _ => do Reading.setRest rest; return .assertion .wordBoundary
    else
      match letterAssertion? c with
      | some a => do Reading.setRest rest; return .assertion a
      | none =>
        let fold := (← Reading.flags).fold
        match commonEscape? fold cs with
        | none => Reading.fail
        | some (escape, rest) =>
          Reading.setRest rest
          match escape with
          | .literal c => return .char c fold
          | .set s => return .set s
          | .hexDigit negated =>
            let s := CharSet.ofRows ["30-39 41-46 61-66"]
            return .set (if negated then s.complement else s)

/-- Whether a repetition may follow the expression. -/
def repeatable : Node → Bool
  | .empty | .look _ _ | .assertion _ => false
  | _ => true

/-- Reads a group's closing bracket. -/
def closing : Reading Unit := do
  match ← Reading.rest with
  | ')' :: cs => Reading.setRest cs
  | _ => Reading.fail

/-- The flag that a letter names, set or cleared. -/
def Flags.with? (flags : Flags) (value : Bool) : Char → Option Flags
  | 'i' => some { flags with fold := value }
  | 'm' => some { flags with lines := value }
  | 's' => some { flags with dotAll := value }
  | 'U' => some { flags with swapGreed := value }
  | 'x' => some { flags with blanks := value }
  | 'u' => if value then some flags else none
  | _ => none

/-- Opens a group and gives its number. -/
def openGroup : Reading Nat := do
  modify fun s => { s with groupCount := s.groupCount + 1 }
  return (← get).groupCount

/-- Reads flags up to a colon or a closing bracket, and says whether it was a colon. `written` says
that there were letters before. -/
def flagLetters : Nat → Bool → Bool → Reading Bool
  | 0, _, _ => Reading.fail
  | fuel + 1, negative, written => do
    free
    match ← Reading.rest with
    | [] => Reading.fail
    | c :: cs =>
      Reading.setRest cs
      if c = '-' then
        if negative then Reading.fail else flagLetters fuel true written
      else if c = ')' then
        if written then return false else Reading.fail
      else if c = ':' then
        if negative && !written then Reading.fail else return true
      else
        match (← Reading.flags).with? (!negative) c with
        | none => Reading.fail
        | some flags => do
          modify fun s => { s with flags := flags }
          flagLetters fuel negative true

mutual

/-- Reads a choice of expressions. -/
def choice (length : Nat) : Nat → Nat → Reading Node
  | 0, _ => Reading.fail
  | fuel + 1, depth => do
    let first ← branch length fuel depth []
    free
    match ← Reading.rest with
    | '|' :: cs => do
      Reading.setRest cs
      let others ← choices length fuel depth
      return .alt (first :: others)
    | _ =>
      -- Groups with names are not referred to by bare numbers.
      let s ← get
      if s.numbered && s.names ≠ [] then Reading.fail else return first

/-- Reads the further expressions of a choice, behind a bar. -/
def choices (length : Nat) : Nat → Nat → Reading (List Node)
  | 0, _ => Reading.fail
  | fuel + 1, depth => do
    let next ← branch length fuel depth []
    free
    match ← Reading.rest with
    | '|' :: cs => do
      Reading.setRest cs
      let others ← choices length fuel depth
      return next :: others
    | _ => return [next]

/-- Reads a row of expressions, given those before, last first. -/
def branch (length : Nat) : Nat → Nat → List Node → Reading Node
  | 0, _, _ => Reading.fail
  | fuel + 1, depth, before => do
    let start ← Reading.rest
    let node ← if start = [] then pure Node.empty else piece length fuel depth
    let now ← Reading.rest
    -- Where nothing is read the row ends; at the end of the text it is empty.
    if start = [] || now.length = start.length then
      match before with
      | [] => return .empty
      | [node] => return node
      | nodes => return .concat nodes.reverse
    else branch length fuel depth (if node.isEmpty then before else node :: before)

/-- Reads an expression and what says how often it is repeated. -/
def piece (length : Nat) : Nat → Nat → Reading Node
  | 0, _ => Reading.fail
  | fuel + 1, depth => do
    let node ← atom length fuel depth
    free
    let blanks := (← Reading.flags).blanks
    let bounds := match ← Reading.rest with
      | '?' :: cs => some (0, some 1, cs)
      | '*' :: cs => some (0, none, cs)
      | '+' :: cs => some (1, none, cs)
      | '\x7b' :: cs => bounds? blanks cs
      | _ => none
    match bounds with
    | none => return node
    | some (lo, hi, cs) =>
      if !repeatable node then Reading.fail
      else
        Reading.setRest cs
        free
        let lazy ← match ← Reading.rest with
          | '?' :: cs => do Reading.setRest cs; pure true
          | _ => pure false
        -- A question mark makes it lazy, and so does the flag, unless both are there.
        let greedy := (!lazy) != (← Reading.flags).swapGreed
        let repeated := Node.repeat lo hi greedy node
        match ← Reading.rest with
        -- A plus behind the bounds keeps what was matched.
        | '+' :: cs => do Reading.setRest cs; return .atomic repeated
        | _ => return repeated

/-- Reads a single expression; an empty one where none begins. -/
def atom (length : Nat) : Nat → Nat → Reading Node
  | 0, _ => Reading.fail
  | fuel + 1, depth => do
    free
    let flags ← Reading.flags
    match ← Reading.rest with
    | [] => return .empty
    | c :: cs =>
      if c = '.' then do Reading.setRest cs; return .any flags.dotAll
      else if c = '^' then do
        Reading.setRest cs
        return .assertion (if flags.lines then .lineStart else .textStart)
      else if c = '$' then do
        Reading.setRest cs
        return .assertion (if flags.lines then .lineEnd else .textEnd)
      else if c = '(' then do
        Reading.setRest cs
        groupExpr length fuel (depth + 1)
      else if c = '\\' then escapeExpr length cs
      else if c = '[' then bracketExpr cs
      else if c = '+' ∨ c = '*' ∨ c = '?' ∨ c = '|' ∨ c = ')' then return .empty
      else do
        Reading.setRest cs
        return .char c flags.fold

/-- Reads the inside of a group of any kind and its closing bracket, behind the opening one. -/
def groupExpr (length : Nat) : Nat → Nat → Reading Node
  | 0, _ => Reading.fail
  | fuel + 1, depth => do
    if groupDepthLimit ≤ depth then Reading.fail
    free
    let inside (cs : List Char) : Reading Node := do
      Reading.setRest cs
      let node ← choice length fuel depth
      closing
      return node
    let named (close : Char) (cs : List Char) : Reading Node := do
      let group ← openGroup
      match name? close cs with
      | none => Reading.fail
      | some (name, rest) => do
        modify fun s =>
          { s with names := (String.ofList name, group) :: s.names }
        return .group group (← inside rest)
    match ← Reading.rest with
    | '?' :: '=' :: cs => return .look .ahead (← inside cs)
    | '?' :: '!' :: cs => return .look .notAhead (← inside cs)
    | '?' :: '<' :: '=' :: cs => return .look .behind (← inside cs)
    | '?' :: '<' :: '!' :: cs => return .look .notBehind (← inside cs)
    | '?' :: '<' :: cs => named '>' cs
    | '?' :: '\'' :: cs => named '\'' cs
    | '?' :: 'P' :: '<' :: cs => named '>' cs
    | '?' :: 'P' :: '=' :: cs => namedReference ')' cs
    | '?' :: '>' :: cs => return .atomic (← inside cs)
    | '?' :: '(' :: cs => do
      Reading.setRest cs
      conditionalExpr length fuel depth
    | '?' :: cs => do
      Reading.setRest cs
      let before ← Reading.flags
      let colon ← flagLetters (cs.length + 1) false false
      if colon then do
        let node ← choice length fuel depth
        closing
        -- Flags that are set for a group alone end with it.
        modify fun s => { s with flags := before }
        return node
      else return .empty
    | cs => do
      let group ← openGroup
      return .group group (← inside cs)

/-- Reads a conditional behind the opening bracket of its condition. -/
def conditionalExpr (length : Nat) : Nat → Nat → Reading Node
  | 0, _ => Reading.fail
  | fuel + 1, depth => do
    let condition ← match ← Reading.rest with
      | '\'' :: cs => namedReference '\'' cs
      | '<' :: cs => namedReference '>' cs
      | c :: cs =>
        if c.isDigit then numberedReference length (c :: cs)
        else choice length fuel depth
      | [] => Reading.fail
    closing
    let condition := match condition with
      | .backref group _ => .groupSet group
      | node => node
    -- Without a body the condition alone is the expression.
    let start ← Reading.rest
    let body ← choice length fuel depth
    let now ← Reading.rest
    closing
    if now.length = start.length then
      match condition with
      | .groupSet _ => return condition
      | _ => Reading.fail
    else
      -- Of the alternatives the first is for the condition, and the others against it.
      let (yes, no) := match body with
        | .alt [yes, no] => (yes, no)
        | .alt (yes :: others) => (yes, .alt others)
        | node => (node, .empty)
      if yes.isEmpty && no.isEmpty then return condition
      else return .conditional condition yes no

end

/-- An expression's tree and what it refers to. -/
structure Expr where
  node : Node
  refs : List Nat
  groupCount : Nat
  deriving Inhabited

/-- The expression that `text` writes. A reference to a group that the expression lacks is an
error. -/
def read? (text : String) : Option Expr := do
  let cs := text.toList
  let start : ReaderState := ⟨cs, .none, 0, [], [], false⟩
  let (node, s) ← (choice text.utf8ByteSize (8 * cs.length + 8) 0).run start
  if s.rest ≠ [] then none
  if s.refs.any fun group => group = 0 || s.groupCount < group then none
  return ⟨node, s.refs, s.groupCount⟩

end TextScopes.Regex
