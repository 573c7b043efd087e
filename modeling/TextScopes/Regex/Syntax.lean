import TextScopes.Unicode.Folding
import TextScopes.Unicode.Property
import TextScopes.Unicode.Script

/-!
# Expressions

The tree that an expression's text stands for, and the measures of it that decide how it is
searched for: how few characters it takes, whether it always takes as many, which groups it has,
and whether it needs backtracking. An expression without look-around, references, atomic groups
and the like needs none.
-/

namespace TextScopes.Regex

open Unicode (CharSet)

/-- A condition on a place in the text, which takes no character. -/
inductive Assertion where
  | textStart
  | textEnd
  /-- Nothing but newlines follows. -/
  | lastLineEnd
  | lineStart
  | lineEnd
  | wordBoundary
  | notWordBoundary
  | wordStart
  | wordEnd
  | wordStartHalf
  | wordEndHalf
  deriving DecidableEq, Inhabited, Repr

/-- Which way an expression looks around, and whether it must be found there. -/
inductive Look where
  | ahead
  | notAhead
  | behind
  | notBehind
  deriving DecidableEq, Inhabited, Repr

namespace Look

/-- Whether the text before the place is looked at. -/
def isBehind : Look → Bool
  | behind | notBehind => true
  | ahead | notAhead => false

/-- Whether the expression must not be found. -/
def isNegative : Look → Bool
  | notAhead | notBehind => true
  | ahead | behind => false

end Look

/-- An expression. -/
inductive Node where
  | empty
  /-- Any character, or any but a newline. -/
  | any (newline : Bool)
  | assertion (a : Assertion)
  /-- One character, or any that folds together with it. -/
  | char (c : Char) (fold : Bool)
  | set (s : CharSet)
  | concat (nodes : List Node)
  | alt (nodes : List Node)
  | group (index : Nat) (node : Node)
  | look (l : Look) (node : Node)
  /-- At least `lo` and at most `hi` times, or without an upper end. -/
  | repeat (lo : Nat) (hi : Option Nat) (greedy : Bool) (node : Node)
  /-- The text of a group once more. -/
  | backref (group : Nat) (fold : Bool)
  /-- The first way to match, and no other. -/
  | atomic (node : Node)
  /-- Lets the match start here. -/
  | keepOut
  /-- The place where the search began. -/
  | searchStart
  /-- Whether a group took part. -/
  | groupSet (group : Nat)
  /-- The second expression after the first when that matches here, else the third. -/
  | conditional (condition yes no : Node)
  deriving Inhabited, Repr

namespace Node

/-- Whether the expression is the empty one. -/
def isEmpty : Node → Bool
  | empty => true
  | _ => false

/-- The number of groups. -/
def groupCount : Node → Nat
  | concat nodes | alt nodes => all nodes
  | group _ node => node.groupCount + 1
  | look _ node | .repeat _ _ _ node | atomic node => node.groupCount
  | conditional c y n => c.groupCount + y.groupCount + n.groupCount
  | _ => 0
where
  all : List Node → Nat
    | [] => 0
    | node :: nodes => node.groupCount + all nodes

/-- The groups' numbers, in the order of their opening brackets. -/
def groups : Node → List Nat
  | concat nodes | alt nodes => all nodes
  | group index node => index :: node.groups
  | look _ node | .repeat _ _ _ node | atomic node => node.groups
  | conditional c y n => c.groups ++ y.groups ++ n.groups
  | _ => []
where
  all : List Node → List Nat
    | [] => []
    | node :: nodes => node.groups ++ all nodes

/-- How few characters an expression takes, and whether it always takes that many. -/
structure Size where
  least : Nat
  fixed : Bool
  deriving DecidableEq, Inhabited, Repr

/-- Sizes of groups by their numbers. -/
abbrev GroupSizes := List (Nat × Size)

mutual

/-- The size of an expression, given the sizes of the groups before it, which a reference takes
over. The sizes of its own groups are put in front of them. -/
def sizeIn (known : GroupSizes) : Node → Size × GroupSizes
  | empty => (⟨0, true⟩, known)
  | any _ | char _ _ | set _ => (⟨1, true⟩, known)
  | assertion _ | keepOut | searchStart | groupSet _ => (⟨0, true⟩, known)
  | concat nodes => sizeInConcat known nodes
  | alt nodes => sizeInAlt known nodes
  | group index node =>
    let (s, known) := sizeIn known node
    (s, (index, s) :: known)
  | look _ node => (⟨0, true⟩, (sizeIn known node).2)
  | .repeat lo hi _ node =>
    let (s, known) := sizeIn known node
    (⟨s.least * lo, s.fixed && hi = some lo⟩, known)
  | backref index _ =>
    (((known.find? (·.1 = index)).map (·.2)).getD ⟨0, false⟩, known)
  | atomic node => sizeIn known node
  | conditional c y n =>
    let (c, known) := sizeIn known c
    let (y, known) := sizeIn known y
    let (n, known) := sizeIn known n
    (⟨c.least + min y.least n.least,
      c.fixed && y.fixed && n.fixed && c.least + y.least = n.least⟩, known)

/-- The size of a row of expressions. -/
def sizeInConcat (known : GroupSizes) : List Node → Size × GroupSizes
  | [] => (⟨0, true⟩, known)
  | node :: nodes =>
    let (s, known) := sizeIn known node
    let (t, known) := sizeInConcat known nodes
    (⟨s.least + t.least, s.fixed && t.fixed⟩, known)

/-- The size of a choice of expressions. -/
def sizeInAlt (known : GroupSizes) : List Node → Size × GroupSizes
  | [] => (⟨0, true⟩, known)
  | [node] => sizeIn known node
  | node :: nodes =>
    let (s, known) := sizeIn known node
    let (t, known) := sizeInAlt known nodes
    (⟨min s.least t.least, s.fixed && t.fixed && s.least = t.least⟩, known)

end

/-- Whether an expression needs backtracking: it looks around, refers to a group, contains a group
that `refs` refer to, or depends on how the match came about. -/
def hard (refs : List Nat) : Node → Bool
  | concat nodes | alt nodes => anyHard nodes
  | group index node => refs.contains index || node.hard refs
  | .repeat _ _ _ node => node.hard refs
  | look _ _ | backref _ _ | atomic _ | keepOut | searchStart | groupSet _ => true
  | conditional _ _ _ => true
  | assertion a => a = .lastLineEnd
  | _ => false
where
  anyHard : List Node → Bool
    | [] => false
    | node :: nodes => node.hard refs || anyHard nodes

/-- Whether every repetition has its bounds in order and within 32 bits. -/
def boundsOk : Node → Bool
  | concat nodes | alt nodes => all nodes
  | .repeat lo hi _ node =>
    lo < UInt32.size && (match hi with
      | none => true
      | some hi => lo ≤ hi && hi < UInt32.size) && node.boundsOk
  | group _ node | look _ node | atomic node => node.boundsOk
  | conditional c y n => c.boundsOk && y.boundsOk && n.boundsOk
  | _ => true
where
  all : List Node → Bool
    | [] => true
    | node :: nodes => node.boundsOk && all nodes

/-- An estimate of the memory that an automaton for the expression takes, in bytes. -/
def weight : Node → Nat
  | empty => 0
  | any _ => 400
  | char c _ => 32 * c.utf8Size
  | set s => 32 + (s.ranges.foldl (fun n r => n + if r.2 < 128 then 8 else 60) 0)
  | assertion _ => 32
  | concat nodes | alt nodes => all nodes
  | group _ node => 64 + node.weight
  | .repeat lo hi _ node => (max 1 (hi.getD lo)) * (48 + node.weight)
  | look _ node | atomic node => node.weight
  | conditional c y n => c.weight + y.weight + n.weight
  | _ => 32
where
  all : List Node → Nat
    | [] => 0
    | node :: nodes => 48 + node.weight + all nodes

end Node

end TextScopes.Regex
