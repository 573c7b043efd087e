import TextScopes.Regex.Machine
import TextScopes.Regex.Reader
import TextScopes.Span

/-!
# Search engines

An `Engine` turns the text of an expression into something that can be searched with, and searches
a text from an offset on. The rest of the library knows engines by this interface alone, so that
what it needs of one can be said of any. `backtracking` is the engine that programs use:
expressions without look-around, references and the like run as automata, the others as programs
with limited backtracking.
-/

namespace TextScopes

/-- The spans of a match's groups, the whole match first; nothing for a group that took no part. -/
abbrev Groups := List (Option Span)

/-- What compiles and searches for expressions. Offsets count bytes. -/
structure Engine where
  /-- A compiled expression. -/
  Program : Type
  /-- The compiled form of an expression's text, if it is an expression. -/
  compile : String → Option Program
  /-- The groups of the first match in a text at or behind an offset. -/
  search : Program → String → Nat → Option Groups

namespace Regex

/-- A compiled expression: an automaton or a program, with the number of groups. -/
inductive Compiled where
  | automaton (a : Automaton) (groupCount : Nat)
  | program (p : Program) (groupCount : Nat)

/-- An expression as group 0. What a row looks ahead for at its very end is put behind the group
instead: where the match stops is then found without looking. -/
def rooted (node : Node) : Node :=
  match node with
  | .concat nodes =>
    match nodes.reverse with
    | .look .ahead last :: front => .concat [.group 0 (.concat front.reverse), last]
    | _ => .group 0 node
  | node => .group 0 node

/-- Compiles the text of an expression. -/
def compile? (text : String) : Option Compiled := do
  let e ← read? text
  let root := rooted e.node
  if root.hard e.refs then
    return .program (← Program.ofNode? e.refs root e.groupCount) e.groupCount
  else return .automaton (← Automaton.ofNode? root) e.groupCount

/-- The span of a group in bytes. -/
def groupSpan (h : Haystack) (slots : Slots) (group : Nat) : Option Span :=
  match (slots[2 * group]?).join, (slots[2 * group + 1]?).join with
  | some a, some b => some ⟨h.offset (if group = 0 then min a b else a), h.offset b⟩
  | _, _ => none

/-- Searches a text for a compiled expression from a byte offset on. -/
def search (c : Compiled) (text : String) (offset : Nat) : Option Groups := do
  let h := Haystack.ofText text
  let pos ← h.index? offset
  let (slots, groupCount) ← match c with
    | .automaton a n =>
      (a.search h (Array.replicate (2 * (n + 1)) none) pos).map fun t => (t.slots, n)
    | .program p n => (p.search h pos).map fun slots => (slots, n)
  return (List.range (groupCount + 1)).map (groupSpan h slots)

end Regex

namespace Engine

/-- The engine of automata and backtracking programs. -/
def backtracking : Engine := ⟨Regex.Compiled, Regex.compile?, Regex.search⟩

end Engine

end TextScopes
