import TextScopes.Regex.Haystack

/-!
# Automata

An expression that needs no backtracking is turned into an automaton whose forks are ordered: the
match that the first choices lead to wins. A search follows the choices in order and never visits a
state twice at one place, since a second visit can only fail as the first did; so it takes time in
proportion to states and characters.
-/

namespace TextScopes.Regex

open Unicode (CharSet)

/-- A state; it says where to go on. -/
inductive State where
  | char (c : Char) (next : Nat)
  | set (s : CharSet) (next : Nat)
  | any (newline : Bool) (next : Nat)
  | assertion (a : Assertion) (next : Nat)
  | save (slot next : Nat)
  /-- The first way is tried first. -/
  | fork (first second : Nat)
  | accept
  deriving Inhabited

/-- The states and the first of them. -/
structure Automaton where
  states : Array State
  start : Nat
  deriving Inhabited

namespace Automaton

/-- The memory that the automaton of an expression may take, in bytes. -/
def weightLimit : Nat := 10 * Nat.pow 2 20

/-- Adds a state and gives its number. -/
def push (s : State) : StateM (Array State) Nat := fun states => (states.size, states.push s)

/-- Replaces a state. -/
def put (i : Nat) (s : State) : StateM (Array State) Unit := fun states => ((), states.set! i s)

/-- A fork that prefers `body` when greedy and `skip` when not. -/
def forkTo (greedy : Bool) (body skip : Nat) : State :=
  if greedy then .fork body skip else .fork skip body

/-- The characters of a class that fold together with `c`, as a set. -/
def foldSet (c : Char) : CharSet := .ofCodes (Unicode.foldClass c.toNat)

/-- `f` applied `n` times in a row. -/
def times (n : Nat) (f : Nat → StateM (Array State) Nat) (next : Nat) :
    StateM (Array State) Nat :=
  match n with
  | 0 => return next
  | n + 1 => do
    let next ← f next
    times n f next

/-- A run of `n` optional repetitions inside each other, all leaving for `out`. -/
def optionals (n : Nat) (greedy : Bool) (out : Nat) (f : Nat → StateM (Array State) Nat)
    (next : Nat) : StateM (Array State) Nat :=
  match n with
  | 0 => return next
  | n + 1 => do
    let body ← f next
    let fork ← push (forkTo greedy body out)
    optionals n greedy out f fork

/-- Builds the states for an expression in front of the state `next`, and gives the first of
them. -/
def build (node : Node) (next : Nat) : StateM (Array State) Nat :=
  match node with
  | .empty => return next
  | .any newline => push (.any newline next)
  | .assertion a => push (.assertion a next)
  | .char c fold => push (if fold then .set (foldSet c) next else .char c next)
  | .set s => push (.set s next)
  | .concat nodes => buildAll nodes next
  | .alt nodes => buildAlt nodes next
  | .group index node => do
    let stop ← push (.save (2 * index + 1) next)
    let inner ← build node stop
    push (.save (2 * index) inner)
  | .repeat lo hi greedy node =>
    match hi with
    | some hi => do
      let inner ← optionals (hi - lo) greedy next (build node) next
      times lo (build node) inner
    | none => do
      let fork ← push .accept
      let body ← build node fork
      put fork (forkTo greedy body next)
      if 0 < lo then times (lo - 1) (build node) body
      else if 0 < (node.sizeIn []).1.least then return fork
      else push (forkTo greedy body next)
  | _ => return next
where
  buildAll (nodes : List Node) (next : Nat) : StateM (Array State) Nat :=
    match nodes with
    | [] => return next
    | node :: nodes => do
      let next ← buildAll nodes next
      build node next
  buildAlt (nodes : List Node) (next : Nat) : StateM (Array State) Nat :=
    match nodes with
    | [] => return next
    | [node] => build node next
    | node :: nodes => do
      let first ← build node next
      let second ← buildAlt nodes next
      push (.fork first second)

/-- The automaton of an expression that needs no backtracking; nothing when a repetition is out of
bounds or the automaton would grow too large. -/
def ofNode? (node : Node) : Option Automaton :=
  if node.boundsOk && node.weight ≤ weightLimit then
    let (start, states) := (do
      let accept ← push .accept
      build node accept).run #[]
    some ⟨states, start⟩
  else none

/-- A place in a search: a state, the number of a character and the groups found so far. -/
structure Thread where
  state : Nat
  pos : Nat
  slots : Slots

/-- Follows the threads, the first one first, until one accepts, at the place `goal` if one is
given. `visited` marks states at places from `origin` on. -/
def follow (a : Automaton) (h : Haystack) (origin : Nat) (goal : Option Nat) :
    Nat → Array Bool → List Thread → Option Thread × Array Bool
  | 0, visited, _ => (none, visited)
  | _ + 1, visited, [] => (none, visited)
  | fuel + 1, visited, t :: ts =>
    let mark := (t.pos - origin) * a.states.size + t.state
    if (visited[mark]?).getD true then follow a h origin goal fuel visited ts
    else
      let visited := visited.set! mark true
      match a.states[t.state]? with
      | none => follow a h origin goal fuel visited ts
      | some .accept =>
        if goal.all (· = t.pos) then (some t, visited) else follow a h origin goal fuel visited ts
      | some (.save slot next) =>
        let slots := if slot < t.slots.size then t.slots.set! slot (some t.pos) else t.slots
        follow a h origin goal fuel visited (⟨next, t.pos, slots⟩ :: ts)
      | some (.fork x y) =>
        follow a h origin goal fuel visited
          (⟨x, t.pos, t.slots⟩ :: ⟨y, t.pos, t.slots⟩ :: ts)
      | some (.assertion c next) =>
        if h.holds t.pos c then follow a h origin goal fuel visited ({ t with state := next } :: ts)
        else follow a h origin goal fuel visited ts
      | some (.char c next) =>
        if h.at? t.pos = some c then
          follow a h origin goal fuel visited (⟨next, t.pos + 1, t.slots⟩ :: ts)
        else follow a h origin goal fuel visited ts
      | some (.set s next) =>
        if (h.at? t.pos).any s.contains then
          follow a h origin goal fuel visited (⟨next, t.pos + 1, t.slots⟩ :: ts)
        else follow a h origin goal fuel visited ts
      | some (.any newline next) =>
        if (h.at? t.pos).any fun c => newline || c ≠ '\n' then
          follow a h origin goal fuel visited (⟨next, t.pos + 1, t.slots⟩ :: ts)
        else follow a h origin goal fuel visited ts

/-- Steps that suffice to follow threads in the text from `origin` on: each marks a state at a place
or drops a thread, and each mark adds at most two threads. -/
def stepBound (a : Automaton) (h : Haystack) (origin : Nat) : Nat :=
  3 * (a.states.size * (h.size - origin + 1)) + 3

/-- No state marked at any place. -/
def unmarked (a : Automaton) (h : Haystack) (origin : Nat) : Array Bool :=
  Array.replicate (a.states.size * (h.size - origin + 1)) false

/-- The match that starts in front of character `pos`, the slots given being those before. -/
def matchAt (a : Automaton) (h : Haystack) (slots : Slots) (pos : Nat) : Option Thread :=
  (follow a h pos none (a.stepBound h pos) (a.unmarked h pos) [⟨a.start, pos, slots⟩]).1

/-- The match of the most characters that stops in front of character `goal`: the starts are tried
from the front of the text on. -/
def matchBefore (a : Automaton) (h : Haystack) (slots : Slots) (goal : Nat) : Option Thread :=
  (List.range (goal + 1)).findSome? fun start =>
    (follow a h start (some goal) (a.stepBound h start) (a.unmarked h start)
      [⟨a.start, start, slots⟩]).1

/-- Tries the places from `pos` on in turn; marks are kept, as what failed once fails again. -/
def scan (a : Automaton) (h : Haystack) (origin : Nat) (slots : Slots) :
    Nat → Nat → Array Bool → Option Thread
  | 0, _, _ => none
  | fuel + 1, pos, visited =>
    if h.size < pos then none
    else
      match follow a h origin none (a.stepBound h origin) visited [⟨a.start, pos, slots⟩] with
      | (some t, _) => some t
      | (none, visited) => scan a h origin slots fuel (pos + 1) visited

/-- The first match at or behind character `pos`. -/
def search (a : Automaton) (h : Haystack) (slots : Slots) (pos : Nat) : Option Thread :=
  a.scan h pos slots (h.size - pos + 1) pos (a.unmarked h pos)

end Automaton

end TextScopes.Regex
