import TextScopes.Regex.Program

/-!
# Running programs

A `Machine` runs a program with a stack of places to go back to. Each time a way fails the last
place is taken off, and after a million of those the search gives up. The registers as they were go
with each place, and so do the sizes that the stack had where atomic parts began.
-/

namespace TextScopes.Regex

/-- How often a search may go back. -/
def backtrackLimit : Nat := 1000000

/-- A place to go back to. -/
structure Frame where
  pc : Nat
  pos : Nat
  registers : Slots
  /-- The sizes of the stack where the open atomic parts began, the innermost first. -/
  marks : List Nat

/-- Where a program has got to: the frame it is in, the places to go back to and their number. -/
structure Machine where
  now : Frame
  stack : List Frame
  depth : Nat

namespace Machine

/-- What a step leads to. -/
inductive Outcome where
  | running (m : Machine)
  /-- The way taken has failed. -/
  | failed (stack : List Frame) (depth : Nat)
  | accepted (registers : Slots)

/-- The value of a register, if it has one. -/
def register (m : Machine) (r : Nat) : Option Nat := (m.now.registers[r]?).join

/-- The machine with a register set. -/
def setRegister (m : Machine) (r : Nat) (v : Option Nat) : Machine :=
  { m with now := { m.now with registers := m.now.registers.set! r v } }

/-- The machine at another instruction. -/
def goto (m : Machine) (pc : Nat) : Machine := { m with now := { m.now with pc := pc } }

/-- The machine at another place of the text. -/
def moveTo (m : Machine) (pos : Nat) : Machine := { m with now := { m.now with pos := pos } }

/-- The machine at the next instruction. -/
def next (m : Machine) : Machine := m.goto (m.now.pc + 1)

/-- Keeps another way for later. -/
def keep (m : Machine) (pc : Nat) : Machine :=
  { m with stack := { m.now with pc := pc } :: m.stack, depth := m.depth + 1 }

/-- The way taken fails. -/
def fail (m : Machine) : Outcome := .failed m.stack m.depth

/-- Takes places off the stack up to and including the one at instruction `pc`. -/
def dropTo (pc : Nat) : List Frame → Nat → List Frame × Nat
  | [], depth => ([], depth)
  | f :: rest, depth => if f.pc = pc then (rest, depth - 1) else dropTo pc rest (depth - 1)

/-- Whether two characters are the same, or fold together. -/
def sameChar (fold : Bool) (a b : Char) : Bool :=
  a = b || (fold && (Unicode.foldClass a.toNat).contains b.toNat)

/-- The place behind the text `wanted` when it stands at `pos`, taking just as many bytes. -/
def matchText (h : Haystack) (fold : Bool) (wanted : List Char) (pos : Nat) : Option Nat :=
  match wanted with
  | [] => some pos
  | c :: rest =>
    match h.at? pos with
    | some d => if sameChar fold c d then matchText h fold rest (pos + 1) else none
    | none => none

/-- The registers without the groups that an automaton finds anew. -/
def clearGroups (registers : Slots) (groups : List Nat) : Slots :=
  groups.foldl (fun rs g => (rs.set! (2 * g) none).set! (2 * g + 1) none) registers

/-- Carries out one instruction; `origin` is where the search began. -/
def step (p : Program) (h : Haystack) (origin : Nat) (m : Machine) : Outcome :=
  let pos := m.now.pos
  match p.code[m.now.pc]? with
  | none => m.fail
  | some .accept => .accepted m.now.registers
  | some (.char c) => if h.at? pos = some c then .running (m.moveTo (pos + 1)).next else m.fail
  | some (.set s) =>
    if (h.at? pos).any s.contains then .running (m.moveTo (pos + 1)).next else m.fail
  | some (.any newline) =>
    if (h.at? pos).any fun c => newline || c ≠ '\n' then .running (m.moveTo (pos + 1)).next
    else m.fail
  | some (.assertion a) => if h.holds pos a then .running m.next else m.fail
  | some (.split first second) => .running ((m.keep second).goto first)
  | some (.jump target) => .running (m.goto target)
  | some (.save r) => .running (m.setRegister r (some pos)).next
  | some (.zero r) => .running (m.setRegister r (some 0)).next
  | some (.restore r) => .running (m.moveTo ((m.register r).getD pos)).next
  | some (.repeat greedy lo hi next counter) =>
    let count := (m.register counter).getD 0
    -- After its last round a repetition is left for good, and before it may be left
    -- no other way is kept.
    if hi = some count then .running (m.goto next)
    else
      let m := m.setRegister counter (some (count + 1))
      if count < lo then .running m.next
      else if greedy then .running (m.keep next).next
      else .running ((m.keep (m.now.pc + 1)).goto next)
  | some (.repeatMoving greedy lo next counter place) =>
    let count := (m.register counter).getD 0
    -- A round that took nothing would be made again without end.
    if 0 < count ∧ m.register place = some pos then m.fail
    else
      let m := m.setRegister counter (some (count + 1))
      if count < lo then .running m.next
      else
        let m := m.setRegister place (some pos)
        if greedy then .running (m.keep next).next
        else .running ((m.keep (m.now.pc + 1)).goto next)
  | some (.goBack count) => if count ≤ pos then .running (m.moveTo (pos - count)).next else m.fail
  | some .refuse =>
    -- The place kept for the case that nothing is found lies right behind, and goes with all above
    -- it.
    let (stack, depth) := dropTo (m.now.pc + 1) m.stack m.depth
    .failed stack depth
  | some (.backref group fold) =>
    match m.register (2 * group), m.register (2 * group + 1) with
    | some a, some b =>
      -- A letter folds to one of another size, so that the bytes are compared too.
      let wanted := (h.chars.extract a b).toList
      match matchText h fold wanted pos with
      | some stop =>
        if h.offset stop - h.offset pos = h.offset b - h.offset a then .running (m.moveTo stop).next
        else m.fail
      | none => m.fail
    | _, _ => m.fail
  | some (.groupSet group) => if (m.register (2 * group)).isSome then .running m.next else m.fail
  | some .beginAtomic =>
    .running ({ m with now := { m.now with marks := m.depth :: m.now.marks } }).next
  | some .endAtomic =>
    match m.now.marks with
    | [] => m.fail
    | mark :: marks =>
      -- The places kept since the part began are dropped, so that it is not tried another way.
      .running { now := { m.now with marks := marks, pc := m.now.pc + 1 },
                 stack := m.stack.drop (m.depth - mark), depth := min m.depth mark }
  | some (.delegate a groups) =>
    match a.matchAt h (clearGroups m.now.registers groups) pos with
    | some t =>
      .running { m with now :=
        { m.now with pc := m.now.pc + 1, pos := t.pos, registers := t.slots } }
    | none => m.fail
  | some (.delegateBehind a groups) =>
    match a.matchBefore h (clearGroups m.now.registers groups) pos with
    | some t => .running { m with now := { m.now with pc := m.now.pc + 1, registers := t.slots } }
    | none => m.fail
  | some .searchStart => if pos = origin then .running m.next else m.fail

/-- Runs a program until it accepts, fails for good or has gone back too often. -/
def run (p : Program) (h : Haystack) (origin : Nat) : Nat → Nat → Machine → Option Slots
  | 0, _, _ => none
  | fuel + 1, budget, m =>
    match step p h origin m with
    | .running m => run p h origin fuel budget m
    | .accepted registers => some registers
    | .failed [] _ => none
    | .failed (f :: stack) depth =>
      match budget with
      | 0 => none
      | budget + 1 => run p h origin fuel budget ⟨f, stack, depth - 1⟩

end Machine

namespace Program

/-- Steps that suffice between two failures, for any text that is searched. -/
def stepBound (p : Program) (h : Haystack) : Nat :=
  (backtrackLimit + 1) * (p.code.size + 1) * (h.size + 2) * 1000

/-- The groups of the first match from character `origin` on. -/
def search (p : Program) (h : Haystack) (origin : Nat) : Option Slots :=
  let start : Frame := ⟨0, origin, Array.replicate p.registers none, []⟩
  Machine.run p h origin (p.stepBound h) backtrackLimit ⟨start, [], 0⟩

end Program

end TextScopes.Regex
