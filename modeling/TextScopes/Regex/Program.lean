import TextScopes.Regex.Automaton

/-!
# Programs

An expression that needs backtracking is turned into a program: instructions that move over the
text, remember where to go back to, and test what was found. Parts of it that need no backtracking,
and whose first match is as good as any, are left to automata, which count as one instruction.

Which parts those are shows in how much backtracking a search takes, and that is limited. In a row
of expressions the front of fixed size goes to an automaton; so does the back of it, which has to be
of fixed size too where something may follow that makes the row try again.
-/

namespace TextScopes.Regex

open Unicode (CharSet)

/-- One step of a program. The registers hold the ends of groups first, then counters and places. -/
inductive Instr where
  | accept
  | char (c : Char)
  | set (s : CharSet)
  | any (newline : Bool)
  | assertion (a : Assertion)
  /-- Goes on at the first place, and at the second when that fails. -/
  | split (first second : Nat)
  | jump (target : Nat)
  /-- Keeps the place in the text. -/
  | save (register : Nat)
  | zero (register : Nat)
  /-- Goes back to a place kept in a register. -/
  | restore (register : Nat)
  /-- Counts a round of a repetition: leaves for `next` after `hi` rounds, and from `lo` on keeps
  the other way for when the one taken fails. -/
  | repeat (greedy : Bool) (lo : Nat) (hi : Option Nat) (next counter : Nat)
  /-- The same without an upper end for a body that may take no character: a round that took none
  fails. -/
  | repeatMoving (greedy : Bool) (lo next counter place : Nat)
  | goBack (count : Nat)
  /-- The body of a negative look-around has been found. -/
  | refuse
  | backref (group : Nat) (fold : Bool)
  | groupSet (group : Nat)
  | beginAtomic
  /-- Forgets the ways kept since the matching begin. -/
  | endAtomic
  | delegate (a : Automaton) (groups : List Nat)
  /-- An automaton that has to stop here, wherever it starts. -/
  | delegateBehind (a : Automaton) (groups : List Nat)
  | searchStart
  deriving Inhabited

/-- The instructions, and the number of registers. -/
structure Program where
  code : Array Instr
  registers : Nat
  deriving Inhabited

/-- A program under construction. -/
abbrev Building := StateT Program Option

namespace Building

/-- The number of the next instruction. -/
def here : Building Nat := return (← get).code.size

/-- Adds an instruction at the end. -/
def emit (i : Instr) : Building Unit := modify fun p => { p with code := p.code.push i }

/-- Replaces an instruction. -/
def put (pc : Nat) (i : Instr) : Building Unit :=
  modify fun p => { p with code := p.code.set! pc i }

/-- A register that is not in use. -/
def newRegister : Building Nat := do
  let p ← get
  set { p with registers := p.registers + 1 }
  return p.registers

/-- The automaton of an expression. -/
def automaton (node : Node) : Building Automaton :=
  match Automaton.ofNode? node with
  | some a => return a
  | none => StateT.lift none

/-- The instruction for an expression that takes one character or tests one place. -/
def simple? : Node → Option Instr
  | .char c fold => some (if fold then .set (Automaton.foldSet c) else .char c)
  | .set s => some (.set s)
  | .any newline => some (.any newline)
  | .assertion a => some (.assertion a)
  | _ => none

/-- Leaves a row of expressions to an automaton, or to instructions that cannot go another way. -/
def delegate (nodes : List Node) : Building Unit :=
  match nodes.mapM simple? with
  | some instrs => instrs.forM emit
  | none => do
    let node := Node.concat nodes
    emit (.delegate (← automaton node) node.groups)

/-- How an expression is built into a program: the groups referred to, and the sizes of groups. -/
structure Context where
  refs : List Nat
  sizes : Node.GroupSizes

/-- The size of an expression. -/
def Context.size (ctx : Context) (node : Node) : Node.Size := (node.sizeIn ctx.sizes).1

/-- Whether an expression is of fixed size and needs no backtracking. -/
def Context.isPlain (ctx : Context) (node : Node) : Bool :=
  (ctx.size node).fixed && !node.hard ctx.refs

/-- How many expressions at the front and at the back of a row are left to automata. -/
def Context.ends (ctx : Context) (followed : Bool) (nodes : List Node) : Nat × Nat :=
  let front := (nodes.takeWhile ctx.isPlain).length
  let back := ((nodes.drop front).reverse.takeWhile fun node =>
    if followed then ctx.isPlain node else !node.hard ctx.refs).length
  (front, back)

/-- Repeats what `body` builds. -/
def repeated (ctx : Context) (lo : Nat) (hi : Option Nat) (greedy : Bool) (node : Node)
    (body : Building Unit) : Building Unit := do
  let forkTo (first second : Nat) : Instr :=
    if greedy then .split first second else .split second first
  -- At most one round is a fork around the body.
  if lo = 0 ∧ hi = some 1 then
    let fork ← here
    emit (.split 0 0)
    body
    put fork (forkTo (fork + 1) (← here))
  else if hi = none ∧ (ctx.size node).least = 0 then
    -- The body may take no character, so that a round is told from the one before by its place.
    let counter ← newRegister
    let place ← newRegister
    emit (.zero counter)
    let start ← here
    emit .accept
    body
    emit (.jump start)
    put start (.repeatMoving greedy lo (← here) counter place)
  else if hi = none ∧ lo = 0 then
    -- Any number of rounds is a fork before the body, to which it goes back.
    let fork ← here
    emit (.split 0 0)
    body
    emit (.jump fork)
    put fork (forkTo (fork + 1) (← here))
  else if hi = none ∧ lo = 1 then
    -- At least one round is a fork behind the body.
    let start ← here
    body
    let fork ← here
    emit (forkTo start (fork + 1))
  else
    -- Rounds that have to be counted; the place of the test is filled when its end is known.
    let counter ← newRegister
    emit (.zero counter)
    let start ← here
    emit .accept
    body
    emit (.jump start)
    put start (.repeat greedy lo hi (← here) counter)

/-- Looks around for one expression, whose body `inner` builds. -/
def lookFor (ctx : Context) (l : Look) (node : Node) (inner : Building Unit) : Building Unit := do
  let found : Building Unit :=
    if !l.isBehind then inner
    else if (ctx.size node).fixed then do
      emit (.goBack (ctx.size node).least)
      inner
    else if node.hard ctx.refs then StateT.lift none
    else do emit (.delegateBehind (← automaton node) node.groups)
  if l.isNegative then
    -- What is found takes the way around it off the stack, and fails.
    let fork ← here
    emit (.split 0 0)
    found
    emit .refuse
    put fork (.split (fork + 1) (← here))
  else
    let place ← newRegister
    emit (.save place)
    found
    emit (.restore place)

/-- Keeps another way before each of the expressions but the last, and leaves for the end
behind each of them. -/
def alternatives : List (Building Unit) → Building (List Nat)
  | [] => return []
  | [last] => do
    last
    return []
  | first :: rest => do
    let fork ← here
    emit (.split 0 0)
    first
    let leave ← here
    emit .accept
    put fork (.split (fork + 1) (← here))
    return leave :: (← alternatives rest)

/-- Builds a choice. -/
def choose (ways : List (Building Unit)) : Building Unit := do
  let leaves ← alternatives ways
  let stop ← here
  leaves.forM fun leave => put leave (.jump stop)

mutual

/-- Builds the instructions of an expression. `followed` says that what comes behind may make it try
again. -/
def build (ctx : Context) (followed : Bool) (node : Node) : Building Unit :=
  if !followed && !node.hard ctx.refs then delegate [node]
  else
    match node with
    | .empty => return ()
    | .char c fold => delegate [.char c fold]
    | .set s => delegate [.set s]
    | .any newline => emit (.any newline)
    | .assertion a => emit (.assertion a)
    | .concat nodes => do
      let (front, back) := ctx.ends followed nodes
      -- The ends of the row need no way back, and only what is between them is built.
      if 0 < front then delegate (nodes.take front)
      buildSome ctx front (nodes.length - front - back) nodes
      if 0 < back then delegate (nodes.drop (nodes.length - back))
    | .alt nodes => choose (buildEach ctx followed nodes)
    | .group index node => do
      emit (.save (2 * index))
      build ctx followed node
      emit (.save (2 * index + 1))
    | .repeat lo hi greedy node =>
      repeated ctx lo hi greedy node
        (build ctx
          (if lo = 0 ∧ hi = some 1 then followed else followed || node.hard ctx.refs) node)
    | .look l node =>
      match node with
      | .alt nodes =>
        if l.isBehind && !(ctx.size (.alt nodes)).fixed then
          if l.isNegative then buildLooks ctx l nodes
          else choose (buildLookEach ctx l nodes)
        else lookFor ctx l (.alt nodes) (build ctx false (.alt nodes))
      | node => lookFor ctx l node (build ctx false node)
    | .backref group fold => emit (.backref group fold)
    | .groupSet group => emit (.groupSet group)
    | .atomic node => do
      emit .beginAtomic
      build ctx false node
      emit .endAtomic
    | .keepOut => emit (.save 0)
    | .searchStart => emit .searchStart
    | .conditional condition yes no => do
      -- The condition is left to succeed once; the way to the other branch is forgotten then.
      emit .beginAtomic
      let fork ← here
      emit (.split 0 0)
      build ctx followed condition
      emit .endAtomic
      build ctx followed yes
      let leave ← here
      emit .accept
      put fork (.split (fork + 1) (← here))
      build ctx followed no
      put leave (.jump (← here))

/-- Builds `count` expressions of a row behind the first `skip`. -/
def buildSome (ctx : Context) (skip count : Nat) (nodes : List Node) : Building Unit :=
  match nodes with
  | [] => return ()
  | node :: rest =>
    match skip, count with
    | skip + 1, count => buildSome ctx skip count rest
    | 0, count + 1 => do
      build ctx true node
      buildSome ctx 0 count rest
    | 0, 0 => return ()

/-- What builds each of the expressions. -/
def buildEach (ctx : Context) (followed : Bool) (nodes : List Node) : List (Building Unit) :=
  match nodes with
  | [] => []
  | node :: rest => build ctx followed node :: buildEach ctx followed rest

/-- What looks for each of the expressions. -/
def buildLookEach (ctx : Context) (l : Look) (nodes : List Node) : List (Building Unit) :=
  match nodes with
  | [] => []
  | node :: rest => lookFor ctx l node (build ctx false node) :: buildLookEach ctx l rest

/-- Looks for the expressions one after the other. -/
def buildLooks (ctx : Context) (l : Look) (nodes : List Node) : Building Unit :=
  match nodes with
  | [] => return ()
  | node :: rest => do
    lookFor ctx l node (build ctx false node)
    buildLooks ctx l rest

end

end Building

/-- The program that searches for an expression from where it starts: it tries the expression, and
where that fails goes on one character further. Group 0 is part of the expression. -/
def Program.ofNode? (refs : List Nat) (node : Node) (groupCount : Nat) : Option Program :=
  let ctx : Building.Context := ⟨refs, (node.sizeIn []).2⟩
  let build : Building Unit := do
    -- Three instructions go on by a character; the expression itself begins behind them.
    Building.emit (.split 3 1)
    Building.emit (.any true)
    Building.emit (.jump 0)
    Building.build ctx false node
    Building.emit .accept
  (build.run ⟨#[], 2 * (groupCount + 1)⟩).map (·.2)

end TextScopes.Regex
