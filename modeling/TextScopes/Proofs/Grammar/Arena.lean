import Mathlib.Data.List.Basic
import TextScopes.Proofs.Grammar.Sites

/-!
# Languages in one arena

Languages can also be laid out while their entries are read, one behind the other in one arena, as
`add_grammar` does. An entry is pushed when all that it holds has been, and a repository is filled
while its entries are pushed (`Arena.build`). That a definition is refused shows when a malformed
one of its top-level patterns is met, in the midst of this; then all lists of the arena are cut to
the lengths that they had before (`Arena.add`). Every rule gets a repository, an empty one when it
declares none, and links are followed when all is laid out.

An arena is the beginning of each that is made from it by putting something behind what is there
(`Arena.Precedes`), and to cut the later one back gives the arena again
(`Arena.Precedes.rollback_eq`).
-/

namespace TextScopes

variable {E : Engine}

/-- What is at a place of an arena. -/
inductive Arena.Node (E : Engine) where
  /-- A rule, with the places of those that it holds. -/
  | rule (name : Option String) (kind : Kind E) (children : List Nat)
  /-- An include, with the nearest repository around it and the language that declares it. -/
  | link (reference : Reference) (shelf volume : Nat)

/-- A repository in an arena, with the one around it. -/
structure Arena.Shelf where
  parent? : Option Nat
  entries : Repository

/-- A language in an arena. -/
structure Arena.Volume where
  scopeName : String
  /-- The place of the root. -/
  root : Nat
  /-- The outermost repository. -/
  shelf : Nat

/-- Languages laid out one behind the other. Places, repositories and languages have numbers that
count all of those before them, of whatever language. -/
@[ext]
structure Arena (E : Engine) where
  nodes : List (Arena.Node E)
  /-- The candidates of each place, once they have been asked for. -/
  candidates : List (Option (List Nat))
  shelves : List Arena.Shelf
  volumes : List Arena.Volume
  /-- The places of includes. -/
  links : List Nat
  aligned : candidates.length = nodes.length

namespace Arena

namespace Node

/-- Whether there is an include. -/
def isLink : Node E → Bool
  | .rule _ _ _ => false
  | .link _ _ _ => true

/-- The rule with other ones that it holds. -/
def withChildren (children : List Nat) : Node E → Node E
  | .rule name kind _ => .rule name kind children
  | .link reference shelf volume => .link reference shelf volume

end Node

/-- The lengths that an arena's lists had at a moment. -/
structure Mark where
  nodes : Nat
  shelves : Nat
  volumes : Nat
  links : Nat

variable {arena later : Arena E}

/-- The arena of no languages. -/
def empty : Arena E := ⟨[], [], [], [], [], rfl⟩

/-- Pushes a node, which nobody has asked for candidates yet. -/
def push (arena : Arena E) (node : Node E) : Arena E where
  nodes := arena.nodes ++ [node]
  candidates := arena.candidates ++ [none]
  shelves := arena.shelves
  volumes := arena.volumes
  links := if node.isLink then arena.links ++ [arena.nodes.length] else arena.links
  aligned := by rw [List.length_append, List.length_append, arena.aligned]; rfl

/-- Pushes a repository that is still to be filled (`push_repository`). -/
def pushShelf (arena : Arena E) (parent? : Option Nat) : Arena E :=
  { arena with shelves := arena.shelves ++ [⟨parent?, []⟩] }

/-- Pushes a language. -/
def pushVolume (arena : Arena E) (volume : Volume) : Arena E :=
  { arena with volumes := arena.volumes ++ [volume] }

/-- Puts entries into a repository. -/
def store (arena : Arena E) (shelf : Nat) (entries : Repository) : Arena E :=
  { arena with
    shelves := arena.shelves.modify shelf fun own =>
      { own with entries := own.entries ++ entries } }

/-- Gives the rule at a place those that it holds. -/
def setChildren (arena : Arena E) (place : Nat) (children : List Nat) : Arena E :=
  { arena with
    nodes := arena.nodes.modify place (Node.withChildren children)
    aligned := by rw [List.length_modify, arena.aligned] }

/-- The lengths of the lists. -/
def mark (arena : Arena E) : Mark :=
  ⟨arena.nodes.length, arena.shelves.length, arena.volumes.length, arena.links.length⟩

/-- Cuts the lists to the lengths of a mark. -/
def rollback (arena : Arena E) (mark : Mark) : Arena E where
  nodes := arena.nodes.take mark.nodes
  candidates := arena.candidates.take mark.nodes
  shelves := arena.shelves.take mark.shelves
  volumes := arena.volumes.take mark.volumes
  links := arena.links.take mark.links
  aligned := by rw [List.length_take, List.length_take, arena.aligned]

/-- Builds an entry of a language inside a repository, and gives its place (`build_pattern`); a
malformed one has none. -/
def build (volume shelf : Nat) (arena : Arena E) : Entry E → Option Nat × Arena E
  | .link reference => (some arena.nodes.length, arena.push (.link reference shelf volume))
  | .rule name kind? patterns repository =>
    let own := arena.shelves.length
    let filled := fill volume own (arena.pushShelf (some shelf)) repository
    match kind? with
    | none => (none, filled)
    | some kind =>
      let held := buildAll volume own filled patterns
      (some held.2.nodes.length, held.2.push (.rule name kind held.1))
where
  /-- Builds the entries of a list, and passes over the malformed ones. -/
  buildAll (volume shelf : Nat) (arena : Arena E) : List (Entry E) → List Nat × Arena E
    | [] => ([], arena)
    | e :: rest =>
      let head := build volume shelf arena e
      let tail := buildAll volume shelf head.2 rest
      (head.1.toList ++ tail.1, tail.2)
  /-- Builds the entries of a repository, and stores the places of those that are not malformed. -/
  fill (volume shelf : Nat) (arena : Arena E) : List (String × Entry E) → Arena E
    | [] => arena
    | (key, e) :: rest =>
      match build volume shelf arena e with
      | (none, built) => fill volume shelf built rest
      | (some n, built) => fill volume shelf (built.store shelf [(key, n)]) rest

/-- Builds top-level patterns, and stops at the first that is malformed with its
number in the list. -/
def buildTop (volume shelf index : Nat) (arena : Arena E) :
    List (Entry E) → Except Nat (List Nat) × Arena E
  | [] => (.ok [], arena)
  | e :: rest =>
    match build volume shelf arena e with
    | (none, built) => (.error index, built)
    | (some n, built) =>
      let tail := buildTop volume shelf (index + 1) built rest
      (tail.1.map (n :: ·), tail.2)

/-- Pushes what a language has before its entries are built: a repository, a root that holds nothing
yet, and the language. -/
def pushLanguage (arena : Arena E) (scopeName : String) : Arena E :=
  ((arena.pushShelf none).push (.rule none .container [])).pushVolume
    ⟨scopeName, arena.nodes.length, arena.shelves.length⟩

/-- Adds the language of a definition, and gives its number (`add_grammar`). The root comes first,
and is given what it holds when that has been built. -/
def add (arena : Arena E) (definition : Definition) : Except DocumentError Nat × Arena E :=
  let volume := arena.volumes.length
  let shelf := arena.shelves.length
  let filled := build.fill volume shelf (arena.pushLanguage definition.scopeName)
    (definition.entries E)
  match buildTop volume shelf 0 filled (definition.rules E) with
  | (.ok children, built) => (.ok volume, built.setChildren arena.nodes.length children)
  | (.error index, built) =>
    (.error (.invalidPattern index definition.scopeName), built.rollback arena.mark)

/-- The number of a language (`grammar_slot`). -/
def volume? (arena : Arena E) (name : String) : Option Nat :=
  arena.volumes.findIdx? (·.scopeName = name)

/-- Adds the languages of definitions, as far as their names are not there already and they are not
refused. -/
def addAll (arena : Arena E) : List Definition → Arena E
  | [] => arena
  | definition :: rest =>
    match arena.volume? definition.scopeName with
    | some _ => addAll arena rest
    | none => addAll (arena.add definition).2 rest

/-- The arena of a definition and those that it may refer to. -/
def ofDefinitions (E : Engine) (definition : Definition) (others : List Definition) :
    Except DocumentError (Arena E) :=
  match (empty : Arena E).add definition with
  | (.ok _, arena) => .ok (arena.addAll others)
  | (.error e, _) => .error e

/-! ### Putting something behind what is there -/

/-- Nodes and repositories to be put behind those of an arena. -/
structure Addition (E : Engine) where
  nodes : List (Node E)
  shelves : List Shelf

/-- One addition behind another. -/
def Addition.append (x y : Addition E) : Addition E :=
  ⟨x.nodes ++ y.nodes, x.shelves ++ y.shelves⟩

instance : Append (Addition E) := ⟨Addition.append⟩

@[simp]
theorem Addition.nodes_append (x y : Addition E) : (x ++ y).nodes = x.nodes ++ y.nodes := rfl

@[simp]
theorem Addition.shelves_append (x y : Addition E) :
    (x ++ y).shelves = x.shelves ++ y.shelves := rfl

theorem Addition.append_assoc (x y z : Addition E) : x ++ y ++ z = x ++ (y ++ z) :=
  congrArg₂ Addition.mk (List.append_assoc ..) (List.append_assoc ..)

/-- Puts an addition behind what is there. -/
def extend (arena : Arena E) (x : Addition E) : Arena E where
  nodes := arena.nodes ++ x.nodes
  candidates := arena.candidates ++ x.nodes.map fun _ => none
  shelves := arena.shelves ++ x.shelves
  volumes := arena.volumes
  links := arena.links ++ x.nodes.findIdxs Node.isLink arena.nodes.length
  aligned := by
    rw [List.length_append, List.length_append, List.length_map, arena.aligned]

@[simp]
theorem nodes_pushShelf (arena : Arena E) (parent? : Option Nat) :
    (arena.pushShelf parent?).nodes = arena.nodes := rfl

@[simp]
theorem length_shelves_pushShelf (arena : Arena E) (parent? : Option Nat) :
    (arena.pushShelf parent?).shelves.length = arena.shelves.length + 1 := List.length_append

@[simp]
theorem nodes_store (arena : Arena E) (shelf : Nat) (entries : Repository) :
    (arena.store shelf entries).nodes = arena.nodes := rfl

@[simp]
theorem length_shelves_store (arena : Arena E) (shelf : Nat) (entries : Repository) :
    (arena.store shelf entries).shelves.length = arena.shelves.length := List.length_modify ..

@[simp]
theorem length_nodes_extend (arena : Arena E) (x : Addition E) :
    (arena.extend x).nodes.length = arena.nodes.length + x.nodes.length := List.length_append

@[simp]
theorem length_shelves_extend (arena : Arena E) (x : Addition E) :
    (arena.extend x).shelves.length = arena.shelves.length + x.shelves.length := List.length_append

/-- Two additions are put behind what is there one after the other. -/
theorem extend_append (arena : Arena E) (x y : Addition E) :
    arena.extend (x ++ y) = (arena.extend x).extend y := by
  refine Arena.ext ?_ ?_ ?_ rfl ?_
  · simp [extend]
  · simp [extend]
  · simp [extend]
  · simp [extend, List.findIdxs_append]

@[simp]
theorem extend_nil (arena : Arena E) : arena.extend ⟨[], []⟩ = arena := by
  apply Arena.ext <;> simp [extend]

/-- To push a node is to put it behind what is there. -/
theorem push_eq_extend (arena : Arena E) (node : Node E) :
    arena.push node = arena.extend ⟨[node], []⟩ := by
  refine Arena.ext rfl rfl ?_ rfl ?_
  · simp [push, extend]
  · simp only [push, extend, List.findIdxs_singleton]
    split <;> simp

/-- A repository that is there can be filled before something is put behind it, or after. -/
theorem extend_store {shelf : Nat} (h : shelf < arena.shelves.length) (entries : Repository)
    (x : Addition E) :
    (arena.store shelf entries).extend x = (arena.extend x).store shelf entries := by
  refine Arena.ext rfl rfl ?_ rfl rfl
  have hlt : shelf < (arena.shelves ++ x.shelves).length := by
    rw [List.length_append]
    omega
  simp only [extend, store]
  rw [List.modify_eq_take_cons_drop h, List.modify_eq_take_cons_drop hlt,
    List.getElem_append_left h, List.take_append_of_le_length (Nat.le_of_lt h),
    List.drop_append_of_le_length h, List.append_assoc, List.cons_append]

@[simp]
theorem store_nil (arena : Arena E) (shelf : Nat) : arena.store shelf [] = arena := by
  refine Arena.ext rfl rfl ?_ rfl rfl
  simp only [store, List.append_nil]
  exact List.modify_id shelf arena.shelves

/-- A repository can be filled in two steps. -/
theorem store_store (arena : Arena E) (shelf : Nat) (entries more : Repository) :
    (arena.store shelf entries).store shelf more = arena.store shelf (entries ++ more) := by
  refine Arena.ext rfl rfl ?_ rfl rfl
  simp only [store]
  rw [List.modify_modify_eq]
  congr 1
  funext own
  simp

/-- A repository that is pushed first and filled last has its entries as if pushed with them. -/
theorem store_extend_pushShelf (arena : Arena E) (parent? : Option Nat) (x : Addition E)
    (entries : Repository) :
    ((arena.pushShelf parent?).extend x).store arena.shelves.length entries =
      arena.extend ⟨x.nodes, ⟨parent?, entries⟩ :: x.shelves⟩ := by
  -- Only the shelf that was pushed first differs, and it comes before those of the addition.
  refine Arena.ext rfl rfl ?_ rfl rfl
  have hlt : arena.shelves.length <
      (arena.shelves ++ [Shelf.mk parent? []] ++ x.shelves).length := by
    simp only [List.length_append, List.length_singleton]
    omega
  simp only [store, extend, pushShelf]
  rw [List.modify_eq_take_cons_drop hlt]
  simp

/-- An arena is the beginning of a later one. -/
structure Precedes (arena later : Arena E) : Prop where
  nodes : arena.nodes <+: later.nodes
  candidates : arena.candidates <+: later.candidates
  shelves : arena.shelves <+: later.shelves
  volumes : arena.volumes <+: later.volumes
  links : arena.links <+: later.links

/-- What a beginning of an arena begins with, the arena begins with. -/
theorem Precedes.trans {between : Arena E} (h : arena.Precedes between)
    (h' : between.Precedes later) : arena.Precedes later :=
  ⟨h.nodes.trans h'.nodes, h.candidates.trans h'.candidates, h.shelves.trans h'.shelves,
    h.volumes.trans h'.volumes, h.links.trans h'.links⟩

/-- What is in a list stays where it is in one that begins with it. -/
theorem getElem?_of_begins {α : Type} {xs ys : List α} {n : Nat} {a : α} (h : xs <+: ys)
    (hn : xs[n]? = some a) : ys[n]? = some a := by
  obtain ⟨hlt, rfl⟩ := List.getElem?_eq_some_iff.1 hn
  exact List.prefix_iff_getElem?.1 h n hlt

/-- An arena is the beginning of what it is with something behind it. -/
theorem precedes_extend (arena : Arena E) (x : Addition E) : arena.Precedes (arena.extend x) :=
  ⟨List.prefix_append .., List.prefix_append .., List.prefix_append .., List.prefix_rfl,
    List.prefix_append ..⟩

/-- An arena is the beginning of what it is with one more language. -/
theorem precedes_pushVolume (arena : Arena E) (volume : Volume) :
    arena.Precedes (arena.pushVolume volume) :=
  ⟨List.prefix_rfl, List.prefix_rfl, List.prefix_rfl, List.prefix_append .., List.prefix_rfl⟩

/-- To cut a later arena to the lengths that an arena had gives the arena. -/
theorem Precedes.rollback_eq (h : arena.Precedes later) : later.rollback arena.mark = arena := by
  apply Arena.ext
  · exact (List.prefix_iff_eq_take.1 h.nodes).symm
  · -- There are as many candidates as places, and the mark has the number of the latter.
    have hcandidates := List.prefix_iff_eq_take.1 h.candidates
    rw [arena.aligned] at hcandidates
    exact hcandidates.symm
  · exact (List.prefix_iff_eq_take.1 h.shelves).symm
  · exact (List.prefix_iff_eq_take.1 h.volumes).symm
  · exact (List.prefix_iff_eq_take.1 h.links).symm

/-- A rule that is pushed first can be given what it holds last. -/
theorem setChildren_extend (arena : Arena E) (node : Node E) (x : Addition E)
    (children : List Nat) :
    (arena.extend (⟨[node], []⟩ ++ x)).setChildren arena.nodes.length children =
      arena.extend (⟨[node.withChildren children], []⟩ ++ x) := by
  have hlink : (node.withChildren children).isLink = node.isLink := by cases node <;> rfl
  have hlt : arena.nodes.length < (arena.nodes ++ ([node] ++ x.nodes)).length := by
    simp only [List.length_append, List.length_singleton]
    omega
  -- Only the first node that was added differs, and it stays what it is, a link or a rule.
  refine Arena.ext ?_ rfl rfl rfl ?_
  · simp only [setChildren, extend, Addition.nodes_append]
    rw [List.modify_eq_take_cons_drop hlt]
    simp
  · simp [setChildren, extend, List.findIdxs_cons, hlink]

end Arena

end TextScopes
