import TextScopes.Grammar.Definition
import TextScopes.Grammar.Entry

/-!
# Rules of one language

The entries of a definition are numbered in the order in which they are complete: the entries of a
rule's repository come before those that it holds, and both before the rule itself. Number 0 is the
root, which holds the top-level patterns. How many numbers an entry takes follows from its form, so
every entry's number is known before any rule is laid out, and a link can carry the repositories
that it sees. The program numbers entries by pushing them on one arena, in `add_grammar` and what
that calls; here each language has numbers of its own.
-/

namespace TextScopes

/-- The numbers of a repository's entries, by key. -/
abbrev Repository := List (String × Nat)

/-- An include, with what it sees from where it is declared. -/
structure Link where
  reference : Reference
  /-- The language that declares the include. -/
  language : String
  /-- The repositories around it, the nearest first. -/
  visible : List Repository
  deriving DecidableEq, Inhabited, Repr

/-- A place in a language: a rule, or a link whose target is still to be found. -/
inductive Slot (E : Engine) where
  | rule (rule : Rule E)
  | link (link : Link)

instance {E : Engine} : Inhabited (Slot E) := ⟨.rule (.inert E)⟩

namespace Entry

variable {E : Engine}

/-- The places that an entry takes. -/
def size : Entry E → Nat
  | .link _ => 1
  | .rule _ none _ repository => sizeNamed repository
  | .rule _ (some _) patterns repository => sizeNamed repository + sizeAll patterns + 1
where
  sizeAll : List (Entry E) → Nat
    | [] => 0
    | e :: rest => size e + sizeAll rest
  sizeNamed : List (String × Entry E) → Nat
    | [] => 0
    | (_, e) :: rest => size e + sizeNamed rest

/-- The numbers of the well-formed entries of a list that is laid out from `first` on. -/
def numbers (first : Nat) : List (Entry E) → List Nat
  | [] => []
  | e :: rest =>
    let next := first + e.size
    if e.isWellFormed then (next - 1) :: numbers next rest else numbers next rest

/-- The repository of the well-formed entries that are laid out from `first` on. -/
def named (first : Nat) : List (String × Entry E) → Repository
  | [] => []
  | (key, e) :: rest =>
    let next := first + e.size
    if e.isWellFormed then (key, next - 1) :: named next rest else named next rest

/-- Lays an entry of a language out from number `first` on. -/
def slots (language : String) (first : Nat) (visible : List Repository) : Entry E → List (Slot E)
  | .link reference => [.link ⟨reference, language, visible⟩]
  | .rule name kind? patterns repository =>
    let visible := named first repository :: visible
    let inner := slotsNamed language first visible repository
    match kind? with
    | none => inner
    | some kind =>
      -- The rule itself comes last, when the numbers of all that it holds are known.
      let next := first + size.sizeNamed repository
      inner ++ slotsAll language next visible patterns
        ++ [.rule ⟨name, kind, (numbers next patterns).map (⟨language, ·⟩)⟩]
where
  slotsAll (language : String) (first : Nat) (visible : List Repository) :
      List (Entry E) → List (Slot E)
    | [] => []
    | e :: rest =>
      slots language first visible e ++ slotsAll language (first + e.size) visible rest
  slotsNamed (language : String) (first : Nat) (visible : List Repository) :
      List (String × Entry E) → List (Slot E)
    | [] => []
    | (_, e) :: rest =>
      slots language first visible e ++ slotsNamed language (first + e.size) visible rest

mutual

/-- An entry takes as many places as its size says. -/
theorem length_slots (language : String) (first : Nat) (visible : List Repository) :
    (e : Entry E) → (slots language first visible e).length = e.size
  | .link _ => rfl
  | .rule _ none _ repository => by
    simp only [slots, size]
    exact length_slotsNamed language first _ repository
  | .rule _ (some _) patterns repository => by
    simp only [slots, size, List.length_append, List.length_singleton]
    rw [length_slotsNamed language first _ repository, length_slotsAll language _ _ patterns]

/-- The entries of a list take as many places as their sizes say. -/
theorem length_slotsAll (language : String) (first : Nat) (visible : List Repository) :
    (es : List (Entry E)) →
      (slots.slotsAll language first visible es).length = size.sizeAll es
  | [] => rfl
  | e :: rest => by
    simp only [slots.slotsAll, size.sizeAll, List.length_append]
    rw [length_slots language first visible e, length_slotsAll language _ visible rest]

/-- The entries of a repository take as many places as their sizes say. -/
theorem length_slotsNamed (language : String) (first : Nat) (visible : List Repository) :
    (es : List (String × Entry E)) →
      (slots.slotsNamed language first visible es).length = size.sizeNamed es
  | [] => rfl
  | (_, e) :: rest => by
    simp only [slots.slotsNamed, size.sizeNamed, List.length_append]
    rw [length_slots language first visible e, length_slotsNamed language _ visible rest]

end

/-- What gives a rule takes a place. -/
theorem size_pos {e : Entry E} (h : e.isWellFormed = true) : 0 < e.size := by
  match e with
  | .link _ => exact Nat.one_pos
  | .rule _ none _ _ => simp [isWellFormed] at h
  | .rule _ (some _) _ _ =>
    simp only [size]
    omega

end Entry

/-- The rules and links of one language. -/
structure Language (E : Engine) where
  scopeName : String
  slots : Array (Slot E)
  /-- The outermost repository. -/
  repository : Repository

namespace Language

variable {E : Engine}

/-- Lays out the entries of a definition (`add_grammar`); refused when one of its top-level
patterns is malformed. -/
def ofDefinition (E : Engine) (definition : Definition) : Except DocumentError (Language E) :=
  let name := definition.scopeName
  let repository := definition.repository.map fun (key, v) => (key, Entry.ofValue E v)
  let patterns := definition.patterns.map (Entry.ofValue E)
  match patterns.findIdx? (!·.isWellFormed) with
  | some index => .error (.invalidPattern index name)
  | none =>
    -- Behind the root come the entries of the repository, and then the patterns.
    let next := 1 + Entry.size.sizeNamed repository
    let visible := [Entry.named 1 repository]
    let root : Rule E := ⟨none, .container, (Entry.numbers next patterns).map (⟨name, ·⟩)⟩
    .ok ⟨name,
      (.rule root :: Entry.slots.slotsNamed name 1 visible repository
        ++ Entry.slots.slotsAll name next visible patterns).toArray,
      Entry.named 1 repository⟩

end Language

end TextScopes
