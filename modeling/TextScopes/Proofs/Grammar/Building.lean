import TextScopes.Proofs.Grammar.Arena

/-!
# What is added to an arena

What building an entry pushes depends on the arena only by the numbers that come next
(`Entry.added`), so that the arena it is built in is the beginning of what it gives
(`Arena.build_eq`). A definition that is accepted therefore adds what is known in advance
(`Arena.add_of_accepted`), and one that is refused leaves the arena as it was, however much has been
built before its malformed pattern is met (`Arena.add_of_refused`).
-/

namespace TextScopes

variable {E : Engine}

/-- The place of an entry that is laid out from a number on. -/
def Entry.number? (first : Nat) (e : Entry E) : Option Nat :=
  if e.isWellFormed then some (first + e.size - 1) else none

/-- The numbers of entries, from the first one on. -/
theorem Entry.numbers_cons (first : Nat) (e : Entry E) (rest : List (Entry E)) :
    numbers first (e :: rest) = (e.number? first).toList ++ numbers (first + e.size) rest := by
  rw [numbers, number?]
  split <;> rfl

/-- What an entry of a language adds inside a repository, from a place and a repository on. -/
def Entry.added (volume shelf first next : Nat) : Entry E → Arena.Addition E
  | .link reference => ⟨[.link reference shelf volume], []⟩
  | .rule name kind? patterns repository =>
    let inner := addedNamed volume next first (next + 1) repository
    let filled : Arena.Addition E :=
      ⟨inner.nodes, ⟨some shelf, named first repository⟩ :: inner.shelves⟩
    match kind? with
    | none => filled
    | some kind =>
      let behind := first + size.sizeNamed repository
      filled ++ addedAll volume next behind (next + filled.shelves.length) patterns
        ++ ⟨[.rule name kind (numbers behind patterns)], []⟩
where
  addedAll (volume shelf first next : Nat) : List (Entry E) → Arena.Addition E
    | [] => ⟨[], []⟩
    | e :: rest =>
      let head := added volume shelf first next e
      head ++ addedAll volume shelf (first + e.size) (next + head.shelves.length) rest
  addedNamed (volume shelf first next : Nat) : List (String × Entry E) → Arena.Addition E
    | [] => ⟨[], []⟩
    | (_, e) :: rest =>
      let head := added volume shelf first next e
      head ++ addedNamed volume shelf (first + e.size) (next + head.shelves.length) rest

namespace Entry

mutual

/-- An entry adds as many nodes as it takes places. -/
theorem length_nodes_added (volume shelf first next : Nat) :
    (e : Entry E) → (e.added volume shelf first next).nodes.length = e.size
  | .link _ => rfl
  | .rule _ none _ repository => by
    simp only [added, size]
    exact length_nodes_addedNamed volume next first _ repository
  | .rule _ (some _) patterns repository => by
    simp only [added, size, Arena.Addition.nodes_append, List.length_append, List.length_singleton]
    rw [length_nodes_addedNamed volume next first _ repository,
      length_nodes_addedAll volume next _ _ patterns]

/-- The entries of a list add as many nodes as they take places. -/
theorem length_nodes_addedAll (volume shelf first next : Nat) : (es : List (Entry E)) →
    (added.addedAll volume shelf first next es).nodes.length = size.sizeAll es
  | [] => rfl
  | e :: rest => by
    simp only [added.addedAll, size.sizeAll, Arena.Addition.nodes_append, List.length_append]
    rw [length_nodes_added volume shelf first next e, length_nodes_addedAll volume shelf _ _ rest]

/-- The entries of a repository add as many nodes as they take places. -/
theorem length_nodes_addedNamed (volume shelf first next : Nat) :
    (es : List (String × Entry E)) →
      (added.addedNamed volume shelf first next es).nodes.length = size.sizeNamed es
  | [] => rfl
  | (_, e) :: rest => by
    simp only [added.addedNamed, size.sizeNamed, Arena.Addition.nodes_append, List.length_append]
    rw [length_nodes_added volume shelf first next e, length_nodes_addedNamed volume shelf _ _ rest]

end

end Entry

namespace Arena

variable {arena : Arena E}

/-! ### What building comes to -/

mutual

/-- Building an entry puts behind the arena what the entry adds. -/
theorem build_eq (volume shelf : Nat) (arena : Arena E) : (e : Entry E) →
    build volume shelf arena e = (e.number? arena.nodes.length,
      arena.extend (e.added volume shelf arena.nodes.length arena.shelves.length))
  | .link reference => by
    rw [build, push_eq_extend]
    rfl
  | .rule name kind? patterns repository => by
    have hfilled := fill_eq volume arena.shelves.length (arena.pushShelf (some shelf))
      (by simp [pushShelf]) repository
    rw [store_extend_pushShelf] at hfilled
    -- Without a kind nothing is pushed behind what the repository holds.
    cases kind? with
    | none =>
      simp only [build]
      rw [hfilled]
      simp [Entry.number?, Entry.isWellFormed, Entry.added, pushShelf]
    | some kind =>
      simp only [build]
      rw [hfilled, buildAll_eq volume arena.shelves.length _ patterns, push_eq_extend,
        ← extend_append, ← extend_append]
      simp only [nodes_pushShelf, length_shelves_pushShelf, length_nodes_extend,
        length_shelves_extend, Entry.length_nodes_addedNamed]
      refine Prod.ext ?_ rfl
      simp [Entry.number?, Entry.isWellFormed, Entry.size, Entry.length_nodes_addedNamed,
        Entry.length_nodes_addedAll]

/-- Building the entries of a list puts behind the arena what they add. -/
theorem buildAll_eq (volume shelf : Nat) (arena : Arena E) : (es : List (Entry E)) →
    build.buildAll volume shelf arena es = (Entry.numbers arena.nodes.length es,
      arena.extend (Entry.added.addedAll volume shelf arena.nodes.length arena.shelves.length es))
  | [] => by
    rw [build.buildAll, Entry.added.addedAll, extend_nil]
    rfl
  | e :: rest => by
    simp only [build.buildAll]
    rw [build_eq volume shelf arena e, buildAll_eq volume shelf _ rest, Entry.numbers_cons,
      Entry.added.addedAll, extend_append]
    simp [extend, Entry.length_nodes_added]

/-- Filling a repository puts behind the arena what the entries add, and stores their numbers. -/
theorem fill_eq (volume shelf : Nat) (arena : Arena E) (h : shelf < arena.shelves.length) :
    (es : List (String × Entry E)) → build.fill volume shelf arena es =
      (arena.extend (Entry.added.addedNamed volume shelf arena.nodes.length arena.shelves.length
        es)).store shelf (Entry.named arena.nodes.length es)
  | [] => by
    rw [build.fill, Entry.added.addedNamed, extend_nil]
    exact (store_nil arena shelf).symm
  | (_, e) :: rest => by
    have hbuilt : shelf < (arena.extend
        (e.added volume shelf arena.nodes.length arena.shelves.length)).shelves.length := by
      rw [length_shelves_extend]
      omega
    rw [build.fill, build_eq volume shelf arena e, Entry.added.addedNamed, Entry.named,
      extend_append]
    -- A well-formed entry is listed on the shelf under its key, and any other is not.
    by_cases hwell : e.isWellFormed = true
    · rw [Entry.number?, if_pos hwell, if_pos hwell]
      simp only
      rw [fill_eq volume shelf _ (by rwa [length_shelves_store]) rest, extend_store hbuilt,
        store_store]
      simp only [nodes_store, length_shelves_store, length_nodes_extend, length_shelves_extend,
        Entry.length_nodes_added, List.singleton_append]
    · rw [Entry.number?, if_neg hwell, if_neg hwell]
      simp only
      rw [fill_eq volume shelf _ hbuilt rest]
      simp only [length_nodes_extend, length_shelves_extend, Entry.length_nodes_added]

end

/-- Top-level patterns that are not malformed are built as any others. -/
theorem buildTop_of_accepted (volume shelf index : Nat) (arena : Arena E) {es : List (Entry E)}
    (h : ∀ e ∈ es, e.isWellFormed = true) :
    buildTop volume shelf index arena es = (.ok (Entry.numbers arena.nodes.length es),
      arena.extend
        (Entry.added.addedAll volume shelf arena.nodes.length arena.shelves.length es)) := by
  -- On the patterns: each builds behind those before it.
  induction es generalizing index arena with
  | nil =>
    rw [buildTop, Entry.added.addedAll, extend_nil]
    rfl
  | cons e rest ih =>
    obtain ⟨hwell, hrest⟩ := List.forall_mem_cons.1 h
    rw [buildTop, build_eq, Entry.numbers_cons, Entry.added.addedAll, extend_append, Entry.number?,
      if_pos hwell]
    simp only
    rw [ih _ _ hrest]
    simp [Except.map, Entry.length_nodes_added]

/-- Among top-level patterns the first that is malformed is found, with something built before
it. -/
theorem buildTop_of_refused (volume shelf index : Nat) (arena : Arena E) {es : List (Entry E)}
    {i : Nat} (h : es.findIdx? (!·.isWellFormed) = some i) :
    ∃ x, buildTop volume shelf index arena es = (.error (index + i), arena.extend x) := by
  induction es generalizing index arena i with
  | nil => cases h
  | cons e rest ih =>
    rw [List.findIdx?_cons] at h
    rw [buildTop, build_eq, Entry.number?]
    -- The first malformed pattern ends the walk, with its place among the patterns.
    by_cases hwell : e.isWellFormed = true
    · rw [hwell] at h
      obtain ⟨j, hj, rfl⟩ := Option.map_eq_some_iff.1 h
      obtain ⟨x, hx⟩ := ih (index + 1) (arena.extend
        (e.added volume shelf arena.nodes.length arena.shelves.length)) hj
      rw [if_pos hwell]
      simp only
      rw [hx, ← extend_append]
      exact ⟨_, by rw [Nat.add_right_comm]; rfl⟩
    · rw [Bool.not_eq_true] at hwell
      rw [hwell] at h
      obtain rfl := Option.some.inj h
      rw [if_neg (by simp [hwell])]
      exact ⟨_, rfl⟩

end Arena

namespace Definition

/-- A definition that is not accepted is refused for a reason. -/
theorem exists_error_of_not_isAccepted {definition : Definition} (h : ¬definition.IsAccepted E) :
    ∃ e, Language.ofDefinition E definition = .error e := by
  cases hlanguage : Language.ofDefinition E definition with
  | ok language => exact absurd (ofDefinition_eq_ok_iff.1 hlanguage).1 h
  | error e => exact ⟨e, rfl⟩

/-- What the repository of a definition adds, from a place and a repository on. -/
def addedEntries (E : Engine) (definition : Definition) (volume first next : Nat) :
    Arena.Addition E :=
  let entries := definition.entries E
  let inner := Entry.added.addedNamed volume next first (next + 1) entries
  ⟨inner.nodes, ⟨none, Entry.named first entries⟩ :: inner.shelves⟩

/-- What the language of a definition adds, from a place and a repository on. -/
def added (E : Engine) (definition : Definition) (volume first next : Nat) : Arena.Addition E :=
  let behind := first + 1 + Entry.size.sizeNamed (definition.entries E)
  let filled := definition.addedEntries E volume (first + 1) next
  ⟨[.rule none .container (Entry.numbers behind (definition.rules E))], []⟩ ++
    (filled ++ Entry.added.addedAll volume next behind (next + filled.shelves.length)
      (definition.rules E))

end Definition

namespace Arena

variable {arena : Arena E} {definition : Definition}

/-- The outermost repository is filled with what it adds. -/
theorem fill_pushLanguage (arena : Arena E) (definition : Definition) :
    build.fill arena.volumes.length arena.shelves.length (arena.pushLanguage definition.scopeName)
        (definition.entries E) =
      (arena.pushVolume ⟨definition.scopeName, arena.nodes.length, arena.shelves.length⟩).extend
        (⟨[.rule none .container []], []⟩ ++
          definition.addedEntries E arena.volumes.length (arena.nodes.length + 1)
            arena.shelves.length) := by
  generalize hlisted : arena.pushVolume
    ⟨definition.scopeName, arena.nodes.length, arena.shelves.length⟩ = listed
  have hpushed : arena.pushLanguage definition.scopeName =
      (listed.pushShelf none).extend ⟨[.rule none .container []], []⟩ := by
    rw [← hlisted, pushLanguage, push_eq_extend]
    rfl
  -- Listing the language pushes no node and no shelf.
  have hnodes : listed.nodes = arena.nodes := by rw [← hlisted]; rfl
  have hshelves : listed.shelves = arena.shelves := by rw [← hlisted]; rfl
  rw [hpushed, fill_eq _ _ _ (by simp [hshelves]), ← extend_append, ← hshelves,
    store_extend_pushShelf]
  simp only [nodes_pushShelf, length_nodes_extend, length_shelves_extend, length_shelves_pushShelf,
    hnodes, hshelves]
  rfl

/-- A definition that is accepted adds its language. -/
theorem add_of_accepted (arena : Arena E) (h : definition.IsAccepted E) :
    arena.add definition = (.ok arena.volumes.length,
      (arena.extend (definition.added E arena.volumes.length arena.nodes.length
        arena.shelves.length)).pushVolume
          ⟨definition.scopeName, arena.nodes.length, arena.shelves.length⟩) := by
  have hentries : (definition.addedEntries E arena.volumes.length (arena.nodes.length + 1)
      arena.shelves.length).nodes.length = Entry.size.sizeNamed (definition.entries E) :=
    Entry.length_nodes_addedNamed ..
  -- The root is pushed first and its children are filled in at the end.
  rw [add, fill_pushLanguage, buildTop_of_accepted _ _ _ _ h, ← extend_append,
    Addition.append_assoc]
  simp only [length_nodes_extend, length_shelves_extend, Addition.nodes_append,
    Addition.shelves_append, List.length_append, List.length_singleton, List.length_nil,
    Nat.zero_add, ← Nat.add_assoc, hentries]
  exact Prod.ext rfl (setChildren_extend (arena.pushVolume _) _ _ _)

/-- A definition that is refused leaves the arena as it was. -/
theorem add_of_refused (arena : Arena E) {e : DocumentError}
    (h : Language.ofDefinition E definition = .error e) :
    arena.add definition = (.error e, arena) := by
  simp only [Language.ofDefinition] at h
  split at h
  next index hfind =>
    obtain rfl := Except.error.inj h
    obtain ⟨x, hx⟩ := buildTop_of_refused arena.volumes.length arena.shelves.length 0
      (build.fill arena.volumes.length arena.shelves.length
        (arena.pushLanguage definition.scopeName) (definition.entries E)) hfind
    have hfilled : arena.Precedes (build.fill arena.volumes.length arena.shelves.length
        (arena.pushLanguage definition.scopeName) (definition.entries E)) := by
      rw [fill_pushLanguage]
      exact (precedes_pushVolume _ _).trans (precedes_extend _ _)
    rw [add, Definition.rules, hx]
    simp only
    -- All that has been pushed is behind the arena, where the mark cuts it off.
    rw [(hfilled.trans (precedes_extend _ x)).rollback_eq, Nat.zero_add]
  next => cases h

/-- Definitions that are refused add nothing among others. -/
theorem addAll_filter (arena : Arena E) (documents : List Definition) :
    arena.addAll (documents.filter (·.IsAccepted E)) = arena.addAll documents := by
  induction documents generalizing arena with
  | nil => rfl
  | cons definition rest ih =>
    by_cases haccepted : definition.IsAccepted E
    · rw [List.filter_cons_of_pos (by simpa using haccepted), addAll, addAll]
      split
      · exact ih arena
      · exact ih _
    · -- A refused definition leaves the arena as it was.
      obtain ⟨e, herror⟩ := Definition.exists_error_of_not_isAccepted haccepted
      rw [List.filter_cons_of_neg (by simpa using haccepted), ih, addAll,
        add_of_refused arena herror]
      split <;> rfl

end Arena

end TextScopes
