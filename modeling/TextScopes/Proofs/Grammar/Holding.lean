import Mathlib.Data.List.Forall2
import TextScopes.Proofs.Grammar.Building
import TextScopes.Proofs.Grammar.Includes
import TextScopes.Proofs.Grammar.Splicing

/-!
# The languages that an arena holds

In an arena numbers count all that is before, and a repository is known by its number; in a language
places count from its root, and a link carries the repositories that it sees. A node shows a place
of a language when they differ in nothing else (`Arena.Shows`), and an arena holds languages when
its nodes show their places one behind the other (`Arena.Holds`).

An arena to which definitions are added holds the languages that they extend those before by
(`Arena.Holds.addAll`), and it holds no others (`Arena.Holds.unique`). So what is compiled is what
the arena of the definitions holds (`Grammar.compile_eq_ok_iff_holds`).
-/

namespace TextScopes

variable {E : Engine}

/-- The entries of a repository that is laid out from another number on. -/
def Repository.shift (first : Nat) (repository : Repository) : Repository :=
  repository.map fun (key, n) => (key, first + n)

/-- A repository is known from what it is when it is laid out from elsewhere. -/
theorem Repository.shift_injective (first : Nat) : Function.Injective (Repository.shift first) := by
  refine List.map_injective_iff.2 ?_
  rintro ⟨key, n⟩ ⟨key', n'⟩ h
  obtain ⟨rfl, hn⟩ := Prod.mk.inj h
  rw [Nat.add_left_cancel hn]

namespace Entry

/-- The places of a repository's entries count from where they are laid out. -/
theorem named_add (root first : Nat) (es : List (String × Entry E)) :
    named (root + first) es = (named first es : Repository).shift root :=
  named_renumber es fun i _ => (Nat.add_assoc root first i).symm

/-- The places of a row count from where it is laid out. -/
theorem numbers_add (root first : Nat) (es : List (Entry E)) :
    numbers (root + first) es = (numbers first es).map (root + ·) := by
  rw [numbers_eq, numbers_eq, named_add, Repository.shift, List.map_map, List.map_map]
  rfl

end Entry

namespace Arena

variable {arena later : Arena E} {root shelf : Nat} {language : String} {visible : List Repository}
  {node : Node E} {slot : Slot E}

/-- What is in sight from a repository, the nearest first, of a language with its root at a
place. -/
inductive Sees (arena : Arena E) (root : Nat) : Nat → List Repository → Prop
  | outermost {shelf : Nat} {entries : Repository}
      (stands : arena.shelves[shelf]? = some ⟨none, entries.shift root⟩) :
      Sees arena root shelf [entries]
  | inner {shelf parent : Nat} {entries : Repository} {around : List Repository}
      (stands : arena.shelves[shelf]? = some ⟨some parent, entries.shift root⟩)
      (beyond : Sees arena root parent around) : Sees arena root shelf (entries :: around)

/-- A node is what a language with its root at a place lays out. -/
inductive Shows (arena : Arena E) (root : Nat) (language : String) : Node E → Slot E → Prop
  | rule {name : Option String} {kind : Kind E} {children places : List Nat}
      (held : places = children.map (root + ·)) :
      Shows arena root language (.rule name kind places)
        (.rule ⟨name, kind, children.map (⟨language, ·⟩)⟩)
  | link {reference : Reference} {shelf k : Nat} {volume : Volume} {visible : List Repository}
      (declares : arena.volumes[k]? = some volume) (named : volume.scopeName = language)
      (sees : arena.Sees root shelf visible) :
      Shows arena root language (.link reference shelf k) (.link ⟨reference, language, visible⟩)

/-- What is in sight stays so in a later arena. -/
theorem Sees.mono (h : arena.Sees root shelf visible) (hlater : arena.Precedes later) :
    later.Sees root shelf visible := by
  induction h with
  | outermost stands => exact .outermost (getElem?_of_begins hlater.shelves stands)
  | inner stands _ ih => exact .inner (getElem?_of_begins hlater.shelves stands) ih

/-- What a node shows it shows in a later arena. -/
theorem Shows.mono (h : arena.Shows root language node slot) (hlater : arena.Precedes later) :
    later.Shows root language node slot := by
  cases h with
  | rule held => exact .rule held
  | link declares named sees =>
    exact .link (getElem?_of_begins hlater.volumes declares) named (sees.mono hlater)

/-- From a repository there is one thing in sight. -/
theorem Sees.unique {visible' : List Repository} (h : arena.Sees root shelf visible)
    (h' : arena.Sees root shelf visible') : visible = visible' := by
  -- A shelf is the outermost or has one parent, so that it is seen in one way.
  induction h generalizing visible' with
  | outermost stands =>
    cases h' with
    | outermost stands' =>
      have heq := (Shelf.mk.inj (Option.some.inj (stands.symm.trans stands'))).2
      rw [Repository.shift_injective root heq]
    | inner stands' _ => cases stands.symm.trans stands'
  | inner stands _ ih =>
    cases h' with
    | outermost stands' => cases stands.symm.trans stands'
    | inner stands' beyond' =>
      obtain ⟨hparent, heq⟩ := Shelf.mk.inj (Option.some.inj (stands.symm.trans stands'))
      obtain rfl := Option.some.inj hparent
      rw [Repository.shift_injective root heq, ih beyond']

/-- A node shows one thing. -/
theorem Shows.unique {slot' : Slot E} (h : arena.Shows root language node slot)
    (h' : arena.Shows root language node slot') : slot = slot' := by
  cases h with
  | rule held =>
    cases h' with
    | rule held' =>
      have heq := List.map_injective_iff.2 (fun _ _ => Nat.add_left_cancel) (held.symm.trans held')
      rw [heq]
  | link _ _ sees =>
    cases h' with
    | link _ _ sees' => rw [sees.unique sees']

/-- Repositories stand in an arena from a number on. -/
def Stand (arena : Arena E) (next : Nat) (shelves : List Shelf) : Prop :=
  ∀ i own, shelves[i]? = some own → arena.shelves[next + i]? = some own

/-- The first of a row of repositories stands at the number, and the others behind it. -/
theorem stand_cons {next : Nat} {own : Shelf} {rest : List Shelf} :
    arena.Stand next (own :: rest) ↔
    arena.shelves[next]? = some own ∧ arena.Stand (next + 1) rest := by
  constructor
  · intro h
    refine ⟨h 0 own rfl, fun i other hother => ?_⟩
    rw [Nat.add_assoc, Nat.add_comm 1 i]
    exact h (i + 1) other hother
  · rintro ⟨hown, hrest⟩ i other hother
    cases i with
    | zero => exact (Option.some.inj hother) ▸ hown
    | succ i =>
      have hat := hrest i other hother
      rwa [Nat.add_assoc, Nat.add_comm 1 i] at hat

/-- Of two rows of repositories the second stands behind the first. -/
theorem stand_append {next : Nat} {front back : List Shelf} : arena.Stand next (front ++ back) ↔
    arena.Stand next front ∧ arena.Stand (next + front.length) back := by
  induction front generalizing next with
  | nil => simp [Stand]
  | cons own rest ih =>
    rw [List.cons_append, stand_cons, stand_cons, ih, and_assoc, List.length_cons, Nat.add_assoc,
      Nat.add_comm 1]

end Arena

namespace Entry

variable {arena : Arena E} {root volume : Nat} {language : String} {own : Arena.Volume}

mutual

/-- The nodes that an entry of a language adds show its layout, in an arena that has the language
and in which the repositories that the entry adds stand. -/
theorem shows_added (hvolume : arena.volumes[volume]? = some own) (hname : own.scopeName = language)
    (first next : Nat) {shelf : Nat} {visible : List Repository}
    (hsees : arena.Sees root shelf visible) :
    (e : Entry E) → arena.Stand next (e.added volume shelf (root + first) next).shelves →
      List.Forall₂ (arena.Shows root language) (e.added volume shelf (root + first) next).nodes
        (slots language first visible e)
  -- A link carries what is seen from its shelf.
  | .link reference, _ => .cons (.link hvolume hname hsees) .nil
  | .rule name none patterns repository, hstand => by
    -- A rule without a kind has only its repository laid out.
    obtain ⟨hown, hinner⟩ := Arena.stand_cons.1 hstand
    rw [named_add] at hown
    exact shows_addedNamed hvolume hname first (next + 1) (.inner hown hsees) repository hinner
  | .rule name (some kind) patterns repository, hstand => by
    obtain ⟨hfilled, hheld⟩ := Arena.stand_append.1 (Arena.stand_append.1 hstand).1
    obtain ⟨hown, hinner⟩ := Arena.stand_cons.1 hfilled
    rw [named_add] at hown
    -- The rule's own repository stands filled, so that all inside it see what the layout says.
    have hsees := Arena.Sees.inner hown hsees
    have hinner := shows_addedNamed hvolume hname first (next + 1) hsees repository hinner
    rw [Nat.add_assoc root] at hheld
    have hheld := shows_addedAll hvolume hname _ _ hsees patterns hheld
    simp only [added, slots, numbers_add, Nat.add_assoc root]
    -- The repository, the patterns, and the rule itself behind them.
    exact List.rel_append (List.rel_append hinner hheld) (.cons (.rule rfl) .nil)

/-- The nodes that the entries of a list add show their layout. -/
theorem shows_addedAll (hvolume : arena.volumes[volume]? = some own)
    (hname : own.scopeName = language) (first next : Nat) {shelf : Nat} {visible : List Repository}
    (hsees : arena.Sees root shelf visible) :
    (es : List (Entry E)) →
      arena.Stand next (added.addedAll volume shelf (root + first) next es).shelves →
      List.Forall₂ (arena.Shows root language)
        (added.addedAll volume shelf (root + first) next es).nodes
        (slots.slotsAll language first visible es)
  | [], _ => .nil
  | e :: rest, hstand => by
    obtain ⟨hhead, htail⟩ := Arena.stand_append.1 hstand
    rw [Nat.add_assoc root] at htail
    simp only [added.addedAll, slots.slotsAll, Nat.add_assoc root]
    exact List.rel_append (shows_added hvolume hname first next hsees e hhead)
      (shows_addedAll hvolume hname _ _ hsees rest htail)

/-- The nodes that the entries of a repository add show their layout. -/
theorem shows_addedNamed (hvolume : arena.volumes[volume]? = some own)
    (hname : own.scopeName = language) (first next : Nat) {shelf : Nat} {visible : List Repository}
    (hsees : arena.Sees root shelf visible) :
    (es : List (String × Entry E)) →
      arena.Stand next (added.addedNamed volume shelf (root + first) next es).shelves →
      List.Forall₂ (arena.Shows root language)
        (added.addedNamed volume shelf (root + first) next es).nodes
        (slots.slotsNamed language first visible es)
  | [], _ => .nil
  | (key, e) :: rest, hstand => by
    obtain ⟨hhead, htail⟩ := Arena.stand_append.1 hstand
    rw [Nat.add_assoc root] at htail
    simp only [added.addedNamed, slots.slotsNamed, Nat.add_assoc root]
    exact List.rel_append (shows_added hvolume hname first next hsees e hhead)
      (shows_addedNamed hvolume hname _ _ hsees rest htail)

end

end Entry

/-- The nodes that a definition adds show the language that it lays out, and its repository stands
where they are added. -/
theorem Definition.shows_added {arena : Arena E} {definition : Definition} {own : Arena.Volume}
    {volume root next : Nat} (hvolume : arena.volumes[volume]? = some own)
    (hname : own.scopeName = definition.scopeName)
    (hstand : arena.Stand next (definition.added E volume root next).shelves) :
    arena.shelves[next]? = some ⟨none, (definition.layout E).repository.shift root⟩ ∧
      List.Forall₂ (arena.Shows root definition.scopeName)
        (definition.added E volume root next).nodes
        (definition.layout E).slots.toList := by
  have hboth : arena.Stand next ((definition.addedEntries E volume (root + 1) next).shelves ++ _) :=
    hstand
  obtain ⟨hfilled, hrules⟩ := Arena.stand_append.1 hboth
  obtain ⟨hown, hentries⟩ := Arena.stand_cons.1 hfilled
  rw [Entry.named_add] at hown
  -- From the top of the definition its own repository is seen, and no other.
  have hsees : arena.Sees root next [Entry.named 1 (definition.entries E)] := .outermost hown
  have hentries := Entry.shows_addedNamed hvolume hname 1 (next + 1) hsees _ hentries
  rw [Nat.add_assoc root] at hrules
  have hrules := Entry.shows_addedAll hvolume hname _ _ hsees _ hrules
  refine ⟨hown, ?_⟩
  simp only [Definition.added, Nat.add_assoc root]
  rw [Entry.numbers_add root]
  exact .cons (.rule rfl) (List.rel_append hentries hrules)

namespace Arena

variable {arena later : Arena E} {languages : Languages E} {definition : Definition}

/-- The first volumes and nodes of an arena hold languages, one behind the other: each begins where
the nodes of those before it end, and has a node for each of its places. -/
inductive HoldsIn (arena : Arena E) : List Volume → List (Node E) → Languages E → Prop
  | nil : HoldsIn arena [] [] []
  | snoc {volumes : List Volume} {nodes own : List (Node E)} {languages : Languages E}
      {language : Language E} {shelf : Nat} (front : HoldsIn arena volumes nodes languages)
      (repository : arena.shelves[shelf]? = some ⟨none, language.repository.shift nodes.length⟩)
      (slots : List.Forall₂ (arena.Shows nodes.length language.scopeName) own
        language.slots.toList) :
      HoldsIn arena (volumes ++ [⟨language.scopeName, nodes.length, shelf⟩]) (nodes ++ own)
        (languages ++ [language])

/-- An arena holds languages, and nothing else. -/
def Holds (arena : Arena E) (languages : Languages E) : Prop :=
  arena.HoldsIn arena.volumes arena.nodes languages

/-- What is held is held in a later arena. -/
theorem HoldsIn.mono {volumes : List Volume} {nodes : List (Node E)}
    (h : arena.HoldsIn volumes nodes languages) (hlater : arena.Precedes later) :
    later.HoldsIn volumes nodes languages := by
  induction h with
  | nil => exact .nil
  | snoc _ repository slots ih =>
    exact .snoc ih (getElem?_of_begins hlater.shelves repository)
      (slots.imp fun _ _ hshows => hshows.mono hlater)

/-- The languages that are held have the names of the volumes. -/
theorem HoldsIn.names {volumes : List Volume} {nodes : List (Node E)}
    (h : arena.HoldsIn volumes nodes languages) :
    volumes.map (·.scopeName) = languages.map (·.scopeName) := by
  induction h with
  | nil => rfl
  | snoc _ _ _ ih => simp [ih]

/-- What is held can be told from the volumes and the nodes. -/
theorem HoldsIn.unique {volumes volumes' : List Volume} {nodes nodes' : List (Node E)}
    {languages' : Languages E} (h : arena.HoldsIn volumes nodes languages)
    (h' : arena.HoldsIn volumes' nodes' languages') (hvolumes : volumes = volumes')
    (hnodes : nodes = nodes') : languages = languages' := by
  -- On the volumes: the last one bounds the places of the last language.
  induction h generalizing volumes' nodes' languages' with
  | nil =>
    cases h' with
    | nil => rfl
    | snoc => simp at hvolumes
  | @snoc volumes nodes own languages language shelf front repository slots ih =>
    cases h' with
    | nil => simp at hvolumes
    | @snoc volumes' nodes' own' languages' language' shelf' front' repository' slots' =>
      obtain ⟨hfront, hlast⟩ := List.append_inj' hvolumes rfl
      obtain ⟨hname, hlength, rfl⟩ := Volume.mk.inj (List.head_eq_of_cons_eq hlast)
      obtain ⟨rfl, rfl⟩ := List.append_inj hnodes hlength
      obtain rfl := ih front' hfront rfl
      have hrepository := Repository.shift_injective _
        (Shelf.mk.inj (Option.some.inj (repository.symm.trans repository'))).2
      -- Nodes show slots one by one, and each shows only one.
      rw [← hname] at slots'
      have hunique : Relator.RightUnique (arena.Shows nodes.length language.scopeName) :=
        fun _ _ _ => Shows.unique
      have hslots := Array.toList_inj.1 (List.right_unique_forall₂' hunique slots slots')
      have hlanguage : language = language' := by
        cases language
        cases language'
        exact Language.mk.injEq .. ▸ ⟨hname, hslots, hrepository⟩
      rw [hlanguage]

/-- An arena holds one list of languages. -/
theorem Holds.unique {languages' : Languages E} (h : arena.Holds languages)
    (h' : arena.Holds languages') : languages = languages' :=
  HoldsIn.unique h h' rfl rfl

/-- A language is not found in an arena when it is not among those that are held. -/
theorem Holds.volume?_eq_none_iff (h : arena.Holds languages) (name : String) :
    arena.volume? name = none ↔ languages.find? name = none := by
  have hvolumes : arena.volume? name = none ↔ name ∉ arena.volumes.map (·.scopeName) := by
    simp [volume?, List.findIdx?_eq_none_iff]
  have hlanguages : languages.find? name = none ↔ name ∉ languages.map (·.scopeName) := by
    simp [Languages.find?, List.find?_eq_none]
  rw [hvolumes, hlanguages, HoldsIn.names h]

/-- What is put behind an arena stands there. -/
theorem stand_extend (arena : Arena E) (x : Addition E) :
    (arena.extend x).Stand arena.shelves.length x.shelves := by
  intro i own hown
  show (arena.shelves ++ x.shelves)[arena.shelves.length + i]? = some own
  rw [List.getElem?_append_right (Nat.le_add_right _ _), Nat.add_sub_cancel_left, hown]

/-- A definition that is accepted adds the language that it lays out. -/
theorem Holds.add (h : arena.Holds languages) (haccepted : definition.IsAccepted E) :
    (arena.add definition).2.Holds (languages ++ [definition.layout E]) := by
  rw [add_of_accepted arena haccepted]
  generalize hadded : definition.added E arena.volumes.length arena.nodes.length
    arena.shelves.length = x
  generalize hlater : (arena.extend x).pushVolume
    ⟨definition.scopeName, arena.nodes.length, arena.shelves.length⟩ = later
  have hprecedes : arena.Precedes later := by
    rw [← hlater]
    exact (arena.precedes_extend x).trans (precedes_pushVolume _ _)
  -- The shelves of the definition stand where it was said that they would.
  have hstand : later.Stand arena.shelves.length x.shelves := by
    rw [← hlater]
    exact arena.stand_extend x
  have hvolume : later.volumes[arena.volumes.length]? =
      some ⟨definition.scopeName, arena.nodes.length, arena.shelves.length⟩ := by
    rw [← hlater]
    exact List.getElem?_concat_length
  rw [← hadded] at hstand
  obtain ⟨hrepository, hslots⟩ := Definition.shows_added hvolume rfl hstand
  have hholds := HoldsIn.snoc (h.mono hprecedes) hrepository hslots
  rw [hadded] at hholds
  rw [← hlater] at hholds ⊢
  exact hholds

/-- The languages of definitions are added as they extend those that are there. -/
theorem Holds.addAll (h : arena.Holds languages) (documents : List Definition) :
    (arena.addAll documents).Holds (Languages.extend E languages documents) := by
  induction documents generalizing arena languages with
  | nil => exact h
  | cons definition rest ih =>
    have hfound := h.volume?_eq_none_iff definition.scopeName
    rw [Arena.addAll, Languages.extend]
    cases hlanguage : languages.find? definition.scopeName with
    -- A volume of the name is there already.
    | some language =>
      have hsome : arena.volume? definition.scopeName ≠ none := fun hnone => by
        rw [hfound.1 hnone] at hlanguage
        cases hlanguage
      obtain ⟨k, hk⟩ := Option.ne_none_iff_exists'.1 hsome
      rw [hk]
      exact ih h
    | none =>
      rw [hfound.2 hlanguage]
      -- A new volume is added, or rolled back.
      by_cases haccepted : definition.IsAccepted E
      · rw [Definition.ofDefinition_eq_ok_iff.2 ⟨haccepted, rfl⟩]
        exact ih (h.add haccepted)
      · obtain ⟨e, herror⟩ := Definition.exists_error_of_not_isAccepted haccepted
        rw [herror, add_of_refused arena herror]
        exact ih h

/-- The arena of a definition and those that it may refer to holds their languages. -/
theorem holds_ofDefinitions {others : List Definition}
    (h : ofDefinitions E definition others = .ok arena) :
    arena.Holds (Languages.extend E [] (definition :: others)) := by
  have hempty : (empty : Arena E).Holds [] := .nil
  have hall := hempty.addAll (definition :: others)
  rw [ofDefinitions] at h
  split at h
  next k first hadd =>
    obtain rfl := Except.ok.inj h
    rwa [Arena.addAll, hadd] at hall
  next => cases h

/-- An arena is refused as its definition is. -/
theorem ofDefinitions_eq_error_iff {definition : Definition} {others : List Definition}
    {e : DocumentError} : ofDefinitions E definition others = .error e ↔
      Language.ofDefinition E definition = .error e := by
  by_cases haccepted : definition.IsAccepted E
  · rw [ofDefinitions, add_of_accepted empty haccepted,
      Definition.ofDefinition_eq_ok_iff.2 ⟨haccepted, rfl⟩]
    simp
  · obtain ⟨e', herror⟩ := Definition.exists_error_of_not_isAccepted haccepted
    rw [ofDefinitions, add_of_refused empty herror, herror]
    simp

end Arena

namespace Grammar

/-- What is compiled is what the arena of the definitions holds, with the links followed. -/
theorem compile_eq_ok_iff_holds {definition : Definition} {others : List Definition}
    {grammar : Grammar E} : compile E definition others = .ok grammar ↔
      ∃ arena languages, Arena.ofDefinitions E definition others = .ok arena ∧
        arena.Holds languages ∧ grammar =
          ⟨definition.uuid, definition.name, definition.scopeName,
          definition.fileTypes, settle languages definition.scopeName⟩ := by
  rw [compile_eq_ok_iff]
  constructor
  · rintro ⟨haccepted, rfl⟩
    cases harena : Arena.ofDefinitions E definition others with
    | ok arena => exact ⟨arena, _, rfl, Arena.holds_ofDefinitions harena, rfl⟩
    -- Only a refused definition of the language itself is an error.
    | error e =>
      have herror := Arena.ofDefinitions_eq_error_iff.1 harena
      rw [Definition.ofDefinition_eq_ok_iff.2 ⟨haccepted, rfl⟩] at herror
      cases herror
  · rintro ⟨arena, languages, harena, hholds, rfl⟩
    refine ⟨?_, by rw [hholds.unique (Arena.holds_ofDefinitions harena)]⟩
    by_contra hrefused
    obtain ⟨e, herror⟩ := Definition.exists_error_of_not_isAccepted hrefused
    rw [Arena.ofDefinitions_eq_error_iff.2 herror] at harena
    cases harena

end Grammar

end TextScopes
