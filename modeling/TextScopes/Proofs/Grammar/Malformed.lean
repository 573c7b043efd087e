import TextScopes.Proofs.Grammar.Gaining

/-!
# Graphs of definitions with malformed entries more

Definitions may be others with a malformed entry more in one of them (`Definitions.GainsMalformed`).
The same definition then counts for a name, or one that is wider. Places are put into its layout
behind the root (`Definition.Widens.spliced`), so that what each language declares is there under
other numbers, and what its links see is too. Links lead to the places that they lead to: malformed
entries have no key in any repository, and what they declare is in no place that another could see.
The places put in are therefore met by nobody (`Definitions.WidensBy.renumbers`), and the graph of
the others is in the graph with them (`Grammar.graph_renames_of_widensBy`).
-/

namespace TextScopes

variable {E : Engine} {place count : String → Nat}

/-- The numbers of languages into which places are put, behind the root from a place on. -/
def spread (place count : String → Nat) (language : String) : Nat → Nat :=
  gap (1 + place language) (count language)

/-- The root keeps its number. -/
theorem spread_zero (language : String) : spread place count language 0 = 0 := gap_of_lt (by omega)

/-- Behind the root numbers are carried as in what the language declares. -/
theorem spread_one_add (language : String) (n : Nat) : ∀ i < n,
    spread place count language (1 + i) = 1 + gap (place language) (count language) i :=
  fun i _ => gap_add 1 (place language) (count language) i

namespace Definition.Widens

variable {definition wider : Definition} {e : DocumentError}

section Refusal

variable {place count : Nat}

/-- A wider definition is accepted when the other is. -/
theorem isAccepted_iff (h : Widens E place count definition wider) :
    wider.IsAccepted E ↔ definition.IsAccepted E := by
  have hall : ∀ d : Definition, d.IsAccepted E ↔
      ∀ b ∈ (d.rules E).map Entry.isWellFormed, b = true :=
    fun d => by
      rw [List.forall_mem_map]
      rfl
  rw [hall, hall, h.wellFormed_eq]

/-- A wider definition is refused for the reason for which the other is. -/
theorem ofDefinition_eq_error_iff (h : Widens E place count definition wider) :
    Language.ofDefinition E wider = .error e ↔ Language.ofDefinition E definition = .error e := by
  have hfirst : ∀ d : Definition, Language.ofDefinition E d = .error e ↔
      ∃ index, ((d.rules E).map Entry.isWellFormed).findIdx? (!·) = some index ∧
        .invalidPattern index d.scopeName = e := fun d => by
    rw [List.findIdx?_map]
    have hrules : d.patterns.map (Entry.ofValue E) = d.rules E := rfl
    have hmalformed : (fun b => !b) ∘ Entry.isWellFormed (E := E) = (!·.isWellFormed) := rfl
    simp only [Language.ofDefinition, hrules, hmalformed]
    cases (d.rules E).findIdx? (!·.isWellFormed) <;> simp
  rw [hfirst, hfirst, h.wellFormed_eq, h.scopeName_eq]

end Refusal

variable (h : Widens E (place definition.scopeName) (count definition.scopeName) definition wider)
include h

/-- The root of a wider definition holds what the root of the other does. -/
theorem root_eq : wider.root E =
    (definition.root E).rename (RuleId.renumber (spread place count)) := by
  rw [root, root, h.scopeName_eq, h.body.numbers_eq _ definition.scopeName 1 (spread_one_add _ _)]
  rfl

/-- The layout of a wider definition is that of the other with places put in behind the root. -/
theorem spliced : Spliced (spread place count) (1 + place definition.scopeName)
    (count definition.scopeName)
    (definition.layout E).slots.toList (wider.layout E).slots.toList := by
  have hspliced := (h.body.spliced _ definition.scopeName 1 [] (spread_one_add _ _)).append
    [.rule (definition.root E)] []
  simp only [List.map_cons, List.map_nil, List.append_nil, Slot.renumber, ← h.root_eq] at hspliced
  rw [layout, layout, h.scopeName_eq]
  exact hspliced

/-- The repository of a wider definition has the keys of the other. -/
theorem repository_eq : (wider.layout E).repository =
    Repository.renumber (spread place count definition.scopeName)
      (definition.layout E).repository :=
  h.body.named_eq _ 1 (spread_one_add _ _)

end Definition.Widens

namespace Definitions

variable {documents documents' : Definitions} {base : String}

/-- Definitions are others with a malformed entry more in one of them. -/
inductive GainsMalformed (E : Engine) : Definitions → Definitions → Prop
  | here {definition definition' : Definition} {rest : Definitions}
      (gains : definition.GainsMalformed E definition') :
      GainsMalformed E (definition :: rest) (definition' :: rest)
  | there {definition : Definition} {rest rest' : Definitions}
    (gains : GainsMalformed E rest rest') :
      GainsMalformed E (definition :: rest) (definition :: rest')

/-- What counts for each name is wider among others. -/
def WidensBy (E : Engine) (place count : String → Nat) (documents documents' : Definitions) :
    Prop :=
  ∀ name, Option.Rel (Definition.Widens E (place name) (count name)) (documents.present? E name)
    (documents'.present? E name)

/-- What counts for a name is wider with a malformed entry more. -/
theorem GainsMalformed.exists_rel (h : documents.GainsMalformed E documents') (name : String) :
    ∃ place count, Option.Rel (Definition.Widens E place count) (documents.present? E name)
      (documents'.present? E name) := by
  have hrefl : ∀ found, Option.Rel (Definition.Widens E 0 0) found found := fun found => by
    cases found with
    | none => exact .none
    | some definition => exact .some (.refl definition)
  -- The induction is on the definitions before the one with the malformed entry.
  induction h with
  | @here definition definition' rest gains =>
    obtain ⟨place, count, hwidens⟩ := gains.exists_widens
    simp only [present?_cons, hwidens.scopeName_eq, hwidens.isAccepted_iff]
    -- The definition that gains the entry counts under its name, or is not the one that counts.
    split
    · exact ⟨place, count, .some hwidens⟩
    · exact ⟨0, 0, hrefl _⟩
  | @there definition rest rest' gains ih =>
    rw [present?_cons, present?_cons]
    split
    · exact ⟨0, 0, hrefl _⟩
    · exact ih

/-- What counts for each name is wider with a malformed entry more. -/
theorem GainsMalformed.exists_widensBy (h : documents.GainsMalformed E documents') :
    ∃ place count, WidensBy E place count documents documents' := by
  choose place count hrel using h.exists_rel
  exact ⟨place, count, hrel⟩

namespace WidensBy

variable {base name : String} {definition : Definition}

/-- What counts for a name has a wider definition that counts for it. -/
theorem exists_present? (h : WidensBy E place count documents documents')
    (hpresent : documents.present? E name = some definition) :
    ∃ wider, documents'.present? E name = some wider ∧
      Definition.Widens E (place definition.scopeName) (count definition.scopeName) definition
        wider := by
  obtain ⟨-, rfl, -⟩ := present?_spec hpresent
  have hrel := h definition.scopeName
  rw [hpresent] at hrel
  -- What counts for the name is wider, so that something does.
  cases hwider : documents'.present? E definition.scopeName with
  | none =>
    rw [hwider] at hrel
    cases hrel
  | some wider =>
    rw [hwider] at hrel
    cases hrel with
    | some hwidens => exact ⟨wider, rfl, hwidens⟩

/-- Nothing counts for a name for which nothing does. -/
theorem present?_eq_none (h : WidensBy E place count documents documents')
    (hpresent : documents.present? E name = none) : documents'.present? E name = none := by
  have hrel := h name
  rw [hpresent] at hrel
  cases hwider : documents'.present? E name with
  | none => rfl
  | some wider =>
    rw [hwider] at hrel
    cases hrel

/-- A link leads where it leads among wider definitions. -/
theorem target?_eq (h : WidensBy E place count documents documents') (base : String) (link : Link) :
    (Languages.extend E [] documents').target? base (link.renumber (spread place count)) =
      ((Languages.extend E [] documents).target? base link).map
        (RuleId.renumber (spread place count)) := by
  have hroot : ∀ language, RuleId.renumber (spread place count) ⟨language, 0⟩ =
      ⟨language, 0⟩ :=
    fun language => congrArg (RuleId.mk language) (spread_zero language)
  obtain ⟨reference, language, visible⟩ := link
  cases reference with
  -- The key is looked up in what the link sees, under the numbers of its own language.
  | entry key =>
    simp only [Languages.target?, Link.renumber, Repository.lookup?_renumber, Option.map_map]
    rfl
  | self => simp only [Languages.target?, Link.renumber, Option.map_some, hroot]
  | base => simp only [Languages.target?, Link.renumber, Option.map_some, hroot]
  -- Of another language only the root is named, whose number stays.
  | language name =>
    simp only [Languages.target?, Link.renumber, find?_extend_nil]
    cases hpresent : documents.present? E name with
    | none =>
      rw [h.present?_eq_none hpresent]
      rfl
    | some definition =>
      obtain ⟨wider, hwider, -⟩ := h.exists_present? hpresent
      simp only [hwider, Option.map_some, hroot]
  -- The key is looked up in the repository of a language that may be wider itself.
  | languageEntry name key =>
    simp only [Languages.target?, Link.renumber, find?_extend_nil, Option.bind_eq_bind]
    cases hpresent : documents.present? E name with
    | none =>
      rw [h.present?_eq_none hpresent]
      rfl
    | some definition =>
      obtain ⟨wider, hwider, hwidens⟩ := h.exists_present? hpresent
      obtain ⟨-, rfl, -⟩ := present?_spec hpresent
      have hlookup := Repository.lookup?_renumber (spread place count definition.scopeName)
        [(definition.layout E).repository] key
      rw [List.map_singleton, ← hwidens.repository_eq] at hlookup
      rw [hwider, Option.map_some, Option.map_some, Option.bind_some, Option.bind_some, hlookup]
      cases Repository.lookup? [(definition.layout E).repository] key <;> rfl

/-- The places of definitions are among those of wider ones, under other numbers. -/
theorem renumbers (h : WidensBy E place count documents documents')
    (hbase : (documents.present? E base).isSome) :
    (Languages.extend E [] documents).Renumbers (spread place count) base
      (Languages.extend E [] documents') where
  slot id slot hslot := by
    rw [Languages.slot?_eq_some_iff, find?_extend_nil] at hslot ⊢
    obtain ⟨language, hlanguage, hslot⟩ := hslot
    obtain ⟨definition, hpresent, rfl⟩ := Option.map_eq_some_iff.1 hlanguage
    obtain ⟨wider, hwider, hwidens⟩ := h.exists_present? hpresent
    obtain ⟨-, hname, -⟩ := present?_spec hpresent
    refine ⟨wider.layout E, ?_, ?_⟩
    · rw [RuleId.renumber, hwider, Option.map_some]
    · -- The slots are those of the definition, with some put in between.
      rw [← Array.getElem?_toList] at hslot ⊢
      rw [RuleId.renumber, ← hname]
      exact hwidens.spliced.getElem? hslot
  target _ link _ := h.target?_eq base link
  closed := isClosed_extend hbase

end WidensBy

end Definitions

namespace Grammar

variable {definition definition' : Definition} {others others' : List Definition}
  {grammar grammar' : Grammar E}

/-- The rules of a compiled graph are in that of wider definitions, under other numbers. -/
theorem graph_renames_of_widensBy
    (hwidens : Definitions.WidensBy E place count (definition :: others) (definition' :: others'))
    (hname : definition'.scopeName = definition.scopeName)
    (h : compile E definition others = .ok grammar)
    (h' : compile E definition' others' = .ok grammar') :
    grammar.graph.Renames (RuleId.renumber (spread place count)) grammar'.graph := by
  refine ⟨RuleId.renumber_injective fun _ => gap_injective _ _, fun id rule hrule => ?_,
    fun id rule hrule child => exists_child_of_compile h hrule, nodup_names_of_compile h,
    nodup_names_of_compile h'⟩
  obtain ⟨haccepted, rfl⟩ := compile_eq_ok_iff.1 h
  obtain ⟨-, rfl⟩ := compile_eq_ok_iff.1 h'
  have hbase : (Definitions.present? E (definition :: others) definition.scopeName).isSome := by
    rw [Definitions.present?_head haccepted]
    rfl
  have hrenumbers := hwidens.renumbers hbase
  rw [rule?_settle] at hrule ⊢
  obtain ⟨slot, hslot, rfl⟩ := Option.map_eq_some_iff.1 hrule
  -- Each place has its slot under the new number, and it settles to the renamed rule.
  rw [hrenumbers.slot id slot hslot, Option.map_some, hname, hrenumbers.settle_eq hslot]

end Grammar

end TextScopes
