import Mathlib.Data.List.Basic
import TextScopes.Grammar.Basic
import TextScopes.Proofs.Grammar.Chain
import TextScopes.Proofs.Grammar.Sites

/-!
# Includes as they are declared

The languages of a compiled grammar come from the definitions that count: of each name, the first
that is accepted (`Definitions.present?`). What is at a place of theirs is what a definition
declares there (`Definitions.slot?_extend_iff`), and a link leads to the place of what its include
names (`Definitions.leads_extend`): an entry of the nearest repository around the include, or the
root or an outermost entry of a definition that counts. So the chains of links are those of the
includes as they are written, and no link leads out of the places (`Definitions.isClosed_extend`).
-/

namespace TextScopes

variable {E : Engine}

/-- Definitions that refer to one another; the first is the one that is compiled. -/
abbrev Definitions := List Definition

namespace Definitions

variable {documents : Definitions} {base name : String} {id target : RuleId} {slot : Slot E}
  {rule : Rule E} {definition : Definition} {site : Site E} {reference : Reference}

/-- The definition that counts for a name: the first of that name which is accepted. -/
def present? (E : Engine) (documents : Definitions) (name : String) : Option Definition :=
  documents.find? fun definition => definition.scopeName = name && definition.IsAccepted E

/-- The definition that counts for a language declares an entry at a place. -/
structure StandsAt (documents : Definitions) (id : RuleId) (definition : Definition)
    (site : Site E) : Prop where
  present : documents.present? E id.language = some definition
  declared : definition.Declares site
  number : site.number = id.index

/-- What the reference of an include names that a language declares at a site, when `base` is
compiled. -/
inductive Names (documents : Definitions) (base language : String) (site : Site E) :
    Reference → RuleId → Prop
  /-- The entry under a key in the nearest repository around the include that has one. -/
  | entry {key : String} {n : Nat} (nearest : site.Nearest key n) :
      Names documents base language site (.entry key) ⟨language, n⟩
  /-- The root of the language that declares the include. -/
  | self : Names documents base language site .self ⟨language, 0⟩
  /-- The root of the language that is compiled. -/
  | base : Names documents base language site .base ⟨base, 0⟩
  /-- The root of another language. -/
  | language {name : String} {other : Definition}
    (present : documents.present? E name = some other) :
      Names documents base language site (.language name) ⟨name, 0⟩
  /-- The entry under a key in the outermost repository of another language. -/
  | languageEntry {name key : String} {other : Definition} {n : Nat}
      (present : documents.present? E name = some other)
      (under : Entry.Under 1 (other.entries E) key n) :
      Names documents base language site (.languageEntry name key) ⟨name, n⟩

variable (E) in
/-- There is an include at a place. -/
def HasInclude (documents : Definitions) (id : RuleId) : Prop :=
  ∃ definition, ∃ site : Site E, ∃ reference,
    documents.StandsAt id definition site ∧ site.entry = .link reference

/-- There is a rule at a place: the root of a language, or what an entry makes of its fields. -/
def HasRule (documents : Definitions) (id : RuleId) (rule : Rule E) : Prop :=
  (∃ definition, documents.present? E id.language = some definition ∧ id.index = 0 ∧
    rule = definition.root E) ∨
  ∃ definition site, documents.StandsAt id definition site ∧
    site.slot? definition.scopeName = some (.rule rule)

variable (E) in
/-- An include leads from its place to that of what it names. -/
def Leads (documents : Definitions) (base : String) (id target : RuleId) : Prop :=
  ∃ definition, ∃ site : Site E, ∃ reference, documents.StandsAt id definition site ∧
    site.entry = .link reference ∧
    documents.Names base definition.scopeName site reference target

/-- The includes from a place on end at a rule. -/
def Ends (documents : Definitions) (base : String) (id : RuleId) (rule : Rule E) : Prop :=
  ∃ last, Relation.ReflTransGen (documents.Leads E base) id last ∧ documents.HasRule last rule

variable (E) in
/-- The includes from a place on come to one that names nothing. -/
def Breaks (documents : Definitions) (base : String) (id : RuleId) : Prop :=
  ∃ last, Relation.ReflTransGen (documents.Leads E base) id last ∧
    documents.HasInclude E last ∧
    ∀ target, ¬documents.Leads E base last target

variable (E) in
/-- The includes from a place on come back to one of them. -/
def Returns (documents : Definitions) (base : String) (id : RuleId) : Prop :=
  ∃ place, Relation.ReflTransGen (documents.Leads E base) id place ∧
    Relation.TransGen (documents.Leads E base) place place

/-- The definition that counts for a name has it, and is accepted. -/
theorem present?_spec (h : documents.present? E name = some definition) :
    definition ∈ documents ∧ definition.scopeName = name ∧ definition.IsAccepted E := by
  refine ⟨List.mem_of_find?_eq_some h, ?_⟩
  simpa using List.find?_some h

/-- The first definition counts for a name, when it has it and is accepted. -/
theorem present?_cons (definition : Definition) (rest : Definitions) (name : String) :
    present? E (definition :: rest) name =
      if definition.scopeName = name ∧ definition.IsAccepted E then some definition
      else present? E rest name := by
  split
  next hown => exact List.find?_cons_of_pos (by simpa using hown)
  next hown => exact List.find?_cons_of_neg (by simpa using hown)

/-- The first definition counts for its name, when it is accepted. -/
theorem present?_head {others : Definitions} (h : definition.IsAccepted E) :
    present? E (definition :: others) definition.scopeName = some definition := by
  rw [present?_cons, if_pos ⟨rfl, h⟩]

/-- The languages of definitions, by name. -/
theorem find?_extend (languages : Languages E) (documents : Definitions) (name : String) :
    (Languages.extend E languages documents).find? name =
      (languages.find? name).or ((documents.present? E name).map (Definition.layout E)) := by
  -- On the definitions in their order: each is passed over, laid out behind the others, or refused.
  induction documents generalizing languages with
  | nil => simp [Languages.extend, present?]
  | cons definition rest ih =>
    have hskip : ¬(definition.scopeName = name ∧ definition.IsAccepted E) →
        present? E (definition :: rest) name = present? E rest name := fun h => by
      rw [present?_cons, if_neg h]
    rw [Languages.extend]
    split
    next language hfind =>
      -- A name that is there already counts no more.
      rw [ih]
      by_cases hname : definition.scopeName = name
      · rw [← hname, hfind, Option.some_or, Option.some_or]
      · rw [hskip fun h => hname h.1]
    next hfind =>
      split
      -- A new name is laid out, and is found from then on.
      next language hok =>
        obtain ⟨haccepted, rfl⟩ := Definition.ofDefinition_eq_ok_iff.1 hok
        rw [ih, Languages.find?_append, Languages.find?_singleton, Definition.layout_scopeName]
        by_cases hname : definition.scopeName = name
        · rw [if_pos hname, present?_cons, if_pos ⟨hname, haccepted⟩, ← hname, hfind]
          rfl
        · rw [hskip fun h => hname h.1, if_neg hname, Option.or_none]
      -- A refused definition leaves no language behind.
      next e herror =>
        have hrefused : ¬definition.IsAccepted E := fun haccepted => by
          rw [Definition.ofDefinition_eq_ok_iff.2 ⟨haccepted, rfl⟩] at herror
          cases herror
        rw [ih, hskip fun h => hrefused h.2]

/-- The languages of definitions, by name, when there are no others before them. -/
theorem find?_extend_nil (documents : Definitions) (name : String) :
    (Languages.extend E [] documents).find? name =
      (documents.present? E name).map (Definition.layout E) :=
  find?_extend [] documents name

/-- What is at a place of the languages is what their definitions declare there. -/
theorem slot?_extend_iff : (Languages.extend E [] documents).slot? id = some slot ↔
    ∃ definition, documents.present? E id.language = some definition ∧
      ((id.index = 0 ∧ slot = .rule (definition.root E)) ∨
        ∃ site, definition.Declares site ∧ site.slot? definition.scopeName = some slot ∧
          site.number = id.index) := by
  rw [Languages.slot?_eq_some_iff, find?_extend_nil]
  simp only [Option.map_eq_some_iff]
  constructor
  · rintro ⟨_, ⟨definition, hpresent, rfl⟩, hslot⟩
    exact ⟨definition, hpresent, Definition.getElem?_layout_iff.1 hslot⟩
  · rintro ⟨definition, hpresent, hslot⟩
    exact ⟨_, ⟨definition, hpresent, rfl⟩, Definition.getElem?_layout_iff.2 hslot⟩

/-- The places of rules are those where one is declared. -/
theorem slot?_extend_rule_iff :
    (Languages.extend E [] documents).slot? id = some (.rule rule) ↔
      documents.HasRule id rule := by
  rw [slot?_extend_iff]
  constructor
  · -- Place 0 holds the root, and every other place what is declared there.
    rintro ⟨definition, hpresent, ⟨hindex, hrule⟩ | ⟨site, hdeclared, hslot, hnumber⟩⟩
    · exact .inl ⟨definition, hpresent, hindex, Slot.rule.inj hrule⟩
    · exact .inr ⟨definition, site, ⟨hpresent, hdeclared, hnumber⟩, hslot⟩
  · rintro (⟨definition, hpresent, hindex, rfl⟩ | ⟨definition, site, hstands, hslot⟩)
    · exact ⟨definition, hpresent, .inl ⟨hindex, rfl⟩⟩
    · exact ⟨definition, hstands.present,
        .inr ⟨site, hstands.declared, hslot, hstands.number⟩⟩

/-- The places of links are those where an include is declared. -/
theorem slot?_extend_link_iff {link : Link} :
    (Languages.extend E [] documents).slot? id = some (.link link) ↔
      ∃ definition, ∃ site : Site E, ∃ reference, documents.StandsAt id definition site ∧
        site.entry = .link reference ∧
        link = ⟨reference, definition.scopeName, site.visible⟩ := by
  rw [slot?_extend_iff]
  constructor
  · -- The root is no link.
    rintro ⟨definition, hpresent, ⟨-, hrule⟩ | ⟨site, hdeclared, hslot, hnumber⟩⟩
    · cases hrule
    · obtain ⟨reference, hentry, hlink⟩ := Site.slot?_eq_link_iff.1 hslot
      exact ⟨definition, site, reference, ⟨hpresent, hdeclared, hnumber⟩, hentry, hlink⟩
  · rintro ⟨definition, site, reference, hstands, hentry, hlink⟩
    exact ⟨definition, hstands.present, .inr ⟨site, hstands.declared,
      Site.slot?_eq_link_iff.2 ⟨reference, hentry, hlink⟩, hstands.number⟩⟩

/-- Where an include is declared, there is a link. -/
theorem hasInclude_iff : documents.HasInclude E id ↔
    ∃ link, (Languages.extend E [] documents).slot? id = some (.link link) := by
  simp only [slot?_extend_link_iff]
  constructor
  · rintro ⟨definition, site, reference, hstands, hentry⟩
    exact ⟨_, definition, site, reference, hstands, hentry, rfl⟩
  · rintro ⟨link, definition, site, reference, hstands, hentry, -⟩
    exact ⟨definition, site, reference, hstands, hentry⟩

/-- The target of a link is what its include names. -/
theorem target?_extend_iff {language : String} :
    (Languages.extend E [] documents).target? base ⟨reference, language, site.visible⟩ =
      some target ↔
      documents.Names base language site reference target := by
  -- By the kinds of references: for each, the look-up in the languages finds what is declared.
  cases reference with
  | entry key =>
    simp only [Languages.target?, Option.map_eq_some_iff, Site.lookup?_visible]
    constructor
    · rintro ⟨n, hnearest, rfl⟩
      exact .entry hnearest
    · rintro (hnearest | _)
      exact ⟨_, hnearest, rfl⟩
  | self =>
    simp only [Languages.target?, Option.some.injEq]
    constructor
    · rintro rfl
      exact .self
    · rintro ⟨⟩
      rfl
  | base =>
    simp only [Languages.target?, Option.some.injEq]
    constructor
    · rintro rfl
      exact .base
    · rintro ⟨⟩
      rfl
  | language name =>
    simp only [Languages.target?, find?_extend_nil, Option.map_eq_some_iff]
    constructor
    · rintro ⟨_, ⟨other, hpresent, rfl⟩, rfl⟩
      exact .language hpresent
    · rintro ⟨⟩
      next other hpresent => exact ⟨_, ⟨other, hpresent, rfl⟩, rfl⟩
  | languageEntry name key =>
    -- What another language shows is its outermost repository alone.
    have hlookup : ∀ repository : Repository,
        Repository.lookup? [repository] key = repository.lookup key := fun repository => by
      rw [Repository.lookup?, List.findSome?_singleton]
    simp only [Languages.target?, find?_extend_nil, Option.bind_eq_bind, Option.bind_eq_some_iff,
      Option.map_eq_some_iff, hlookup]
    constructor
    · -- Found under a name of that language, so declared under it.
      rintro ⟨_, ⟨other, hpresent, rfl⟩, n, hn, heq⟩
      obtain rfl := Option.some.inj heq
      exact .languageEntry hpresent (Entry.lookup_named.1 hn)
    · rintro ⟨⟩
      next other n hpresent hunder =>
        exact ⟨_, ⟨other, hpresent, rfl⟩, n, Entry.lookup_named.2 hunder, rfl⟩

/-- Links lead as the includes do. -/
theorem leads_extend :
    (Languages.extend E [] documents).Leads base = documents.Leads E base := by
  ext id target
  constructor
  · rintro ⟨link, hslot, htarget⟩
    obtain ⟨definition, site, reference, hstands, hentry, rfl⟩ := slot?_extend_link_iff.1 hslot
    exact ⟨definition, site, reference, hstands, hentry, target?_extend_iff.1 htarget⟩
  · rintro ⟨definition, site, reference, hstands, hentry, hnames⟩
    exact ⟨_, slot?_extend_link_iff.2 ⟨definition, site, reference, hstands, hentry, rfl⟩,
      target?_extend_iff.2 hnames⟩

/-- Only from an include something is led to. -/
theorem Leads.hasInclude (h : documents.Leads E base id target) : documents.HasInclude E id := by
  obtain ⟨definition, site, reference, hstands, hentry, -⟩ := h
  exact ⟨definition, site, reference, hstands, hentry⟩

/-- There is something at the place of a well-formed entry. -/
theorem StandsAt.exists_slot? (h : documents.StandsAt id definition site)
    (hwell : site.entry.isWellFormed = true) :
    ∃ slot, (Languages.extend E [] documents).slot? id = some slot := by
  obtain ⟨slot, hslot⟩ := Site.exists_slot? definition.scopeName hwell
  exact ⟨slot, slot?_extend_iff.2
    ⟨definition, h.present, .inr ⟨site, h.declared, hslot, h.number⟩⟩⟩

/-- At the first place of a language is its root. -/
theorem slot?_extend_root (h : documents.present? E name = some definition) :
    (Languages.extend E [] documents).slot? ⟨name, 0⟩ = some (.rule (definition.root E)) :=
  slot?_extend_iff.2 ⟨definition, h, .inl ⟨rfl, rfl⟩⟩

/-- What an include names has a place, when there is a language to compile. -/
theorem Names.exists_slot? (hbase : (documents.present? E base).isSome)
    (hpresent : documents.present? E definition.scopeName = some definition)
    (hdeclared : definition.Declares site)
    (h : documents.Names base definition.scopeName site reference target) :
    ∃ slot, (Languages.extend E [] documents).slot? target = some slot := by
  cases h with
  -- A named entry of a repository that is visible is declared itself.
  | entry nearest =>
    obtain ⟨inner, ⟨first, repository⟩, outer, haround, -, front, e, back, hsplit, hwell,
      -, rfl⟩ := nearest
    have hmem : (first, repository) ∈ site.around := by simp [haround]
    obtain ⟨around, hentry⟩ :=
      Site.exists_declared_of_around rfl hdeclared.to_reflTransGen hmem hsplit
    exact StandsAt.exists_slot? ⟨hpresent, hentry, rfl⟩ hwell
  | self => exact ⟨_, slot?_extend_root hpresent⟩
  | base =>
    obtain ⟨compiled, hbase⟩ := Option.isSome_iff_exists.1 hbase
    exact ⟨_, slot?_extend_root hbase⟩
  | language present => exact ⟨_, slot?_extend_root present⟩
  | languageEntry present under =>
    obtain ⟨front, e, back, hsplit, hwell, -, rfl⟩ := under
    exact StandsAt.exists_slot? ⟨present, .single (.named hsplit), rfl⟩ hwell

/-- No link leads out of the places. -/
theorem isClosed_extend (hbase : (documents.present? E base).isSome) :
    (Languages.extend E [] documents).IsClosed base := by
  intro id target hleads
  rw [leads_extend] at hleads
  obtain ⟨definition, site, reference, hstands, -, hnames⟩ := hleads
  obtain ⟨-, hname, -⟩ := present?_spec hstands.present
  exact hnames.exists_slot? hbase (hname ▸ hstands.present) hstands.declared

/-- The includes from a place on end where the chain of links does. -/
theorem ends_iff : documents.Ends base id rule ↔
    ∃ k, (Languages.extend E [] documents).EndsIn base k id rule := by
  rw [Languages.exists_endsIn_iff, leads_extend]
  exact exists_congr fun last => and_congr_right fun _ => slot?_extend_rule_iff.symm

/-- The includes from a place on break where the chain of links does. -/
theorem breaks_iff : documents.Breaks E base id ↔
    (Languages.extend E [] documents).Breaks base id := by
  rw [Languages.Breaks, leads_extend]
  refine exists_congr fun last => ?_
  simp only [exists_and_left]
  refine and_congr_right fun _ => ?_
  constructor
  · rintro ⟨⟨definition, site, reference, hstands, hentry⟩, hnone⟩
    refine ⟨_, slot?_extend_link_iff.2 ⟨definition, site, reference, hstands, hentry, rfl⟩,
      ?_⟩
    -- A place that the link led to would be one that is declared for it.
    rw [Option.eq_none_iff_forall_ne_some]
    exact fun target htarget =>
      hnone target ⟨definition, site, reference, hstands, hentry, target?_extend_iff.1 htarget⟩
  · rintro ⟨link, hslot, hnone⟩
    obtain ⟨definition, site, reference, hstands, hentry, -⟩ := slot?_extend_link_iff.1 hslot
    refine ⟨⟨definition, site, reference, hstands, hentry⟩, fun target htarget => ?_⟩
    rw [← leads_extend] at htarget
    obtain ⟨link', hslot', htarget⟩ := htarget
    -- The place holds one link only, the one that leads nowhere.
    rw [hslot] at hslot'
    obtain rfl := Slot.link.inj (Option.some.inj hslot')
    rw [hnone] at htarget
    cases htarget

/-- The includes from a place on return where the chain of links does. -/
theorem returns_iff : documents.Returns E base id ↔
    (Languages.extend E [] documents).Returns base id := by
  rw [Languages.Returns, leads_extend]
  rfl

/-- The languages of definitions have different names. -/
theorem nodup_extend (languages : Languages E) (documents : Definitions)
    (h : (languages.map Language.scopeName).Nodup) :
    ((Languages.extend E languages documents).map Language.scopeName).Nodup := by
  induction documents generalizing languages with
  | nil => exact h
  | cons definition rest ih =>
    rw [Languages.extend]
    split
    next => exact ih languages h
    next hfind =>
      split
      next language hok =>
        obtain ⟨-, rfl⟩ := Definition.ofDefinition_eq_ok_iff.1 hok
        refine ih _ ?_
        rw [List.map_append, List.map_singleton, Definition.layout_scopeName]
        refine List.nodup_append.2 ⟨h, List.nodup_singleton _, ?_⟩
        -- The new name was looked for and not found among those that are there.
        intro name hname other hother heq
        obtain ⟨language, hlanguage, rfl⟩ := List.mem_map.1 hname
        rw [List.mem_singleton] at hother
        exact absurd (heq.trans hother)
          (by simpa using List.find?_eq_none.1 hfind language hlanguage)
      next => exact ih languages h

end Definitions

namespace Grammar

/-- The rule at a place of a graph is what is made of the place in the languages. -/
theorem rule?_map (languages : Languages E) (f : Slot E → Rule E) (id : RuleId) :
    Graph.rule? ⟨languages.map fun language => (language.scopeName, language.slots.map f)⟩ id =
      (languages.slot? id).map f := by
  have hfind : (languages.map fun language => (language.scopeName, language.slots.map f)).find?
      (·.1 = id.language) =
        (languages.find? id.language).map fun language =>
          (language.scopeName, language.slots.map f) := by
    rw [List.find?_map]
    rfl
  rw [Graph.rule?, hfind, Languages.slot?]
  cases languages.find? id.language with
  | none => rfl
  | some language => exact Array.getElem?_map

/-- The rule at a place is what is left of it once links are followed. -/
theorem rule?_settle (languages : Languages E) (base : String) (id : RuleId) :
    (settle languages base).rule? id = (languages.slot? id).map (languages.settle base) :=
  rule?_map languages _ id

/-- A definition compiles when it is accepted, into the graph of the languages of all. -/
theorem compile_eq_ok_iff {definition : Definition} {others : List Definition}
    {grammar : Grammar E} :
    compile E definition others = .ok grammar ↔ definition.IsAccepted E ∧
      grammar = ⟨definition.uuid, definition.name, definition.scopeName, definition.fileTypes,
        settle (Languages.extend E [] (definition :: others)) definition.scopeName⟩ := by
  -- A refused definition of the language itself is the one error there is.
  by_cases haccepted : definition.IsAccepted E
  · have hok := Definition.ofDefinition_eq_ok_iff.2 ⟨haccepted, rfl⟩
    have hextend : Languages.extend E [] (definition :: others) =
        Languages.extend E [definition.layout E] others := by
      rw [Languages.extend, hok]
      rfl
    rw [hextend, compile, hok]
    simp [haccepted, eq_comm, pure, Except.pure, bind, Except.bind]
  · constructor
    · intro h
      cases hlanguage : Language.ofDefinition E definition with
      | ok language => exact absurd (Definition.ofDefinition_eq_ok_iff.1 hlanguage).1 haccepted
      | error e =>
        rw [compile, hlanguage] at h
        cases h
    · exact fun h => absurd h.1 haccepted

/-- Whether a definition compiles, and why it does not, is up to itself. -/
theorem compile_eq_error_iff {definition : Definition} {others : List Definition}
    {e : DocumentError} : compile E definition others = .error e ↔
      Language.ofDefinition E definition = .error e := by
  rw [compile]
  cases Language.ofDefinition E definition <;> simp [bind, Except.bind, pure, Except.pure]

end Grammar

end TextScopes
