import TextScopes.Proofs.Grammar.Linking
import TextScopes.Proofs.Grammar.Walk
import TextScopes.Proofs.Grammar.Words

/-!
# Compiled graphs are closed

Whatever a definition holds of malformed entries, of includes that lead nowhere or in circles, and
of languages that are refused, its graph has a rule for every entry with a place and no other, a
rule of the graph holds rules of the graph only, and what is tried inside one can be searched for
(`Grammar.compile_closed`). No include is left: the arena in which the languages are laid out lists
its links without a gap, so that each of them is overwritten or made to match nothing
(`Grammar.exists_resolve_of_compile`).

A rule of the graph is one that an entry declares, or matches nothing, since a chain of links
ends in a declared rule or not at all. What a declared rule holds are the numbers of its
well-formed entries, which have places. Its expressions are compiled because an entry is
well-formed only with them; that this is so of entries at every depth holds because each is read
from a value (`Site.exists_read`).
-/

namespace TextScopes

variable {E : Engine}

/-- A result is given when there is no error. -/
theorem toOption_eq_some_iff {ε α : Type} {x : Except ε α} {a : α} :
    x.toOption = some a ↔ x = .ok a := by
  cases x <;> simp [Except.toOption]

namespace Entry

/-- An expression that stands by itself is compiled. -/
theorem isCompiled_of_standalone? {pattern : String} {opening : Expression E}
    (h : standalone? E pattern = some opening) : opening.isCompiled = true := by
  -- What compiling gives is compiled; a template is compiled once it stands alone.
  have hcompile : ∀ {pattern : String} {options : Options} {e : Expression E},
      Expression.compile E pattern options = .ok e → e.isCompiled = true := by
    intro pattern options e hok
    rw [Expression.compile] at hok
    split at hok
    next => obtain rfl := Except.ok.inj hok; rfl
    next => cases hok
  rw [standalone?, Expression.ofPattern] at h
  split at h
  next => exact hcompile (toOption_eq_some_iff.1 h)
  next =>
    cases hpattern : Expression.compile E pattern .grammar with
    | error e =>
      rw [hpattern] at h
      cases h
    | ok e =>
      rw [hpattern] at h
      have hstands : e.standalone = .ok opening := toOption_eq_some_iff.1 h
      rw [Expression.standalone] at hstands
      split at hstands
      next => exact hcompile hstands
      next =>
        obtain rfl := Except.ok.inj hstands
        exact hcompile hpattern

/-- A rule that fields make has a compiled expression to start with, if it has one. -/
theorem Fields.isCompiled_of_kind? {fields : Fields} {kind : Kind E} {opening : Expression E}
    (h : fields.kind? E = some kind) (hopening : kind.opening? = some opening) :
    opening.isCompiled = true := by
  rw [Fields.kind?] at h
  split at h
  -- A match opens with its one expression.
  next pattern _ =>
    obtain ⟨found, hfound, heq⟩ := Option.bind_eq_some_iff.1 h
    obtain rfl := Option.some.inj heq
    obtain rfl := Option.some.inj hopening
    exact isCompiled_of_standalone? hfound
  -- A region opens with the first of its two expressions.
  next pattern _ =>
    obtain ⟨text, -, h⟩ := Option.bind_eq_some_iff.1 h
    obtain ⟨closing, -, h⟩ := Option.bind_eq_some_iff.1 h
    obtain ⟨found, hfound, heq⟩ := Option.bind_eq_some_iff.1 h
    obtain rfl := Option.some.inj heq
    obtain rfl := Option.some.inj hopening
    exact isCompiled_of_standalone? hfound
  -- A holder of rules opens with none.
  next =>
    split at h
    next => cases h
    next =>
      obtain rfl := Option.some.inj h
      cases hopening

/-- The entries right inside an entry. -/
def held : Entry E → List (Entry E)
  | .link _ => []
  | .rule _ _ patterns repository => repository.map (·.2) ++ patterns

/-- The values of the entries that the fields of an entry hold. -/
def Fields.values (fields : Fields) : List Json.Value :=
  (fields.repository.getD []).map (·.2) ++ fields.inner

/-- What is inside an entry that is read is read too, from a value inside its own. -/
theorem exists_read_of_mem {depth : Nat} {v : Json.Value} {e : Entry E}
    (h : e ∈ (read E depth v).held) : ∃ fields, Fields.ofValue? v = some fields ∧
      ∃ depth, ∃ w ∈ fields.values, e = read E depth w := by
  cases depth with
  | zero => cases h
  | succ depth =>
    rw [read] at h
    split at h
    next => cases h
    next fields hfields =>
      refine ⟨fields, hfields, depth, ?_⟩
      split at h
      next => cases h
      next =>
        -- An entry of the repository, or one of the patterns.
        rcases List.mem_append.1 h with h | h
        · obtain ⟨named, hnamed, rfl⟩ := List.mem_map.1 h
          obtain ⟨⟨key, w⟩, hmem, rfl⟩ := List.mem_map.1 hnamed
          exact ⟨w, List.mem_append_left _ (List.mem_map_of_mem hmem), rfl⟩
        · obtain ⟨w, hmem, rfl⟩ := List.mem_map.1 h
          exact ⟨w, List.mem_append_right _ hmem, rfl⟩

/-- An entry that is read is a rule only with the kind that its fields make. -/
theorem isCompiled_of_read {depth : Nat} {v : Json.Value} {name : Option String} {kind : Kind E}
    {patterns : List (Entry E)} {repository : List (String × Entry E)} {opening : Expression E}
    (h : read E depth v = .rule name (some kind) patterns repository)
    (hopening : kind.opening? = some opening) : opening.isCompiled = true := by
  cases depth with
  | zero => cases h
  | succ depth =>
    rw [read] at h
    split at h
    next => cases h
    next fields _ =>
      split at h
      next => cases h
      next =>
        obtain ⟨-, hkind, -, -⟩ := Entry.rule.inj h
        exact Fields.isCompiled_of_kind? hkind hopening

end Entry

namespace Site

variable {site inner : Site E} {definition : Definition}

/-- An entry that one site holds is right inside that of the site. -/
theorem Holds.mem_held (h : site.Holds inner) : inner.entry ∈ site.entry.held := by
  cases h with
  | @named _ _ _ _ _ _ key e _ _ split =>
    exact List.mem_append_left _ (List.mem_map.2 ⟨(key, e), by simp [split], rfl⟩)
  | pattern split => exact List.mem_append_right _ (by simp [split])

/-- Every entry that a definition declares is read from a value. What is so of the values of the
definition, and passes from a value to those inside it, is so of this one. -/
theorem exists_read_of {P : Json.Value → Prop}
    (htop : ∀ v ∈ definition.repository.map (·.2) ++ definition.patterns, P v)
    (hinside : ∀ v fields, Entry.Fields.ofValue? v = some fields → P v →
      ∀ w ∈ fields.values, P w)
    (h : definition.Declares site) : ∃ depth v, site.entry = Entry.read E depth v ∧ P v := by
  -- On how the entry is held: at the top of the definition, or inside another entry.
  induction h with
  | single hholds =>
    rcases List.mem_append.1 hholds.mem_held with hmem | hmem
    · obtain ⟨named, hnamed, hentry⟩ := List.mem_map.1 hmem
      obtain ⟨⟨key, v⟩, hv, rfl⟩ := List.mem_map.1 hnamed
      exact ⟨v.depth, v, hentry.symm, htop v (List.mem_append_left _ (List.mem_map_of_mem hv))⟩
    · obtain ⟨v, hv, hentry⟩ := List.mem_map.1 hmem
      exact ⟨v.depth, v, hentry.symm, htop v (List.mem_append_right _ hv)⟩
  | tail _ hholds ih =>
    obtain ⟨depth, v, hread, hv⟩ := ih
    obtain ⟨fields, hfields, depth, w, hw, hentry⟩ :=
      Entry.exists_read_of_mem (hread ▸ hholds.mem_held)
    exact ⟨depth, w, hentry, hinside v fields hfields hv w hw⟩

/-- Every entry that a definition declares is read from a value. -/
theorem exists_read (h : definition.Declares site) :
    ∃ depth v, site.entry = Entry.read E depth v := by
  obtain ⟨depth, v, hread, -⟩ := exists_read_of (P := fun _ => True) (fun _ _ => trivial)
    (fun _ _ _ _ _ _ => trivial) h
  exact ⟨depth, v, hread⟩

end Site

namespace Definitions

variable {documents : Definitions} {base : String} {id : RuleId} {rule : Rule E} {slot : Slot E}

/-- A declared rule starts with a compiled expression, if with any. -/
theorem HasRule.isCompiled (h : documents.HasRule id rule) {opening : Expression E}
    (hopening : rule.kind.opening? = some opening) : opening.isCompiled = true := by
  rcases h with ⟨definition, -, -, rfl⟩ | ⟨definition, site, hstands, hslot⟩
  · -- The root opens with nothing.
    cases hopening
  · obtain ⟨depth, v, hread⟩ := Site.exists_read hstands.declared
    obtain ⟨entry, first, around⟩ := site
    cases entry with
    | link reference => cases hslot
    | rule name kind? patterns repository =>
      cases kind? with
      | none => cases hslot
      | some kind =>
        obtain rfl := Slot.rule.inj (Option.some.inj hslot)
        exact Entry.isCompiled_of_read hread.symm hopening

/-- What a declared rule holds has places. -/
theorem HasRule.exists_slot? (h : documents.HasRule id rule) {child : RuleId}
    (hchild : child ∈ rule.children) :
    ∃ slot, (Languages.extend E [] documents).slot? child = some slot := by
  -- The entry with the number is declared, in the definition that counts for its language.
  have hheld : ∀ {definition : Definition} (site : Site E) {name : Option String} {kind : Kind E}
      {patterns : List (Entry E)} {repository : List (String × Entry E)} {n : Nat},
      documents.present? E definition.scopeName = some definition →
      Relation.ReflTransGen Site.Holds (definition.top E) site →
      site.entry = .rule name (some kind) patterns repository →
      n ∈ Entry.numbers (site.first + Entry.size.sizeNamed repository) patterns →
      ∃ slot, (Languages.extend E [] documents).slot? ⟨definition.scopeName, n⟩ =
        some slot := by
    intro definition site name kind patterns repository n hpresent hreach hentry hn
    obtain ⟨inner, hholds, hnumber, hwell⟩ := Site.exists_holds_of_mem_numbers hentry hn
    exact StandsAt.exists_slot? ⟨hpresent, .tail' hreach hholds, hnumber⟩ hwell
  rcases h with ⟨definition, hpresent, -, rfl⟩ | ⟨definition, site, hstands, hslot⟩
  · obtain ⟨n, hn, rfl⟩ := List.mem_map.1 hchild
    obtain ⟨-, hname, -⟩ := present?_spec hpresent
    exact hheld (definition.top E) (hname ▸ hpresent) .refl rfl hn
  · obtain ⟨-, hname, -⟩ := present?_spec hstands.present
    obtain ⟨entry, first, around⟩ := site
    cases entry with
    | link reference => cases hslot
    | rule name kind? patterns repository =>
      cases kind? with
      | none => cases hslot
      | some kind =>
        obtain rfl := Slot.rule.inj (Option.some.inj hslot)
        obtain ⟨n, hn, rfl⟩ := List.mem_map.1 hchild
        exact hheld _ (hname ▸ hstands.present) hstands.declared.to_reflTransGen rfl hn

/-- At every place of the languages there is a declared include or a declared rule. -/
theorem exists_slot?_iff : (∃ slot, (Languages.extend E [] documents).slot? id = some slot) ↔
    documents.HasInclude E id ∨ ∃ rule : Rule E, documents.HasRule id rule := by
  constructor
  · rintro ⟨slot, hslot⟩
    cases slot with
    | rule rule => exact .inr ⟨rule, slot?_extend_rule_iff.1 hslot⟩
    | link link => exact .inl (hasInclude_iff.2 ⟨link, hslot⟩)
  · rintro (hinclude | ⟨rule, hrule⟩)
    · obtain ⟨link, hlink⟩ := hasInclude_iff.1 hinclude
      exact ⟨_, hlink⟩
    · exact ⟨_, slot?_extend_rule_iff.2 hrule⟩

/-- What is left of a place is a declared rule, or matches nothing. -/
theorem settle_eq_inert_or (hslot : (Languages.extend E [] documents).slot? id = some slot) :
    (Languages.extend E [] documents).settle base slot = .inert E ∨
      ∃ place, documents.HasRule place ((Languages.extend E [] documents).settle base slot) := by
  by_cases hends : ∃ k rule, (Languages.extend E [] documents).EndsIn base k id rule
  · obtain ⟨k, rule, hends⟩ := hends
    obtain ⟨last, -, hlast⟩ := Languages.exists_endsIn_iff.1 ⟨k, hends⟩
    rw [Languages.settle_of_endsIn hslot hends]
    exact .inr ⟨last, slot?_extend_rule_iff.1 hlast⟩
  · exact .inl (Languages.settle_of_not_endsIn hslot fun k rule h => hends ⟨k, rule, h⟩)

end Definitions

namespace Grammar

variable {definition : Definition} {others : List Definition} {grammar : Grammar E} {id : RuleId}
  {rule : Rule E}

/-- The languages of a compiled graph have different names. -/
theorem nodup_names_of_compile (h : compile E definition others = .ok grammar) :
    (grammar.graph.languages.map (·.1)).Nodup := by
  obtain ⟨-, rfl⟩ := compile_eq_ok_iff.1 h
  have hnames := Definitions.nodup_extend (E := E) [] (definition :: others) List.nodup_nil
  rw [settle, List.map_map]
  exact hnames

/-- A compiled graph has a rule at the places of its languages. -/
theorem exists_rule?_iff (h : compile E definition others = .ok grammar) :
    (∃ rule, grammar.graph.rule? id = some rule) ↔
      ∃ slot, (Languages.extend E [] (definition :: others)).slot? id = some slot := by
  obtain ⟨-, rfl⟩ := compile_eq_ok_iff.1 h
  simp only [rule?_settle, Option.map_eq_some_iff]
  exact ⟨fun ⟨_, slot, hslot, _⟩ => ⟨slot, hslot⟩,
    fun ⟨slot, hslot⟩ => ⟨_, slot, hslot, rfl⟩⟩

/-- A rule of a compiled graph is a declared one, or matches nothing. -/
theorem inert_or_hasRule_of_compile (h : compile E definition others = .ok grammar)
    (hrule : grammar.graph.rule? id = some rule) :
    rule = .inert E ∨ ∃ place, Definitions.HasRule (definition :: others) place rule := by
  obtain ⟨-, rfl⟩ := compile_eq_ok_iff.1 h
  rw [rule?_settle] at hrule
  obtain ⟨slot, hslot, rfl⟩ := Option.map_eq_some_iff.1 hrule
  exact Definitions.settle_eq_inert_or hslot

/-- A rule of a compiled graph holds rules of the graph. -/
theorem exists_child_of_compile (h : compile E definition others = .ok grammar)
    (hrule : grammar.graph.rule? id = some rule) {child : RuleId}
    (hchild : child ∈ rule.children) :
    ∃ held, grammar.graph.rule? child = some held := by
  rcases inert_or_hasRule_of_compile h hrule with rfl | ⟨place, hdeclared⟩
  · cases hchild
  · exact (exists_rule?_iff h).2 (hdeclared.exists_slot? hchild)

/-- The root of a compiled grammar is that of the definition. -/
theorem root_of_compile (h : compile E definition others = .ok grammar) :
    grammar.root = ⟨definition.scopeName, 0⟩ := by
  obtain ⟨-, rfl⟩ := compile_eq_ok_iff.1 h
  rfl

/-- The root of a compiled graph holds the top-level patterns. -/
theorem rule?_root_of_compile (h : compile E definition others = .ok grammar) :
    grammar.graph.rule? grammar.root = some (definition.root E) := by
  rw [root_of_compile h]
  obtain ⟨haccepted, rfl⟩ := compile_eq_ok_iff.1 h
  rw [rule?_settle, Definitions.slot?_extend_root (Definitions.present?_head haccepted)]
  rfl

/-- The arena of the definitions lists exactly its links, which are the declared includes. When
those that it lists have been overwritten, in the languages that it holds, there is the rule of the
graph at every place, and a link at none. -/
theorem exists_resolve_of_compile (h : compile E definition others = .ok grammar) :
    ∃ arena languages, Arena.ofDefinitions E definition others = .ok arena ∧
      arena.Holds languages ∧
      arena.links = arena.nodes.findIdxs Arena.Node.isLink ∧
      (∀ id, id ∈ arena.linkIds ↔ Definitions.HasInclude E (definition :: others) id) ∧
      ∀ id, (arena.resolve definition.scopeName languages).slot? id =
        (grammar.graph.rule? id).map .rule := by
  obtain ⟨arena, languages, harena, hholds, rfl⟩ := compile_eq_ok_iff_holds.1 h
  have hlisted := Arena.listed_ofDefinitions harena
  obtain rfl := hholds.unique (Arena.holds_ofDefinitions harena)
  have hnames := Definitions.nodup_extend (E := E) [] (definition :: others) List.nodup_nil
  refine ⟨arena, _, harena, hholds, hlisted, fun id => ?_, hholds.slot?_resolve hlisted hnames⟩
  rw [hholds.linkIds_eq hlisted, Languages.mem_linkIds_iff hnames, Definitions.hasInclude_iff]

/-- A compiled graph is closed: it has a rule for each declared entry with a place; each is a
declared rule or matches nothing, and holds rules of the graph; its candidates are those of a walk
to its end, and start with compiled expressions. The root is a container. And no include is left
when the links that the arena of the definitions lists, which are all that it has, have been
overwritten in place. -/
theorem compile_closed (h : compile E definition others = .ok grammar) :
    (∃ root, grammar.graph.rule? grammar.root = some root ∧ root.kind = .container) ∧
    (∃ arena languages, Arena.ofDefinitions E definition others = .ok arena ∧
      arena.Holds languages ∧
      arena.links = arena.nodes.findIdxs Arena.Node.isLink ∧
      (∀ id, id ∈ arena.linkIds ↔ Definitions.HasInclude E (definition :: others) id) ∧
      ∀ id, (arena.resolve definition.scopeName languages).slot? id =
        (grammar.graph.rule? id).map .rule) ∧
    (∀ id, (∃ rule, grammar.graph.rule? id = some rule) ↔
      Definitions.HasInclude E (definition :: others) id ∨
        ∃ rule : Rule E, Definitions.HasRule (definition :: others) id rule) ∧
    ∀ id rule, grammar.graph.rule? id = some rule →
      (rule = .inert E ∨ ∃ place, Definitions.HasRule (definition :: others) place rule) ∧
      (∀ child ∈ rule.children, ∃ held, grammar.graph.rule? child = some held) ∧
      grammar.graph.Walk [] [] rule.children (grammar.candidates id) ∧
      ∀ candidate ∈ grammar.candidates id, ∃ found opening,
        grammar.graph.rule? candidate = some found ∧ found.kind.opening? = some opening ∧
          opening.isCompiled = true := by
  refine ⟨⟨definition.root E, rule?_root_of_compile h, rfl⟩, exists_resolve_of_compile h,
    fun id => (exists_rule?_iff h).trans Definitions.exists_slot?_iff, fun id rule hrule =>
    ⟨inert_or_hasRule_of_compile h hrule, fun child => exists_child_of_compile h hrule, ?_,
      fun candidate hmem => ?_⟩⟩
  · have hwalk := Graph.walk_candidates (nodup_names_of_compile h) id
    rwa [Graph.children, hrule] at hwalk
  · obtain ⟨-, hopens⟩ := (Graph.mem_candidates_iff (nodup_names_of_compile h)).1 hmem
    obtain ⟨found, hfound, opening, hopening⟩ := Graph.exists_rule_of_opens hopens
    refine ⟨found, opening, hfound, hopening, ?_⟩
    -- An inert rule opens with nothing, and any other was declared.
    rcases inert_or_hasRule_of_compile h hfound with rfl | ⟨place, hdeclared⟩
    · cases hopening
    · exact hdeclared.isCompiled hopening

/-- The graph of `host`, with two includes of each other and a malformed entry, is closed. The
include inside the malformed entry is listed though nothing refers to it, and no link is left. -/
theorem compile_closed_host : ∃ grammar, compile Engine.literal .host [.guest] = .ok grammar ∧
    (∃ root, grammar.graph.rule? grammar.root = some root ∧ root.kind = .container) ∧
    (∀ candidate ∈ grammar.candidates grammar.root, ∃ found opening,
      grammar.graph.rule? candidate = some found ∧ found.kind.opening? = some opening ∧
        opening.isCompiled = true) ∧
    ∃ arena languages, Arena.ofDefinitions Engine.literal .host [.guest] = .ok arena ∧
      arena.links = [1, 3, 4, 5, 6, 7, 10, 11] ∧
      ∀ id link, (arena.resolve "text.host" languages).slot? id ≠ some (.link link) := by
  have haccepted : Definition.host.IsAccepted Engine.literal := by decide +kernel
  have h : compile Engine.literal .host [.guest] = .ok _ := compile_eq_ok_iff.2 ⟨haccepted, rfl⟩
  have hlinks : (Arena.ofDefinitions Engine.literal .host [.guest]).toOption.map (·.links) =
      some [1, 3, 4, 5, 6, 7, 10, 11] := by decide +kernel
  obtain ⟨⟨root, hroot, hcontainer⟩, ⟨arena, languages, harena, -, -, -, hresolve⟩,
    -, hrules⟩ := compile_closed h
  rw [harena] at hlinks
  refine ⟨_, h, ⟨root, hroot, hcontainer⟩, (hrules _ root hroot).2.2.2, arena,
    languages, harena, Option.some.inj hlinks, fun id link hlink => ?_⟩
  -- Each place of the resolved languages holds the rule of the graph.
  rw [show "text.host" = Definition.host.scopeName from rfl, hresolve] at hlink
  obtain ⟨rule, -, heq⟩ := Option.map_eq_some_iff.1 hlink
  cases heq

end Grammar

end TextScopes
