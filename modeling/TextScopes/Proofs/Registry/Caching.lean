import Mathlib.Data.List.Dedup
import TextScopes.Registry
import TextScopes.Library.Embedded
import TextScopes.Proofs.Table
import TextScopes.Proofs.Expression.Literal

/-!
# What a registry keeps

A registry is used over documents that may change between two calls. `Registry.Used` tells its runs:
the calls, what each has answered and over which documents. A run is a list of `Event`s, the latest
first, and `answeredGrammars` and `answeredThemes` draw from it what has been answered since
everything was last forgotten.

Grammars and themes are kept alike, by `lookUp`. A table of kept values `Remembers` what has been
answered: what it has under an identifier is what the documents give over which the identifier was
answered first. `Remembers.lookUp` is the step, and `Used.tracks` carries it along a run. What a
registry answers, and how much it keeps, is then read off the run alone.
-/

namespace TextScopes

namespace Table

variable {κ ν : Type} [LT κ] [LE κ] [Std.LawfulOrderLT κ]

/-- No key of a table stands in it twice. -/
theorem nodup_keys (table : Table κ ν) : (table.entries.map (·.1)).Nodup := by
  refine List.pairwise_map.2 (table.ascending.imp fun hlt heq => ?_)
  rw [heq] at hlt
  exact Std.lt_irrefl hlt

variable [DecidableEq κ]

/-- A table has as many entries as there are keys under which something is found. -/
theorem size_eq_dedup {table : Table κ ν} {keys : List κ}
    (h : ∀ key, (table.find? key).isSome = true ↔ key ∈ keys) :
    table.size = keys.dedup.length := by
  have hperm : (table.entries.map (·.1)).Perm keys.dedup := by
    refine (List.perm_ext_iff_of_nodup table.nodup_keys keys.nodup_dedup).2 fun key => ?_
    rw [mem_keys, h, List.mem_dedup]
  calc table.size = (table.entries.map (·.1)).length := by rw [List.length_map, size]
    _ = keys.dedup.length := hperm.length_eq

end Table

namespace Registry

variable {E : Engine} {α : Type}

/-! ## Runs -/

/-- What has happened to a registry: a call, the documents that it was made over, and its answer. -/
inductive Event (E : Engine) where
  | grammar (identifier : String) (documents : Library) (answer : Option (Loaded (Grammar E)))
  | tokenizer (identifier : String) (documents : Library) (answer : Option (Tokenizer E))
  | theme (identifier : String) (documents : Library) (answer : Option (Loaded Theme))
  | cleared
  | replaced

namespace Event

/-- Everything that was kept has been forgotten. -/
def isCleared : Event E → Bool
  | cleared => true
  | _ => false

/-- The identifier for which a grammar, or a tokenizer for it, was answered, and the documents. -/
def answeredGrammar? : Event E → Option (String × Library)
  | grammar identifier documents answer => answer.map fun _ => (identifier, documents)
  | tokenizer identifier documents answer => answer.map fun _ => (identifier, documents)
  | _ => none

/-- The identifier for which a theme was answered, and the documents. -/
def answeredTheme? : Event E → Option (String × Library)
  | theme identifier documents answer => answer.map fun _ => (identifier, documents)
  | _ => none

end Event

/-- What has happened since everything was last forgotten, the latest first. -/
def sinceCleared (events : List (Event E)) : List (Event E) :=
  events.takeWhile fun event => !event.isCleared

/-- The identifiers for which grammars were answered since everything was last forgotten, the latest
first, each with the documents that the call was made over. -/
def answeredGrammars (events : List (Event E)) : List (String × Library) :=
  (sinceCleared events).filterMap Event.answeredGrammar?

/-- The identifiers for which themes were answered since everything was last forgotten. -/
def answeredThemes (events : List (Event E)) : List (String × Library) :=
  (sinceCleared events).filterMap Event.answeredTheme?

/-- Nothing has been answered once everything is forgotten; else an event is one more that may be an
answer. -/
theorem answeredGrammars_cons (event : Event E) (events : List (Event E)) :
    answeredGrammars (event :: events) =
      if event.isCleared then [] else event.answeredGrammar?.toList ++ answeredGrammars events := by
  unfold answeredGrammars sinceCleared
  cases hclear : event.isCleared with
  | true => simp [hclear]
  | false => cases hanswer : event.answeredGrammar? <;> simp [hclear, hanswer]

/-- So it is with themes. -/
theorem answeredThemes_cons (event : Event E) (events : List (Event E)) :
    answeredThemes (event :: events) =
      if event.isCleared then [] else event.answeredTheme?.toList ++ answeredThemes events := by
  unfold answeredThemes sinceCleared
  cases hclear : event.isCleared with
  | true => simp [hclear]
  | false => cases hanswer : event.answeredTheme? <;> simp [hclear, hanswer]

/-- The registry has been used in a run: a configuration, the documents as they are now, what has
happened, the latest first, and the registry that has come of it. -/
inductive Used (config : Config) : Library → List (Event E) → Registry E → Prop
  | new (documents : Library) : Used config documents [] (.new config documents)
  | grammar {documents : Library} {events : List (Event E)} {registry : Registry E}
      (h : Used config documents events registry) (identifier : String) :
      Used config documents
        (.grammar identifier documents (registry.grammar identifier).1 :: events)
        (registry.grammar identifier).2
  | tokenizer {documents : Library} {events : List (Event E)} {registry : Registry E}
      (h : Used config documents events registry) (identifier : String) :
      Used config documents
        (.tokenizer identifier documents (registry.tokenizer identifier).1 :: events)
        (registry.tokenizer identifier).2
  | theme {documents : Library} {events : List (Event E)} {registry : Registry E}
      (h : Used config documents events registry) (identifier : String) :
      Used config documents
        (.theme identifier documents (registry.theme identifier).1 :: events)
        (registry.theme identifier).2
  | clear {documents : Library} {events : List (Event E)} {registry : Registry E}
      (h : Used config documents events registry) :
      Used config documents (.cleared :: events) registry.clear
  | withLibrary {documents : Library} {events : List (Event E)} {registry : Registry E}
      (h : Used config documents events registry) (library : Library) :
      Used config library (.replaced :: events) (registry.withLibrary library)

/-! ## Where an answer comes from -/

/-- The documents over which an identifier was answered first. -/
def first? (answered : List (String × Library)) (identifier : String) : Option Library :=
  (answered.reverse.find? (·.1 = identifier)).map (·.2)

/-- The documents that answer for an identifier: those over which it was answered first, if answers
are kept and there was one, and else the documents as they are. -/
def source (keeps : Bool) (answered : List (String × Library)) (documents : Library)
    (identifier : String) : Library :=
  if keeps then (first? answered identifier).getD documents else documents

/-- A further answer counts as the first one only if there was none. -/
theorem first?_cons (identifier : String) (documents : Library)
    (answered : List (String × Library))
    (other : String) : first? ((identifier, documents) :: answered) other =
      (first? answered other).or (if identifier = other then some documents else none) := by
  unfold first?
  rw [List.reverse_cons, List.find?_append]
  cases answered.reverse.find? (·.1 = other) with
  | some entry => rfl
  | none => by_cases h : identifier = other <;> simp [h]

/-- Something was answered first for the identifiers that were answered, and for no others. -/
theorem isSome_first? {answered : List (String × Library)} {identifier : String} :
    (first? answered identifier).isSome = true ↔ identifier ∈ answered.map (·.1) := by
  rw [first?, Option.isSome_map, List.find?_isSome, List.mem_map]
  simp only [List.mem_reverse, decide_eq_true_eq]

/-! ## What a look-up keeps -/

/-- A value by its identifier: the one that is kept, or else the one that is loaded, which is kept
if `keeps` says so. With it what is kept then, and how often something has been loaded. -/
def lookUp (keeps : Bool) (load? : Option α) (identifier : String)
    (kept : Table String (Loaded α))
    (loads : Nat) : Option (Loaded α) × Table String (Loaded α) × Nat :=
  match if keeps then kept.find? identifier else none with
  | some loaded => (some loaded, kept, loads)
  | none =>
    match load? with
    | none => (none, kept, loads)
    | some value =>
      (some ⟨value, loads⟩,
        if keeps then kept.insert identifier ⟨value, loads⟩ else kept, loads + 1)

/-- Grammars are looked up, and nothing else of the registry changes. -/
theorem grammar_eq_lookUp (registry : Registry E) (identifier : String) :
    registry.grammar identifier =
      let result := lookUp registry.config.cacheGrammars
        (registry.library.grammar? E identifier) identifier registry.grammars registry.loads
      (result.1, { registry with grammars := result.2.1, loads := result.2.2 }) := by
  unfold grammar loadGrammar lookUp
  cases (if registry.config.cacheGrammars then registry.grammars.find? identifier else none) with
  | some kept => rfl
  | none => cases registry.library.grammar? E identifier <;> rfl

/-- Themes are looked up in the same way. -/
theorem theme_eq_lookUp (registry : Registry E) (identifier : String) :
    registry.theme identifier =
      let result := lookUp registry.config.cacheThemes
        (registry.library.theme? identifier) identifier registry.themes registry.loads
      (result.1, { registry with themes := result.2.1, loads := result.2.2 }) := by
  unfold theme loadTheme lookUp
  cases (if registry.config.cacheThemes then registry.themes.find? identifier else none) with
  | some kept => rfl
  | none => cases registry.library.theme? identifier <;> rfl

/-- A tokenizer is one for the grammar, and looking for it is looking for the grammar. -/
theorem tokenizer_eq (registry : Registry E) (identifier : String) :
    registry.tokenizer identifier =
      ((registry.grammar identifier).1.map fun loaded =>
        ⟨loaded.value, registry.config.maxLineLength⟩, (registry.grammar identifier).2) := by
  unfold tokenizer
  rw [grammar_eq_lookUp]

/-- A look-up that fails keeps nothing, and counts no load. -/
theorem lookUp_eq_none {keeps : Bool} {load? : Option α} {identifier : String}
    {kept : Table String (Loaded α)} {loads : Nat}
    (h : (lookUp keeps load? identifier kept loads).1 = none) :
    (lookUp keeps load? identifier kept loads).2 = (kept, loads) := by
  unfold lookUp at h ⊢
  split at h
  · cases h
  · split at h
    · rfl
    · cases h

/-- A table of kept values remembers what has been answered: it has the values that the documents
give over which they were answered first, and nothing if nothing is to be kept. -/
structure Remembers (keeps : Bool) (load? : Library → String → Option α)
    (answered : List (String × Library)) (kept : Table String (Loaded α)) : Prop where
  value : ∀ identifier, (kept.find? identifier).map (·.value) =
    if keeps then (first? answered identifier).bind (load? · identifier) else none
  loads : ∀ identifier documents, first? answered identifier = some documents →
    (load? documents identifier).isSome = true

namespace Remembers

variable {keeps : Bool} {load? : Library → String → Option α}
    {answered : List (String × Library)}
  {kept : Table String (Loaded α)}

/-- A table that keeps nothing remembers that nothing was answered. -/
theorem empty : Remembers keeps load? [] .empty where
  value identifier := by cases keeps <;> rfl
  loads _ _ h := by cases h

/-- Something is kept for the identifiers that were answered, if anything is to be kept. -/
theorem isSome_find? (h : Remembers keeps load? answered kept) (identifier : String) :
    (kept.find? identifier).isSome = true ↔
      identifier ∈ if keeps then answered.map (·.1) else [] := by
  have hvalue := congrArg Option.isSome (h.value identifier)
  rw [Option.isSome_map] at hvalue
  -- A cache that keeps nothing is empty, whatever was answered.
  cases keeps with
  | false => simp [hvalue]
  | true =>
    rw [if_pos rfl] at hvalue ⊢
    rw [hvalue, ← isSome_first?]
    cases hfirst : first? answered identifier with
    | none => rfl
    | some documents => simpa using h.loads identifier documents hfirst

/-- As many values are kept as identifiers were answered, if anything is to be kept. -/
theorem size (h : Remembers keeps load? answered kept) :
    kept.size = if keeps then (answered.map (·.1)).dedup.length else 0 := by
  rw [Table.size_eq_dedup h.isSome_find?]
  cases keeps <;> rfl

/-- A look-up answers what the documents give that answer for the identifier. -/
theorem lookUp_answer (h : Remembers keeps load? answered kept) (documents : Library)
    (identifier : String) (loads : Nat) :
    (lookUp keeps (load? documents identifier) identifier kept loads).1.map (·.value) =
      load? (source keeps answered documents identifier) identifier := by
  have hvalue := h.value identifier
  unfold lookUp source
  cases keeps with
  | false =>
    simp only [Bool.false_eq_true, if_false]
    cases load? documents identifier <;> rfl
  | true =>
    simp only [if_true] at hvalue ⊢
    cases hfirst : first? answered identifier with
    -- Not answered so far: nothing is kept, and what is loaded now is answered.
    | none =>
      rw [hfirst, Option.bind_none, Option.map_eq_none_iff] at hvalue
      rw [hvalue, Option.getD_none]
      cases load? documents identifier <;> rfl
    -- Answered before: what was loaded from the documents of that time is kept.
    | some documents' =>
      obtain ⟨value, hload⟩ := Option.isSome_iff_exists.1 (h.loads _ _ hfirst)
      rw [hfirst, Option.bind_some, hload] at hvalue
      obtain ⟨loaded, hfind, rfl⟩ := Option.map_eq_some_iff.1 hvalue
      rw [hfind, Option.getD_some, hload]
      rfl

/-- Once more has been answered for an identifier that is kept, nothing new is to be remembered. -/
theorem again (h : Remembers keeps load? answered kept) (documents : Library) {identifier : String}
    (hfirst : (first? answered identifier).isSome = true) :
    Remembers keeps load? ((identifier, documents) :: answered) kept := by
  -- The first answer stays the first.
  have hsame : first? ((identifier, documents) :: answered) = first? answered := by
    funext other
    rw [first?_cons]
    by_cases heq : identifier = other
    · subst heq
      obtain ⟨documents', hsome⟩ := Option.isSome_iff_exists.1 hfirst
      rw [hsome, Option.some_or]
    · rw [if_neg heq, Option.or_none]
  exact ⟨hsame ▸ h.value, hsame ▸ h.loads⟩

/-- A first answer for an identifier is kept, if anything is to be. -/
theorem insert (h : Remembers keeps load? answered kept) {documents : Library} {identifier : String}
    (hfirst : first? answered identifier = none) {value : α}
    (hload : load? documents identifier = some value) (loads : Nat) :
    Remembers keeps load? ((identifier, documents) :: answered)
      (if keeps then kept.insert identifier ⟨value, loads⟩ else kept) where
  value other := by
    have hvalue := h.value other
    cases keeps with
    | false => exact hvalue
    | true =>
      simp only [if_true] at hvalue ⊢
      rw [Table.find?_insert, first?_cons]
      -- Under its own name the new value is found, under others what was there.
      by_cases heq : identifier = other
      · subst heq
        rw [if_pos rfl, if_pos rfl, hfirst, Option.none_or, Option.bind_some, hload,
          Option.map_some]
      · rw [if_neg heq, if_neg heq, Option.or_none, hvalue]
  loads other documents' hother := by
    rw [first?_cons] at hother
    by_cases heq : identifier = other
    · subst heq
      rw [hfirst, Option.none_or, if_pos rfl, Option.some.injEq] at hother
      rw [← hother, hload]
      rfl
    · rw [if_neg heq, Option.or_none] at hother
      exact h.loads other documents' hother

/-- A look-up goes on remembering what has been answered, itself included. -/
theorem lookUp (h : Remembers keeps load? answered kept) (documents : Library) (identifier : String)
    (loads : Nat) : Remembers keeps load?
      (((Registry.lookUp keeps (load? documents identifier) identifier kept loads).1.map
        fun _ => (identifier, documents)).toList ++ answered)
      (Registry.lookUp keeps (load? documents identifier) identifier kept loads).2.1 := by
  unfold Registry.lookUp
  split
  next loaded hkept =>
    -- What is kept was answered before.
    have hon : keeps = true := by
      cases keeps with
      | true => rfl
      | false => cases hkept
    rw [if_pos hon] at hkept
    have hmem := (h.isSome_find? identifier).1 (Option.isSome_of_eq_some hkept)
    rw [if_pos hon] at hmem
    exact h.again documents (isSome_first?.2 hmem)
  next hkept =>
    split
    -- What cannot be loaded changes nothing.
    next hload => exact h
    next value hload =>
      by_cases hfirst : (first? answered identifier).isSome = true
      · -- Only where nothing is kept can an identifier be loaded that was answered before.
        have hoff : keeps = false := by
          by_contra hon
          rw [Bool.not_eq_false] at hon
          have hsome := (h.isSome_find? identifier).2 (by
            rw [if_pos hon]
            exact isSome_first?.1 hfirst)
          rw [if_pos hon] at hkept
          rw [hkept] at hsome
          cases hsome
        subst hoff
        exact h.again documents hfirst
      · -- Loaded for the first time.
        exact h.insert (Option.not_isSome_iff_eq_none.1 hfirst) hload loads

end Remembers

/-! ## Along a run -/

/-- What a registry is made of, told by the run that it has been used in. -/
structure Tracks (config : Config) (documents : Library) (events : List (Event E))
    (registry : Registry E) : Prop where
  config_eq : registry.config = config
  library_eq : registry.library = documents
  grammars : Remembers config.cacheGrammars (Library.grammar? E) (answeredGrammars events)
    registry.grammars
  themes : Remembers config.cacheThemes Library.theme? (answeredThemes events) registry.themes

variable {config : Config} {documents : Library} {events : List (Event E)} {registry : Registry E}

namespace Tracks

/-- Looking for a grammar, whatever is made of it, is remembered. -/
theorem grammar (h : Tracks config documents events registry) (identifier : String)
    {event : Event E} (hclear : event.isCleared = false) (htheme : event.answeredTheme? = none)
    (hanswered : event.answeredGrammar? =
      (registry.grammar identifier).1.map fun _ => (identifier, documents)) :
    Tracks config documents (event :: events) (registry.grammar identifier).2 := by
  obtain ⟨rfl, rfl, hgrammars, hthemes⟩ := h
  have hstep := hgrammars.lookUp registry.library identifier registry.loads
  rw [grammar_eq_lookUp] at hanswered ⊢
  refine ⟨rfl, rfl, ?_, ?_⟩
  · -- The answer counts among those of grammars only.
    rw [answeredGrammars_cons, hclear, hanswered]
    exact hstep
  · rw [answeredThemes_cons, hclear, htheme]
    exact hthemes

/-- Looking for a theme is remembered. -/
theorem theme (h : Tracks config documents events registry) (identifier : String) :
    Tracks config documents
      (.theme identifier documents (registry.theme identifier).1 :: events)
      (registry.theme identifier).2 := by
  obtain ⟨rfl, rfl, hgrammars, hthemes⟩ := h
  have hstep := hthemes.lookUp registry.library identifier registry.loads
  rw [theme_eq_lookUp]
  refine ⟨rfl, rfl, ?_, ?_⟩
  · rw [answeredGrammars_cons]
    exact hgrammars
  · rw [answeredThemes_cons]
    exact hstep

/-- The grammar that is answered is that of the documents that answer for it. -/
theorem grammar_answer (h : Tracks config documents events registry) (identifier : String) :
    (registry.grammar identifier).1.map (·.value) =
      (source config.cacheGrammars (answeredGrammars events) documents identifier).grammar? E
        identifier := by
  obtain ⟨rfl, rfl, hgrammars, -⟩ := h
  rw [grammar_eq_lookUp]
  exact hgrammars.lookUp_answer registry.library identifier registry.loads

/-- The theme that is answered is that of the documents that answer for it. -/
theorem theme_answer (h : Tracks config documents events registry) (identifier : String) :
    (registry.theme identifier).1.map (·.value) =
      (source config.cacheThemes (answeredThemes events) documents identifier).theme?
        identifier := by
  obtain ⟨rfl, rfl, -, hthemes⟩ := h
  rw [theme_eq_lookUp]
  exact hthemes.lookUp_answer registry.library identifier registry.loads

end Tracks

/-- A registry that has been used in a run is told by the run. -/
theorem Used.tracks (h : Used config documents events registry) :
    Tracks config documents events registry := by
  induction h with
  | new documents => exact ⟨rfl, rfl, .empty, .empty⟩
  | grammar _ identifier ih => exact ih.grammar identifier rfl rfl rfl
  -- A tokenizer is a grammar with a limit, so the answer counts as one of a grammar.
  | tokenizer _ identifier ih =>
    refine ih.grammar identifier rfl rfl ?_
    rw [tokenizer_eq, Event.answeredGrammar?, Option.map_map]
    rfl
  | theme _ identifier ih => exact ih.theme identifier
  -- Nothing counts as answered after the caches are cleared.
  | clear _ ih => exact ⟨ih.config_eq, ih.library_eq, .empty, .empty⟩
  -- Other documents leave what is kept as it is.
  | withLibrary _ library ih => exact ⟨ih.config_eq, rfl, ih.grammars, ih.themes⟩

/-- A grammar that cannot be answered leaves the registry as it was. -/
theorem grammar_of_eq_none {identifier : String} (h : (registry.grammar identifier).1 = none) :
    (registry.grammar identifier).2 = registry := by
  rw [grammar_eq_lookUp] at h ⊢
  have hsame := lookUp_eq_none h
  dsimp only
  rw [hsame]

/-- A theme that cannot be answered leaves the registry as it was. -/
theorem theme_of_eq_none {identifier : String} (h : (registry.theme identifier).1 = none) :
    (registry.theme identifier).2 = registry := by
  rw [theme_eq_lookUp] at h ⊢
  have hsame := lookUp_eq_none h
  dsimp only
  rw [hsame]

/-- What a registry answers is told by the run that it has been used in. If grammars are kept, the
grammar with an identifier, and the tokenizer for it, come from the documents over which either was
first answered since everything was last forgotten; if none was, or if grammars are not kept, they
come from the documents as they are. So do themes, by their own setting. What is kept are the
identifiers that were answered since, and a call without an answer changes nothing. -/
theorem answers_of_used (h : Used config documents events registry) (identifier : String) :
    let grammar? := (source config.cacheGrammars (answeredGrammars events) documents
      identifier).grammar? E identifier
    let theme? := (source config.cacheThemes (answeredThemes events) documents
      identifier).theme? identifier
    (registry.grammar identifier).1.map (·.value) = grammar? ∧
    (registry.tokenizer identifier).1 = grammar?.map (⟨·, config.maxLineLength⟩) ∧
    (registry.theme identifier).1.map (·.value) = theme? ∧
    registry.grammarCount = (if config.cacheGrammars then
      ((answeredGrammars events).map (·.1)).dedup.length else 0) ∧
    registry.themeCount = (if config.cacheThemes then
      ((answeredThemes events).map (·.1)).dedup.length else 0) ∧
    (grammar? = none → (registry.grammar identifier).2 = registry ∧
      (registry.tokenizer identifier).2 = registry) ∧
    (theme? = none → (registry.theme identifier).2 = registry) := by
  intro grammar? theme?
  have htracks := h.tracks
  have hgrammar : (registry.grammar identifier).1.map (·.value) = grammar? :=
    htracks.grammar_answer identifier
  have htheme : (registry.theme identifier).1.map (·.value) = theme? :=
    htracks.theme_answer identifier
  refine ⟨hgrammar, ?_, htheme, htracks.grammars.size, htracks.themes.size, fun hnone => ?_,
    fun hnone => ?_⟩
  · -- The tokenizer reads with the grammar that is answered.
    rw [tokenizer_eq, ← hgrammar, Option.map_map, htracks.config_eq]
    rfl
  · -- A failed look-up leaves the registry, for a grammar and for its tokenizer.
    have hsame := grammar_of_eq_none (Option.map_eq_none_iff.1 (hgrammar.trans hnone))
    exact ⟨hsame, hsame⟩
  · exact theme_of_eq_none (Option.map_eq_none_iff.1 (htheme.trans hnone))

/-- The document of a language with a name and the patterns that a text writes. -/
def languageText (scopeName name patterns : String) : String :=
  "\x7b\"uuid\":\"11111111-2222-4333-8444-555555555555\",\"name\":\"" ++ name ++
    "\",\"scopeName\":\"" ++ scopeName ++ "\",\"patterns\":" ++ patterns ++ "\x7d"

/-- Documents that hold one language, under a name. -/
def named (name : String) : Library :=
  (Embedded.empty.insert "source.a" .language (languageText "source.a" name "[]")).library

/-- A language that was asked for in vain is answered once its document is there, and stays as it
was answered then when the document changes its name. -/
theorem answers_of_used_named :
    ∃ (events : List (Event Engine.literal)) (registry : Registry Engine.literal),
      Used Config.default (named "B") events registry ∧ events.length = 4 ∧
      (registry.grammar "source.a").1.map (·.value.name) = some "A" ∧
      registry.grammarCount = 1 ∧ registry.themeCount = 0 ∧
      (registry.theme "dark").2 = registry := by
  have hrun : Used Config.default (named "B") _ _ :=
    .withLibrary (.grammar (.withLibrary (.grammar (E := Engine.literal)
      (.new Embedded.empty.library) "source.a") (named "A")) "source.a") (named "B")
  -- The grammar is asked for in the documents of `A`, and again in those of `B`.
  obtain ⟨hgrammar, -, -, hgrammars, hthemes, -, -⟩ := answers_of_used hrun "source.a"
  obtain ⟨-, -, -, -, -, -, hdark⟩ := answers_of_used hrun "dark"
  refine ⟨_, _, hrun, rfl, ?_, hgrammars.trans ?_, hthemes.trans ?_, hdark ?_⟩
  · have hname := congrArg (Option.map Grammar.name) hgrammar
    rw [Option.map_map] at hname
    refine hname.trans ?_
    decide +kernel
  · decide +kernel
  · decide +kernel
  · rw [← Option.not_isSome_iff_eq_none]
    decide +kernel

end Registry

end TextScopes
