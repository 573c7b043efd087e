import TextScopes.Proofs.Library.Embedded
import TextScopes.Proofs.Registry.Caching
import TextScopes.Proofs.Tokenizer.Agreement

/-!
# A registry loads enough

A grammar is compiled with the languages that a load from its own definition finds. All other
documents are left aside, and that makes no difference: a declared include names the language that
declares it or one that has been asked for, so that what it names counts among the loaded
definitions as it does among all (`Library.Loads.suffice`). A registry over documents held in memory
therefore answers grammars that read every text as those do that are compiled with all documents
(`Registry.grammar_loads_enough`).
-/

namespace TextScopes

variable {E : Engine}

namespace Definitions

variable {documents : Definitions} {definition : Definition} {name : String}

/-- Where no two definitions have one name, each that is accepted counts for its own. -/
theorem present?_eq_some_iff
    (hunique : ∀ d ∈ documents, ∀ d' ∈ documents, d.scopeName = d'.scopeName → d = d') :
    documents.present? E name = some definition ↔
      definition ∈ documents ∧ definition.scopeName = name ∧ definition.IsAccepted E := by
  refine ⟨present?_spec, fun ⟨hmem, hname, haccepted⟩ => ?_⟩
  have hsome : (documents.present? E name).isSome = true :=
    List.find?_isSome.2 ⟨definition, hmem, by simpa using ⟨hname, haccepted⟩⟩
  obtain ⟨other, hother⟩ := Option.isSome_iff_exists.1 hsome
  obtain ⟨hother_mem, hother_name, -⟩ := present?_spec hother
  rw [hother, hunique other hother_mem definition hmem (hother_name.trans hname.symm)]

end Definitions

namespace Library

variable {library : Library} {definition : Definition} {reads : List String}
  {loaded others : List Definition}

/-- What a load from a definition finds suffices among any definitions that the library finds under
their names. -/
theorem Loads.suffice
    (h : Loads library [definition.scopeName] definition.languages reads loaded)
    (hothers : ∀ d ∈ definition :: others, library.definition? d.scopeName = some d)
    (hloaded : loaded ⊆ definition :: others)
    (hwritten : ∀ d ∈ definition :: loaded, d.IsWritten) :
    Definitions.Suffice E (definition :: loaded) (definition :: others) := by
  have hsubset : definition :: loaded ⊆ definition :: others :=
    List.cons_subset.2 ⟨List.mem_cons_self, hloaded⟩
  -- A definition is found under its own name, so that two of one name are the same.
  have hunique : ∀ d ∈ definition :: others, ∀ d' ∈ definition :: others,
      d.scopeName = d'.scopeName → d = d' := by
    intro d hd d' hd' hname
    have hfound := hothers d hd
    rw [hname, hothers d' hd'] at hfound
    exact (Option.some.inj hfound).symm
  have hcounts : ∀ name d, Definitions.present? E (definition :: loaded) name = some d →
      Definitions.present? E (definition :: others) name = some d := by
    intro name d hd
    obtain ⟨hmem, hname, haccepted⟩ := Definitions.present?_spec hd
    exact (Definitions.present?_eq_some_iff hunique).2 ⟨hsubset hmem, hname, haccepted⟩
  refine ⟨hcounts, fun name d hd site hdeclares reference hentry other hother => ?_⟩
  obtain ⟨hmem, -, -⟩ := Definitions.present?_spec hd
  refine Option.ext fun d' => ⟨fun hd' => ?_, hcounts other d'⟩
  obtain ⟨hmem', hname', haccepted'⟩ := Definitions.present?_spec hd'
  refine (Definitions.present?_eq_some_iff fun a ha b hb =>
    hunique a (hsubset ha) b (hsubset hb)).2 ⟨?_, hname', haccepted'⟩
  -- The language was asked for, unless it is the one that declares the include.
  rcases Definition.mem_languages_of_declares (hwritten d hmem) hdeclares hentry hother with
    hown | hrefers
  · -- Its own language is the definition itself.
    have heq : d' = d := hunique d' hmem' d (hsubset hmem) (hname'.trans hown)
    exact heq ▸ hmem
  · have hwaits : other ∈ definition.languages ++ loaded.flatMap Definition.languages := by
      rcases List.mem_cons.1 hmem with rfl | hmem
      · exact List.mem_append_left _ hrefers
      · exact List.mem_append_right _ (List.mem_flatMap.2 ⟨d, hmem, hrefers⟩)
    -- The name is that of the first definition, or was asked for on the way.
    rcases List.mem_append.1 (h.mem_asked hwaits) with hfirst | hread
    · have hbase : other = definition.scopeName := List.mem_singleton.1 hfirst
      have heq : d' = definition :=
        hunique d' hmem' definition List.mem_cons_self (hname'.trans hbase)
      exact heq ▸ List.mem_cons_self
    · have hfound : library.definition? other = some d' := hname' ▸ hothers d' hmem'
      rw [h.loaded_eq]
      exact List.mem_cons_of_mem _ (List.mem_filterMap.2 ⟨other, hread, hfound⟩)

end Library

namespace Embedded

variable {embedded : Embedded} {definition : Definition} {reads : List String}
  {loaded others : List Definition}

/-- What a load finds in orderly documents suffices among all definitions of theirs. -/
theorem Apart.suffice (h : embedded.Apart) (horderly : embedded.IsOrderly)
    (hmem : definition ∈ embedded.definitions)
    (hloads : Library.Loads embedded.library [definition.scopeName] definition.languages
      reads loaded)
    (hothers : ∀ d, d ∈ others ↔ d ∈ embedded.definitions ∧
      d.scopeName ≠ definition.scopeName) :
    Definitions.Suffice E (definition :: loaded) (definition :: others) := by
  have hfound : ∀ d ∈ embedded.definitions, embedded.library.definition? d.scopeName = some d :=
    fun d hd => h.definition?_scopeName horderly hd
  have hloaded : ∀ d ∈ loaded, d ∈ embedded.definitions := by
    intro d hd
    rw [hloads.loaded_eq] at hd
    obtain ⟨name, -, hname⟩ := List.mem_filterMap.1 hd
    exact h.mem_definitions_of_definition? hname
  -- A definition that is loaded is the first one or another.
  have hsubset : loaded ⊆ definition :: others := by
    intro d hd
    by_cases hname : d.scopeName = definition.scopeName
    · have hsame := hfound d (hloaded d hd)
      rw [hname, hfound definition hmem] at hsame
      exact Option.some.inj hsame ▸ List.mem_cons_self
    · exact List.mem_cons_of_mem _ ((hothers d).2 ⟨hloaded d hd, hname⟩)
  refine hloads.suffice (List.forall_mem_cons.2 ⟨hfound definition hmem, fun d hd => ?_⟩)
    hsubset
    (List.forall_mem_cons.2 ⟨horderly.written definition hmem, fun d hd => ?_⟩)
  · exact hfound d ((hothers d).1 hd).1
  · exact horderly.written d (hloaded d hd)

end Embedded

namespace Registry

variable {config : Config} {library : Library} {events : List (Event E)} {registry : Registry E}

/-- As long as its documents are not replaced, a registry answers over them alone. -/
theorem Used.documents_eq (h : Used config library events registry)
    (hfixed : Event.replaced ∉ events) :
    ∀ entry ∈ answeredGrammars events, entry.2 = library := by
  -- An answer is given out of the documents of its time, which have not been replaced.
  induction h with
  | new documents => exact List.forall_mem_nil _
  | grammar _ identifier ih | tokenizer _ identifier ih =>
    intro entry hentry
    rw [answeredGrammars_cons] at hentry
    rcases List.mem_append.1 hentry with hnow | hbefore
    · obtain ⟨answer, -, rfl⟩ := Option.map_eq_some_iff.1 (Option.mem_toList.1 hnow)
      rfl
    · exact ih (fun hmem => hfixed (List.mem_cons_of_mem _ hmem)) entry hbefore
  | theme _ identifier ih =>
    intro entry hentry
    rw [answeredGrammars_cons] at hentry
    exact ih (fun hmem => hfixed (List.mem_cons_of_mem _ hmem)) entry hentry
  | clear _ _ => exact List.forall_mem_nil _
  | withLibrary _ _ _ => exact absurd List.mem_cons_self hfixed

/-- As long as its documents are not replaced, a registry answers the grammars that they give. -/
theorem Used.grammar_eq (h : Used config library events registry)
    (hfixed : Event.replaced ∉ events) (identifier : String) :
    (registry.grammar identifier).1.map (·.value) = library.grammar? E identifier := by
  have hsource : source config.cacheGrammars (answeredGrammars events) library identifier =
      library := by
    unfold source first?
    split
    · -- The answer that is kept was read from the same documents.
      cases hfind : (answeredGrammars events).reverse.find? (·.1 = identifier) with
      | none => rfl
      | some entry =>
        have hmem := List.mem_reverse.1 (List.mem_of_find?_eq_some hfind)
        exact h.documents_eq hfixed entry hmem
    · rfl
  rw [h.tracks.grammar_answer, hsource]

/-- A registry over documents held in memory, of which each language is stored under its own name
and writes its entries as objects, loads enough and nothing twice. Whatever it was asked before, the
load from a definition whose grammar it answers ends, without asking for any name a second time, and
the grammar that is compiled with what was found reads every text as the one does that is compiled
with all other definitions of the documents. -/
theorem grammar_loads_enough (hE : E.Bounded) {documents : List (String × DocumentKind × String)}
    (hused : Used config (Embedded.ofList documents).library events registry)
    (hfixed : Event.replaced ∉ events) (horderly : (Embedded.ofList documents).IsOrderly)
    {identifier : String} {answer : Loaded (Grammar E)}
    (h : (registry.grammar identifier).1 = some answer) :
    ∃ definition reads,
      (Embedded.ofList documents).library.definition? identifier = some definition ∧
      Library.Loads (Embedded.ofList documents).library [definition.scopeName] definition.languages
        reads ((Embedded.ofList documents).library.dependencies definition) ∧
      reads.Nodup ∧ definition.scopeName ∉ reads ∧
      Grammar.compile E definition ((Embedded.ofList documents).library.dependencies definition) =
        .ok answer.value ∧
      ∀ others : List Definition,
        (∀ d, d ∈ others ↔ d ∈ (Embedded.ofList documents).definitions ∧
          d.scopeName ≠ definition.scopeName) →
        ∃ grammar, Grammar.compile E definition others = .ok grammar ∧
          ∀ (maxLineLength : Nat) (text : String),
            (Tokenizer.mk answer.value maxLineLength).tokens text =
              (Tokenizer.mk grammar maxLineLength).tokens text := by
  have hapart := Embedded.ofList_apart documents
  generalize Embedded.ofList documents = embedded at hused horderly hapart ⊢
  have hgrammar := hused.grammar_eq hfixed identifier
  rw [h, Option.map_some] at hgrammar
  obtain ⟨definition, hdefinition, hcompiled⟩ := Option.bind_eq_some_iff.1 hgrammar.symm
  have hcompile : Grammar.compile E definition (embedded.library.dependencies definition) =
      .ok answer.value := toOption_eq_some_iff.1 hcompiled
  have hmem := hapart.mem_definitions_of_definition? hdefinition
  obtain ⟨reads, hloads⟩ := hapart.exists_loads hmem
  obtain ⟨hnodup, hnew⟩ := hloads.nodup
  refine ⟨definition, reads, hdefinition, hloads, hnodup,
    fun hread => hnew _ hread (List.mem_singleton_self _), hcompile, fun others hothers => ?_⟩
  have haccepted := (Grammar.compile_eq_ok_iff.1 hcompile).1
  have hfull : Grammar.compile E definition others = .ok _ :=
    Grammar.compile_eq_ok_iff.2 ⟨haccepted, rfl⟩
  refine ⟨_, hfull, fun maxLineLength text => ?_⟩
  -- What was loaded is enough among all the others.
  have hsuffice := hapart.suffice (E := E) horderly hmem hloads hothers
  exact (Tokenizer.tokens_eq_of_suffice hE hsuffice hcompile hfull maxLineLength text).symm

/-- Two languages that include each other and more: one that is not there, one that does not compile
and one that is no document. A theme stands beside them. -/
def mixed : List (String × DocumentKind × String) := [
  ("a", .language, languageText "a" "A" "[\x7b\"include\":\"b\"\x7d,\x7b\"include\":\"none\"\x7d]"),
  ("b", .language, languageText "b" "B"
    "[\x7b\"name\":\"m\",\"match\":\"x\"\x7d,\x7b\"include\":\"a\"\x7d,\x7b\"include\":\"c\"\x7d]"),
  ("c", .language, languageText "c" "C" "[\x7b\"begin\":\"x\"\x7d,\x7b\"include\":\"cut\"\x7d]"),
  ("cut", .language, "["), ("dark", .theme, "")]

/-- The languages of `mixed` are stored under their names and write their entries as objects. -/
theorem mixed_isOrderly : (Embedded.ofList mixed).IsOrderly := by
  -- The documents are checked by running through them.
  have hcheck : ((Embedded.ofList mixed).files.all fun file =>
      !DocumentKind.language.names file.1 ||
        match Definition.ofText file.2 with
        | .ok definition =>
          decide (file.1 = DocumentKind.language.fileName definition.scopeName) &&
            definition.values.all (Entry.writes 4)
        | .error _ => true) = true := by decide +kernel
  have horderly : ∀ file ∈ (Embedded.ofList mixed).files,
      DocumentKind.language.names file.1 = true → ∀ definition,
        Definition.ofText file.2 = .ok definition →
          file.1 = DocumentKind.language.fileName definition.scopeName ∧
          definition.IsWritten := by
    intro file hfile hnames definition hok
    have hboth := List.all_eq_true.1 hcheck file hfile
    rw [hnames, hok, Bool.not_true, Bool.false_or, Bool.and_eq_true] at hboth
    refine ⟨of_decide_eq_true hboth.1, fun v hv => ?_⟩
    exact Entry.isWritten_of_writes (List.all_eq_true.1 hboth.2 v hv)
  refine ⟨fun file hfile hnames definition hok => (horderly file hfile hnames definition hok).1,
    fun definition hmem => ?_⟩
  obtain ⟨file, hfile, hnames, hok⟩ := Embedded.mem_definitions.1 hmem
  exact (horderly file hfile hnames definition hok).2

/-- What is loaded for the first language of `mixed` marks what all definitions mark. -/
theorem grammar_loads_enough_mixed :
    ∃ (answer : Loaded (Grammar Engine.literal)) (definition : Definition)
      (grammar : Grammar Engine.literal),
      ((new Config.default (Embedded.ofList mixed).library).grammar "a").1 = some answer ∧
      (Tokenizer.mk answer.value 80).tokens "x" = [⟨"m", ⟨0, 1⟩, 0⟩] ∧
      Grammar.compile Engine.literal definition ((Embedded.ofList mixed).definitions.filter
        (·.scopeName ≠ definition.scopeName)) = .ok grammar ∧
      (Tokenizer.mk grammar 80).tokens "x" = (Tokenizer.mk answer.value 80).tokens "x" := by
  have htokens : (((new Config.default (Embedded.ofList mixed).library).grammar "a").1.map
      fun answer : Loaded (Grammar Engine.literal) => (Tokenizer.mk answer.value 80).tokens "x") =
      some [⟨"m", ⟨0, 1⟩, 0⟩] := by decide +kernel
  obtain ⟨answer, hanswer, hmark⟩ := Option.map_eq_some_iff.1 htokens
  obtain ⟨definition, -, -, -, -, -, -, henough⟩ := grammar_loads_enough Engine.literal_bounded
    (.new _) List.not_mem_nil mixed_isOrderly hanswer
  have hothers : ∀ d, d ∈ (Embedded.ofList mixed).definitions.filter
      (·.scopeName ≠ definition.scopeName) ↔
        d ∈ (Embedded.ofList mixed).definitions ∧ d.scopeName ≠ definition.scopeName := by
    intro d
    rw [List.mem_filter, decide_eq_true_eq]
  obtain ⟨grammar, hgrammar, hsame⟩ := henough _ hothers
  exact ⟨answer, definition, grammar, hanswer, hmark, hgrammar, (hsame 80 "x").symm⟩

end Registry

end TextScopes
