import Mathlib.Data.Finset.Dedup
import TextScopes.Library.Embedded
import TextScopes.Proofs.Grammar.Languages
import TextScopes.Proofs.Library.Loading
import TextScopes.Proofs.Text.Boundary

/-!
# Documents held in memory

What is put in is apart: no two file names are the same as paths (`Embedded.ofList_apart`), so that
each document is found under its own name. Documents of languages and of themes never stand in for
one another (`DocumentKind.eq_of_same`). The library finds just the definitions that the documents
of languages give (`Embedded.mem_definitions_of_definition?`), and they name no more languages than
the documents have bytes (`Embedded.length_named_le`): a load of theirs ends before the bound on its
steps does (`Embedded.exists_loads`).
-/

namespace TextScopes

namespace Text

variable {cut : Char → Bool}

/-- A text without a cut is one run. -/
theorem splitOn_of_forall {cs : List Char} (h : ∀ c ∈ cs, cut c = false) :
    splitOn cut cs = [cs] := by
  induction cs with
  | nil => rfl
  | cons c cs ih =>
    rw [splitOn, if_neg (by simp [h c List.mem_cons_self]),
      ih fun d hd => h d (List.mem_cons_of_mem _ hd)]

/-- What has no cut and stands at the end of a text ends its last run. -/
theorem exists_splitOn_append {ending : List Char} (h : ∀ c ∈ ending, cut c = false)
    (cs : List Char) : ∃ front last, splitOn cut (cs ++ ending) = front ++ [last ++ ending] := by
  -- The last run takes the ending, however many runs come before it.
  induction cs with
  | nil => exact ⟨[], [], splitOn_of_forall h⟩
  | cons c cs ih =>
    obtain ⟨front, last, hsplit⟩ := ih
    rw [List.cons_append, splitOn, hsplit]
    split
    · exact ⟨[] :: front, last, rfl⟩
    · cases front with
      | nil => exact ⟨[], c :: last, rfl⟩
      | cons run front => exact ⟨(c :: run) :: front, last, rfl⟩

/-- A text has no more characters than bytes. -/
theorem length_le_utf8ByteSize (text : String) : text.length ≤ text.utf8ByteSize := by
  rw [utf8ByteSize_eq, ← String.length_toList]
  induction text.toList with
  | nil => exact Nat.le_refl _
  | cons c cs ih =>
    have hpos := c.utf8Size_pos
    rw [List.length_cons, byteCount]
    omega

end Text

namespace Path

/-- The last piece of a path is its last step, if it leads on from a directory. -/
theorem getLast?_steps {path piece : String} {front : List String}
    (h : pieces path = front ++ [piece]) (hstep : isStep piece = true) :
    (steps path).getLast? = some piece := by
  have hinner : inner path = front.filter isStep ++ [piece] := by
    rw [inner, h, List.filter_append, List.filter_singleton, hstep]
    rfl
  unfold steps
  rw [hinner]
  split
  next rest hpieces =>
    split
    next hnil =>
      -- The only piece would be the empty one.
      rw [hnil, h] at hpieces
      obtain ⟨-, heq⟩ := List.append_inj' (hpieces.trans (List.nil_append _).symm) rfl
      obtain rfl := List.singleton_inj.1 heq
      cases hstep
    next => rw [← List.cons_append, List.getLast?_concat]
  next => rw [← List.cons_append, List.getLast?_concat]
  next => rw [List.getLast?_concat]

end Path

namespace DocumentKind

/-- What the file names of documents of a kind end with, a point in front. -/
def ending (kind : DocumentKind) : List Char := '.' :: kind.extension.toList

/-- Whether a file name is that of a document of the kind. -/
def names (kind : DocumentKind) (name : String) : Bool := kind.ending.isSuffixOf name.toList

/-- A file name is the identifier with the ending of the kind. -/
theorem toList_fileName (kind : DocumentKind) (identifier : String) :
    (kind.fileName identifier).toList = identifier.toList ++ kind.ending := by
  rw [fileName, String.toList_append, String.toList_append, List.append_assoc]
  rfl

/-- Which kind a document is of shows in how its file name ends. -/
theorem eq_of_append {kind other : DocumentKind} {front back : List Char}
    (h : front ++ kind.ending = back ++ other.ending) : kind = other := by
  have hends := congrArg (fun cs => cs.reverse.take 7) h
  rw [List.reverse_append, List.reverse_append] at hends
  cases kind <;> cases other <;> first | rfl | exact absurd hends (by simp [ending, extension])

/-- The file names of documents of a kind are those of the kind. -/
theorem names_fileName {kind other : DocumentKind} {identifier : String} :
    kind.names (other.fileName identifier) = true ↔ kind = other := by
  rw [names, List.isSuffixOf_iff_suffix, toList_fileName]
  constructor
  · rintro ⟨front, heq⟩
    exact eq_of_append heq
  · rintro rfl
    exact List.suffix_append _ _

/-- The last step of a file name ends with the ending of the kind. -/
theorem exists_getLast?_steps (kind : DocumentKind) (identifier : String) :
    ∃ front, (Path.steps (kind.fileName identifier)).getLast? =
      some (String.ofList (front ++ kind.ending)) := by
  -- No slash is in the ending, so that it belongs to the last piece of the path.
  have hslash : ∀ c ∈ kind.ending, decide (c = '/') = false := by
    cases kind <;> simp [ending, extension]
  obtain ⟨front, last, hsplit⟩ := Text.exists_splitOn_append hslash identifier.toList
  have hpieces : Path.pieces (kind.fileName identifier) =
      front.map String.ofList ++ [String.ofList (last ++ kind.ending)] := by
    rw [Path.pieces, toList_fileName, hsplit, List.map_append, List.map_singleton]
  have hlength : 1 < kind.ending.length := by cases kind <;> decide
  have hstep : Path.isStep (String.ofList (last ++ kind.ending)) = true := by
    -- The piece is longer than an empty one or a dot, which are no steps.
    have hlong : ∀ short : String, short.toList.length ≤ 1 →
        String.ofList (last ++ kind.ending) ≠ short := by
      rintro short hshort rfl
      rw [String.toList_ofList, List.length_append] at hshort
      omega
    simp only [Path.isStep, Bool.and_eq_true, decide_eq_true_eq]
    exact ⟨hlong "" (by decide), hlong "." (by decide)⟩
  exact ⟨last, Path.getLast?_steps hpieces hstep⟩

/-- Documents of different kinds do not stand under one name. -/
theorem eq_of_same {kind other : DocumentKind} {identifier identifier' : String}
    (h : Path.same (kind.fileName identifier) (other.fileName identifier') = true) :
    kind = other := by
  obtain ⟨front, hfront⟩ := kind.exists_getLast?_steps identifier
  obtain ⟨back, hback⟩ := other.exists_getLast?_steps identifier'
  rw [(Path.same_iff _ _).1 h, hback, Option.some.injEq, String.ofList_inj] at hfront
  exact (eq_of_append hfront).symm

end DocumentKind

namespace Embedded

variable {embedded : Embedded} {name path text identifier : String} {definition : Definition}

/-! ## What is put in -/

/-- The documents that are put in one after the other. -/
def ofList (documents : List (String × DocumentKind × String)) : Embedded :=
  documents.foldl (fun embedded (identifier, kind, text) => embedded.insert identifier kind text)
    empty

/-- The documents stand under file names, and no two of these are the same as paths. -/
structure Apart (embedded : Embedded) : Prop where
  named : ∀ file ∈ embedded.files, ∃ kind : DocumentKind, ∃ identifier,
    file.1 = kind.fileName identifier
  apart : embedded.files.Pairwise fun file other => ¬Path.same file.1 other.1 = true

/-- A document that is put in takes the place of the one under its name. -/
theorem Apart.insert (h : embedded.Apart) (identifier : String) (kind : DocumentKind)
    (text : String) : (embedded.insert identifier kind text).Apart where
  named file hfile := by
    rcases List.mem_cons.1 hfile with rfl | hfile
    · exact ⟨kind, identifier, rfl⟩
    · exact h.named file (List.mem_filter.1 hfile).1
  apart := by
    refine List.pairwise_cons.2 ⟨fun file hfile hsame => ?_, h.apart.filter _⟩
    have hkept := (List.mem_filter.1 hfile).2
    rw [(Path.same_iff _ _).2 ((Path.same_iff _ _).1 hsame).symm] at hkept
    cases hkept

/-- Documents that are put in one after the other stand apart. -/
theorem ofList_apart (documents : List (String × DocumentKind × String)) :
    (ofList documents).Apart := by
  -- Each document replaces what stands under its name, or comes in apart from the others.
  have hfold : ∀ (documents : List (String × DocumentKind × String)) (embedded : Embedded),
      embedded.Apart → Apart (documents.foldl
        (fun embedded (identifier, kind, text) => embedded.insert identifier kind text)
          embedded) := by
    intro documents
    induction documents with
    | nil => exact fun embedded h => h
    | cons document documents ih => exact fun embedded h => ih _ (h.insert _ _ _)
  have hempty : empty.Apart := ⟨List.forall_mem_nil _, List.Pairwise.nil⟩
  exact hfold documents empty hempty

/-- What is found at a path stands under a name that is the same. -/
theorem exists_mem_of_text? (h : embedded.text? path = some text) :
    ∃ name, (name, text) ∈ embedded.files ∧ Path.same name path = true := by
  obtain ⟨⟨name, text⟩, hfind, rfl⟩ := Option.map_eq_some_iff.1 h
  have hsame := List.find?_some hfind
  exact ⟨name, List.mem_of_find?_eq_some hfind, hsame⟩

/-- Each document is found under its name. -/
theorem Apart.text?_of_mem (h : embedded.Apart) (hmem : (name, text) ∈ embedded.files) :
    embedded.text? name = some text := by
  obtain ⟨-, hapart⟩ := h
  unfold text?
  generalize embedded.files = files at hmem hapart
  induction files with
  | nil => cases hmem
  | cons file files ih =>
    obtain ⟨hfirst, hrest⟩ := List.pairwise_cons.1 hapart
    -- Under another name no file is found.
    rcases List.mem_cons.1 hmem with rfl | hmem
    · have hsame : Path.same name name = true := (Path.same_iff _ _).2 rfl
      simp only [List.find?_cons, hsame, Option.map_some]
    · have hother : Path.same file.1 name = false := Bool.eq_false_iff.2 (hfirst _ hmem)
      simp only [List.find?_cons, hother]
      exact ih hmem hrest

/-! ## Definitions of languages -/

/-- The definitions that the documents of languages give. -/
def definitions (embedded : Embedded) : List Definition :=
  (embedded.files.filter fun file => DocumentKind.language.names file.1).filterMap fun file =>
    (Definition.ofText file.2).toOption

/-- A definition is one of the documents of languages, decoded. -/
theorem mem_definitions : definition ∈ embedded.definitions ↔
    ∃ file ∈ embedded.files, DocumentKind.language.names file.1 = true ∧
      Definition.ofText file.2 = .ok definition := by
  simp only [definitions, List.mem_filterMap, List.mem_filter, toOption_eq_some_iff,
    and_assoc]

/-- A language is found by its file name. -/
theorem definition?_eq (embedded : Embedded) (identifier : String) :
    embedded.library.definition? identifier =
      (embedded.text? (DocumentKind.language.fileName identifier)).bind fun text =>
        (Definition.ofText text).toOption := by
  -- The library reads the text that stands under the file name.
  have hdocument : embedded.library.document? .language identifier =
      (embedded.text? (DocumentKind.language.fileName identifier)).bind fun text =>
        Json.read? text Json.nestingLimit := by
    unfold Library.document? library
    dsimp only
    cases htext : embedded.text? (DocumentKind.language.fileName identifier) with
    | none => rfl
    | some text =>
      simp only [Option.map_some, Option.bind_eq_bind, Option.bind_some, htext]
      rfl
  rw [Library.definition?, hdocument]
  cases embedded.text? (DocumentKind.language.fileName identifier) with
  | none => rfl
  | some text =>
    simp only [Option.bind_some, Definition.ofText]
    cases Json.read? text Json.nestingLimit <;> rfl

/-- A definition that is found is one of the documents of languages. -/
theorem Apart.mem_definitions_of_definition? (h : embedded.Apart)
    (hfound : embedded.library.definition? identifier = some definition) :
    definition ∈ embedded.definitions := by
  rw [definition?_eq] at hfound
  obtain ⟨text, htext, hdecoded⟩ := Option.bind_eq_some_iff.1 hfound
  obtain ⟨name, hmem, hsame⟩ := exists_mem_of_text? htext
  obtain ⟨kind, own, hname⟩ := h.named _ hmem
  dsimp only at hname
  subst hname
  -- Of the kinds of documents only languages have such names.
  obtain rfl := DocumentKind.eq_of_same hsame
  exact mem_definitions.2 ⟨_, hmem, DocumentKind.names_fileName.2 rfl,
    toOption_eq_some_iff.1 hdecoded⟩

/-- The documents of languages that give definitions are stored under the names of these, and write
their entries as objects. -/
structure IsOrderly (embedded : Embedded) : Prop where
  named : ∀ file ∈ embedded.files, DocumentKind.language.names file.1 = true →
    ∀ definition, Definition.ofText file.2 = .ok definition →
      file.1 = DocumentKind.language.fileName definition.scopeName
  written : ∀ definition ∈ embedded.definitions, definition.IsWritten

/-- Each definition of orderly documents is found under its name. -/
theorem Apart.definition?_scopeName (h : embedded.Apart) (horderly : embedded.IsOrderly)
    (hmem : definition ∈ embedded.definitions) :
    embedded.library.definition? definition.scopeName = some definition := by
  obtain ⟨⟨name, text⟩, hfile, hnames, hok⟩ := mem_definitions.1 hmem
  have hname : name = _ := horderly.named _ hfile hnames definition hok
  subst hname
  have hok : Definition.ofText text = .ok definition := hok
  rw [definition?_eq, h.text?_of_mem hfile, Option.bind_some, hok]
  rfl

/-! ## The bound on a load -/

/-- The includes of the definitions name no more languages than the documents have bytes. -/
theorem length_named_le (embedded : Embedded) :
    (embedded.definitions.flatMap Definition.named).length ≤ embedded.library.extent := by
  have hfiles : ∀ files : List (String × String),
      (((files.filter fun file => DocumentKind.language.names file.1).filterMap fun file =>
        (Definition.ofText file.2).toOption).flatMap Definition.named).length ≤
        (files.map fun file => file.2.utf8ByteSize).foldr (· + ·) 0 := by
    intro files
    induction files with
    | nil => exact Nat.le_refl _
    | cons file files ih =>
      rw [List.map_cons, List.foldr_cons]
      -- A file of another kind counts for nothing.
      by_cases hnames : DocumentKind.language.names file.1 = true
      · rw [List.filter_cons, if_pos hnames]
        cases hok : Definition.ofText file.2 with
        | ok definition =>
          have hlength := Definition.length_named_le_of_ofText hok
          have hbytes := Text.length_le_utf8ByteSize file.2
          rw [List.filterMap_cons_some (by rw [hok]; rfl), List.flatMap_cons, List.length_append]
          omega
        | error e =>
          rw [List.filterMap_cons_none (by rw [hok]; rfl)]
          omega
      · rw [List.filter_cons, if_neg hnames]
        omega
  exact hfiles embedded.files

/-- The languages that a definition of the documents refers to are loaded to the end. -/
theorem Apart.exists_loads (h : embedded.Apart) (hmem : definition ∈ embedded.definitions) :
    ∃ reads, Library.Loads embedded.library [definition.scopeName] definition.languages reads
      (embedded.library.dependencies definition) := by
  have hnamed : ∀ definition ∈ embedded.definitions, ∀ name ∈ definition.languages,
      name ∈ (embedded.definitions.flatMap Definition.named).toFinset := by
    intro definition hmem name hname
    rw [List.mem_toFinset, List.mem_flatMap]
    exact ⟨definition, hmem, (Definition.mem_languages.1 hname).2⟩
  -- As many names can be asked for as there are bytes at most.
  have hlimit : ((embedded.definitions.flatMap Definition.named).toFinset \
      [definition.scopeName].toFinset).card ≤ embedded.library.extent := by
    calc _ ≤ (embedded.definitions.flatMap Definition.named).toFinset.card :=
          Finset.card_le_card Finset.sdiff_subset
      _ ≤ (embedded.definitions.flatMap Definition.named).length := List.toFinset_card_le _
      _ ≤ embedded.library.extent := embedded.length_named_le
  exact Library.exists_loads
    (fun _ other hfound => hnamed other (h.mem_definitions_of_definition? hfound)) hlimit
    (hnamed definition hmem)

end Embedded

end TextScopes
