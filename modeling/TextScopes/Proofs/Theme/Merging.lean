import TextScopes.Theme.Basic
import TextScopes.Proofs.DocumentError
import TextScopes.Proofs.Text.Pieces
import TextScopes.Proofs.Theme.Attributes

/-!
# The table of a theme

The entries of a theme's document go one by one, and name by name, into a table that all of them
share. What comes of it under one name is told without the table (`Theme.attributes_eq_merge`): the
attributes of the well-formed entries for the name, put over each other in the order of the
document. To override is associative and keeps what is put over itself, so that it does not matter
how often an entry names a name (`Theme.find?_foldl_overlay`).

An entry is for a name that is a piece of its selector between commas, with the blanks around it
taken off (`Theme.Entry.mem_names_iff`).
-/

namespace TextScopes

/-- Attributes put over each other, the last on top. -/
def Attributes.merge (tops : List Attributes) : Attributes := tops.foldl override empty

/-- What merged attributes set a setting to is what the last of them sets that sets it. -/
theorem Attributes.get?_merge (tops : List Attributes) (setting : Setting) :
    (merge tops).get? setting = tops.reverse.findSome? (·.get? setting) := by
  rw [merge, get?_foldl_override, get?_empty, Option.or_none]

namespace Theme

namespace Entry

/-- An entry is for the global name when it has no selector, and else for the pieces of its selector
between commas, without the blanks around them and not empty. -/
def IsFor (entry : Entry) (name : String) : Prop :=
  (entry.selector = none ∧ name = Scope.globalName) ∨
    ∃ selector piece, entry.selector = some selector ∧
      Text.IsPiece (· = ',') selector.toList piece ∧
      Text.IsInside piece name.toList ∧ name ≠ ""

/-- The names of an entry are those that it is for. -/
theorem mem_names_iff {entry : Entry} {name : String} :
    name ∈ entry.names ↔ entry.IsFor name := by
  unfold names IsFor
  cases hselector : entry.selector with
  | none => simp
  | some selector =>
    simp only [reduceCtorEq, false_and, false_or, Option.some.injEq, exists_and_left,
      exists_eq_left',
      List.mem_map, List.mem_filter, decide_eq_true_eq, ← Text.mem_splitOn_iff,
        ← Text.trim_eq_iff]
    constructor
    · -- A name is a piece of the selector without blanks, and not empty.
      rintro ⟨_, ⟨⟨piece, hpiece, rfl⟩, hne⟩, rfl⟩
      refine ⟨piece, hpiece, String.toList_ofList.symm, fun hempty => hne ?_⟩
      rw [← String.toList_ofList (l := Text.trim piece), hempty]
      rfl
    · rintro ⟨piece, hpiece, htrim, hne⟩
      refine ⟨name.toList, ⟨⟨piece, hpiece, htrim⟩, fun hempty => hne ?_⟩,
        String.ofList_toList⟩
      rw [← String.ofList_toList (s := name), hempty]

instance (entry : Entry) (name : String) : Decidable (entry.IsFor name) :=
  decidable_of_iff _ mem_names_iff

end Entry

/-- The entries of settings that are well formed, in the order of the document. -/
def wellFormed (settings : List Json.Value) : List Entry := settings.filterMap Entry.ofValue?

/-- The attributes of the entries for a name, in their order. -/
def attributesOf (name : String) (entries : List Entry) : List Attributes :=
  (entries.filter (·.IsFor name)).map (·.attributes)

/-- The attributes of entries for a name are those of the first ones and then those of the
others. -/
theorem attributesOf_append (name : String) (entries more : List Entry) :
    attributesOf name (entries ++ more) = attributesOf name entries ++ attributesOf name more := by
  rw [attributesOf, List.filter_append, List.map_append]
  rfl

/-- What a name has after more attributes are put over those that it has, if any. -/
def overlaid (found : Option Attributes) (tops : List Attributes) : Option Attributes :=
  if tops = [] then found else some (tops.foldl Attributes.override (found.getD .empty))

theorem overlaid_nil (found : Option Attributes) : overlaid found [] = found := if_pos rfl

theorem overlaid_append (found : Option Attributes) (tops rest : List Attributes) :
    overlaid found (tops ++ rest) = overlaid (overlaid found tops) rest := by
  unfold overlaid
  by_cases htops : tops = [] <;> by_cases hrest : rest = [] <;> simp [htops, hrest]

/-- A name that attributes are put over has them on top. -/
theorem find?_overlay (top : Attributes) (table : Table String Attributes) (name other : String) :
    (overlay top table name).find? other =
      overlaid (table.find? other) (if name = other then [top] else []) := by
  -- Nothing under the name is as good as no attributes there.
  have hoverlay : overlay top table name =
      table.insert name (((table.find? name).getD .empty).override top) := by
    unfold overlay
    split
    · next base hbase => rw [hbase, Option.getD_some]
    · next hnone => rw [hnone, Option.getD_none, Attributes.empty_override]
  rw [hoverlay, Table.find?_insert]
  by_cases heq : name = other
  · rw [if_pos heq, if_pos heq, heq]
    rfl
  · rw [if_neg heq, if_neg heq, overlaid_nil]

/-- It does not matter how often an entry names a name, only whether it does. -/
theorem find?_foldl_overlay (top : Attributes) (names : List String)
    (table : Table String Attributes)
    (name : String) : (names.foldl (overlay top) table).find? name =
      overlaid (table.find? name) (if name ∈ names then [top] else []) := by
  induction names generalizing table with
  | nil => exact (overlaid_nil _).symm
  | cons first names ih =>
    rw [List.foldl_cons, ih, find?_overlay]
    by_cases hfirst : first = name
    · by_cases hmem : name ∈ names
      · -- The name comes twice, and the attributes are put over themselves.
        simp [overlaid, hfirst, hmem, Attributes.override_assoc, Attributes.override_self]
      · simp [hfirst, hmem, overlaid_nil]
    · simp [hfirst, Ne.symm hfirst, overlaid_nil]

/-- An entry puts its attributes over the names that it is for. -/
theorem find?_addEntry (table : Table String Attributes) (entry : Entry) (name : String) :
    (addEntry table entry).find? name =
      overlaid (table.find? name) (attributesOf name [entry]) := by
  rw [addEntry, find?_foldl_overlay]
  by_cases hfor : entry.IsFor name <;> simp [attributesOf, Entry.mem_names_iff, hfor]

/-- Entries put their attributes over a name one after the other. -/
theorem find?_foldl_addEntry (entries : List Entry) (table : Table String Attributes)
    (name : String) :
    (entries.foldl addEntry table).find? name =
      overlaid (table.find? name) (attributesOf name entries) := by
  induction entries generalizing table with
  | nil => exact (overlaid_nil _).symm
  | cons entry entries ih =>
    rw [List.foldl_cons, ih, find?_addEntry, ← overlaid_append, ← attributesOf_append]
    rfl

/-- The table has under a name the merged attributes of the well-formed entries for it. -/
theorem find?_table (settings : List Json.Value) (name : String) :
    (table settings).find? name =
      if attributesOf name (wellFormed settings) = [] then none
      else some (.merge (attributesOf name (wellFormed settings))) :=
  find?_foldl_addEntry _ .empty name

/-- There are attributes for a name just when a well-formed entry is for it. -/
theorem attributesOf_ne_nil_iff {name : String} {settings : List Json.Value} :
    attributesOf name (wellFormed settings) ≠ [] ↔
      ∃ value ∈ settings, ∃ entry, Entry.ofValue? value = some entry ∧
        entry.IsFor name := by
  rw [attributesOf, ne_eq, List.map_eq_nil_iff, List.filter_eq_nil_iff, wellFormed]
  simp only [List.mem_filterMap, decide_eq_true_eq, not_forall, not_not]
  constructor
  · rintro ⟨entry, ⟨value, hvalue, hentry⟩, hfor⟩
    exact ⟨value, hvalue, entry, hentry, hfor⟩
  · rintro ⟨value, hvalue, entry, hentry, hfor⟩
    exact ⟨entry, ⟨value, hvalue, hentry⟩, hfor⟩

/-- A theme that is read has the table of the settings that its document lists. -/
theorem exists_settings_of_ofValue {v : Json.Value} {theme : Theme} (h : ofValue v = .ok theme) :
    ∃ fields settings, Fields.ofValue? v = some fields ∧ fields.settings = some settings ∧
      theme.entries = table settings := by
  unfold ofValue at h
  split at h
  · cases h
  · next fields hfields =>
    -- The document is read field by field, the settings last.
    obtain ⟨text, -, h⟩ := DocumentError.exists_of_bind_eq_ok h
    obtain ⟨uuid, -, h⟩ := DocumentError.exists_of_bind_eq_ok h
    obtain ⟨name, -, h⟩ := DocumentError.exists_of_bind_eq_ok h
    obtain ⟨settings, hsettings, h⟩ := DocumentError.exists_of_bind_eq_ok h
    obtain rfl := Except.ok.inj h
    exact ⟨fields, settings, hfields, DocumentError.require_eq_ok.1 hsettings, rfl⟩

/-- The attributes that a theme has for a name are the merge of those that its document gives
for it. There are some just when a well-formed entry of the settings is for the name. They are
then the attributes of all such entries put over each other in the order of the document, so
that each setting is what the last of them sets it to that sets it. Nothing else has an effect
on them: settings in which the well-formed entries for the name are the same, by their
attributes, give the same for it. To put attributes over each other is associative, and the
empty attributes are its identity. -/
theorem attributes_eq_merge {v : Json.Value} {theme : Theme} (h : ofValue v = .ok theme) :
    (∃ fields settings, Fields.ofValue? v = some fields ∧ fields.settings = some settings ∧
      ∀ name,
        ((theme.attributesFor? name).isSome = true ↔
          ∃ value ∈ settings, ∃ entry, Entry.ofValue? value = some entry ∧
            entry.IsFor name) ∧
        (∀ attributes, theme.attributesFor? name = some attributes →
          attributes = .merge (attributesOf name (wellFormed settings)) ∧
            ∀ setting, attributes.get? setting =
              (attributesOf name (wellFormed settings)).reverse.findSome? (·.get? setting)) ∧
        ∀ other, attributesOf name (wellFormed other) =
          attributesOf name (wellFormed settings) →
          (table other).find? name = theme.attributesFor? name) ∧
    (∀ a b c : Attributes, (a.override b).override c = a.override (b.override c)) ∧
    ∀ a : Attributes, Attributes.empty.override a = a ∧ a.override .empty = a := by
  obtain ⟨fields, settings, hfields, hsettings, hentries⟩ := exists_settings_of_ofValue h
  refine ⟨⟨fields, settings, hfields, hsettings, fun name => ?_⟩, Attributes.override_assoc,
    fun a => ⟨a.empty_override, a.override_empty⟩⟩
  have htable : theme.attributesFor? name = (table settings).find? name := by
    rw [attributesFor?, hentries]
  rw [htable]
  refine ⟨?_, fun attributes hattributes => ?_, fun other hsame => ?_⟩
  · -- Attributes are there when an entry is for the name.
    rw [← attributesOf_ne_nil_iff, find?_table]
    split
    · next hnone => simp [hnone]
    · next hsome => simpa using hsome
  · -- They are those of its entries, one put over the other.
    rw [find?_table] at hattributes
    split at hattributes
    · cases hattributes
    · obtain rfl := Option.some.inj hattributes
      exact ⟨rfl, Attributes.get?_merge _⟩
  · -- Only the entries for the name go into them.
    rw [find?_table, find?_table, hsame]

/-- Settings for a word: a selector that names it twice, one that is no text, none,
and one with blanks. -/
def patches : List Json.Value :=
  [.object [("scope", .string "word, mark,word"),
      ("settings", .object [("fontName", .string "Mono"), ("note", .string "first")])],
    .object [("scope", .bool true), ("settings", .object [("note", .string "lost")])],
    .object [("settings", .object [("note", .string "global")])],
    .object [("scope", .string "\tword "), ("settings", .object [("fontName", .string "Serif")])]]

/-- The document of a theme with these settings. -/
def patchwork : Json.Value :=
  .object [("uuid", .string "0a2a5b6c1d2e4f308a1b2c3d4e5f6071"), ("name", .string "Patchwork"),
    ("settings", .array patches)]

/-- For a word the theme has the font of the last entry that names it and the note of the first, and
for a part of the word nothing. -/
theorem attributes_eq_merge_patchwork : ∃ theme, ofValue patchwork = .ok theme ∧
    (∃ attributes, theme.attributesFor? "word" = some attributes ∧
      attributes.get? .fontName = some "Serif" ∧
      attributes.get? (.other "note") = some "first") ∧
    theme.attributesFor? "wor" = none := by
  have hread : (ofValue patchwork).toOption.isSome = true := by decide +kernel
  cases htheme : ofValue patchwork with
  | error e =>
    rw [htheme] at hread
    cases hread
  | ok theme =>
    obtain ⟨⟨fields, settings, hfields, hsettings, hname⟩, -⟩ := attributes_eq_merge htheme
    have hlist : (Fields.ofValue? patchwork).bind (·.settings) = some patches := rfl
    rw [hfields] at hlist
    obtain rfl : settings = patches := Option.some.inj (hsettings.symm.trans hlist)
    refine ⟨theme, rfl, ?_, ?_⟩
    · -- Two entries are for the word; the malformed one between them is left out.
      have hword : attributesOf "word" (wellFormed patches) ≠ [] := by decide +kernel
      obtain ⟨attributes, hattributes⟩ := Option.isSome_iff_exists.1
        ((hname "word").1.2 (attributesOf_ne_nil_iff.1 hword))
      obtain ⟨-, hget⟩ := (hname "word").2.1 attributes hattributes
      exact ⟨attributes, hattributes, (hget _).trans rfl, (hget _).trans rfl⟩
    · -- A part of the word is named by none.
      have hpart : attributesOf "wor" (wellFormed patches) = [] := by decide +kernel
      rw [← Option.not_isSome_iff_eq_none, (hname "wor").1, ← attributesOf_ne_nil_iff, hpart]
      simp

end Theme

end TextScopes
