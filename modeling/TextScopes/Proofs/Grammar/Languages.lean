import TextScopes.Proofs.DocumentError
import TextScopes.Proofs.Grammar.Reading

/-!
# The languages that a definition refers to

The languages that a definition refers to are collected from its values as they are written, at
every depth and before any of them is read as an entry. Where entries are written as objects
(`Entry.IsWritten`), no include escapes: each declared include is the text of an object inside the
definition, and its language is collected (`Definition.mem_languages_of_declares`). Includes name no
more languages than the text of the document has characters
(`Definition.length_named_le_of_ofText`).
-/

namespace TextScopes

variable {E : Engine}

namespace Definition

open Json (Value)

/-! ## Includes in values -/

/-- The includes in the items of an array, one item after the other. -/
theorem includes_ofItems (items : List Value) :
    includes.ofItems items = items.flatMap includes := by
  induction items with
  | nil => rfl
  | cons item rest ih => rw [includes.ofItems, List.flatMap_cons, ih]

/-- The includes in the fields of an object, one field after the other. -/
theorem includes_ofFields (fields : List (String × Value)) :
    includes.ofFields fields = (fields.map (·.2)).flatMap includes := by
  induction fields with
  | nil => rfl
  | cons field rest ih => rw [includes.ofFields, List.map_cons, List.flatMap_cons, ih]

/-- The text under the key of an include is one in the object. -/
theorem mem_includes_of_getField? {fields : List (String × Value)} {text : String}
    (h : Json.getField? fields "include" = some (.string text)) :
    text ∈ includes (.object fields) := by
  refine List.mem_append_left _ ?_
  rw [h]
  exact List.mem_singleton_self text

/-- What is included in a field is included in the object. -/
theorem includes_subset_of_mem_fields {fields : List (String × Value)} {key : String} {v : Value}
    (h : (key, v) ∈ fields) : includes v ⊆ includes (.object fields) := by
  intro text htext
  refine List.mem_append_right _ ?_
  rw [includes_ofFields, List.mem_flatMap]
  exact ⟨v, List.mem_map_of_mem h, htext⟩

/-- What is included in an item is included in the array. -/
theorem includes_subset_of_mem_items {items : List Value} {v : Value} (h : v ∈ items) :
    includes v ⊆ includes (.array items) := by
  intro text htext
  rw [includes, includes_ofItems, List.mem_flatMap]
  exact ⟨v, h, htext⟩

mutual

/-- There are no more includes in a value than values. -/
theorem length_includes_le : (v : Value) → (includes v).length ≤ v.count
  | .null | .bool _ | .number _ | .string _ => Nat.zero_le _
  | .array items => by
    have hitems := length_includes_ofItems_le items
    rw [includes, Value.count]
    omega
  | .object fields => by
    have hfields := length_includes_ofFields_le fields
    -- An object adds at most its own reference, and it counts for one itself.
    have hown : ((Json.getField? fields "include").bind Value.asString?).toList.length ≤ 1 := by
      cases (Json.getField? fields "include").bind Value.asString? <;> simp
    rw [includes, Value.count, List.length_append]
    omega

/-- There are no more includes in the items of an array than values. -/
theorem length_includes_ofItems_le : (items : List Value) →
    (includes.ofItems items).length ≤ Value.count.ofItems items
  | [] => Nat.zero_le _
  | v :: rest => by
    have hv := length_includes_le v
    have hrest := length_includes_ofItems_le rest
    rw [includes.ofItems, Value.count.ofItems, List.length_append]
    omega

/-- There are no more includes in the fields of an object than values. -/
theorem length_includes_ofFields_le : (fields : List (String × Value)) →
    (includes.ofFields fields).length ≤ Value.count.ofFields fields
  | [] => Nat.zero_le _
  | (_, v) :: rest => by
    have hv := length_includes_le v
    have hrest := length_includes_ofFields_le rest
    rw [includes.ofFields, Value.count.ofFields, List.length_append]
    omega

end

end Definition

namespace Entry

open Json (Value)

/-! ## Entries that are written as objects -/

/-- A value writes an entry as an object, and so the entries inside it. -/
inductive IsWritten : Value → Prop
  | object {fields : List (String × Value)}
      (patterns : ∀ items, Json.getField? fields "patterns" = some (.array items) →
        ∀ item ∈ items, IsWritten item)
      (repository : ∀ entries, Json.getField? fields "repository" = some (.object entries) →
        ∀ entry ∈ entries, IsWritten entry.2) :
      IsWritten (.object fields)

/-- Whether a value writes an entry as an object, and so the entries inside it, to the depth
given. -/
def writes : Nat → Value → Bool
  | depth + 1, .object fields =>
    (match Json.getField? fields "patterns" with
      | some (.array items) => items.all (writes depth)
      | _ => true) &&
    (match Json.getField? fields "repository" with
      | some (.object entries) => entries.all fun entry => writes depth entry.2
      | _ => true)
  | _, _ => false

/-- What is found to be written as an object is so. -/
theorem isWritten_of_writes {depth : Nat} {v : Value} (h : writes depth v = true) :
    IsWritten v := by
  induction depth generalizing v with
  | zero => cases h
  | succ depth ih =>
    cases v with
    | object fields =>
      rw [writes, Bool.and_eq_true] at h
      obtain ⟨hpatterns, hrepository⟩ := h
      -- What stands below is written to one level less.
      refine .object (fun items hitems item hitem => ih ?_) fun entries hentries entry hentry =>
        ih ?_
      · rw [hitems] at hpatterns
        exact List.all_eq_true.1 hpatterns item hitem
      · rw [hentries] at hrepository
        exact List.all_eq_true.1 hrepository entry hentry
    | null | bool _ | number _ | string _ | array _ => cases h

/-- The entries inside one that is written as an object are written so too, in an item or a field of
it. -/
theorem IsWritten.inside {v w : Value} {fields : Fields} (h : IsWritten v)
    (hfields : Fields.ofValue? v = some fields) (hw : w ∈ fields.values) :
    IsWritten w ∧ Definition.includes w ⊆ Definition.includes v := by
  obtain ⟨hpatterns, hrepository⟩ := h
  rcases Fields.exists_of_mem_values rfl hfields hw with
    ⟨items, hitems, hmem⟩ | ⟨entries, key, hentries, hmem⟩
  · exact ⟨hpatterns items hitems w hmem,
      List.Subset.trans (Definition.includes_subset_of_mem_items hmem)
      (Definition.includes_subset_of_mem_fields (Json.mem_of_getField? hitems))⟩
  · exact ⟨hrepository entries hentries (key, w) hmem,
      List.Subset.trans (Definition.includes_subset_of_mem_fields hmem)
        (Definition.includes_subset_of_mem_fields (Json.mem_of_getField? hentries))⟩

/-- An include that is written as an object is a text in it. -/
theorem IsWritten.link {depth : Nat} {v : Value} {reference : Reference} (h : IsWritten v)
    (hread : read E depth v = .link reference) :
    ∃ text ∈ Definition.includes v, Reference.ofText text = reference := by
  cases depth with
  | zero => cases hread
  | succ depth =>
    rw [read] at hread
    split at hread
    -- Without fields nothing is read.
    next => cases hread
    next fields hfields =>
      split at hread
      -- The reference comes from the field `include`, which is listed.
      next text hlink =>
        obtain ⟨-, -⟩ := h
        obtain ⟨-, hoptional, -⟩ := Fields.ofValue?_fields rfl hfields
        rw [hlink] at hoptional
        obtain ⟨v, hfield, hv⟩ := Json.exists_of_optional hoptional
        obtain rfl := Value.asString?_eq_some hv
        exact ⟨text, Definition.mem_includes_of_getField? hfield, Entry.link.inj hread⟩
      -- Without that field a link is not what is read.
      next => cases hread

end Entry

namespace Definition

open Json (Value)

variable {definition : Definition} {site : Site E} {reference : Reference} {name : String}

/-- The values of the entries of a definition. -/
def values (definition : Definition) : List Value :=
  definition.repository.map (·.2) ++ definition.patterns

/-- A definition writes its entries, at every depth, as objects. -/
def IsWritten (definition : Definition) : Prop := ∀ v ∈ definition.values, Entry.IsWritten v

/-- The languages that includes in the values name, one for each include. -/
def named (definition : Definition) : List String :=
  (definition.values.flatMap includes).filterMap fun text => (Reference.ofText text).language?

/-- The languages that are referred to are the others that includes name. -/
theorem mem_languages :
    name ∈ definition.languages ↔ name ≠ definition.scopeName ∧
    name ∈ definition.named := by
  simp only [languages, named, values, List.mem_eraseDups, List.mem_filter, List.mem_filterMap,
    List.mem_flatMap, List.mem_append, ne_eq, decide_eq_true_eq]
  rw [and_comm]
  refine and_congr_right fun _ => exists_congr fun text => and_congr_left fun _ => ?_
  simp only [or_comm]

/-- A definition that writes its entries as objects refers to every other language that an include
in it names, wherever that is declared. -/
theorem mem_languages_of_declares (h : definition.IsWritten) (hdeclares : definition.Declares site)
    (hentry : site.entry = .link reference) (hname : reference.language? = some name) :
    name = definition.scopeName ∨ name ∈ definition.languages := by
  -- What holds of the entries of a definition is handed down to those inside them.
  have hinside : ∀ v fields, Entry.Fields.ofValue? v = some fields →
      (Entry.IsWritten v ∧ includes v ⊆ definition.values.flatMap includes) →
      ∀ w ∈ fields.values, Entry.IsWritten w ∧
        includes w ⊆ definition.values.flatMap includes := by
    rintro v fields hfields ⟨hwritten, hsubset⟩ w hw
    obtain ⟨hw, hincludes⟩ := hwritten.inside hfields hw
    exact ⟨hw, List.Subset.trans hincludes hsubset⟩
  obtain ⟨depth, v, hread, hwritten, hsubset⟩ := Site.exists_read_of
    (fun v hv => ⟨h v hv, fun text htext => List.mem_flatMap.2 ⟨v, hv, htext⟩⟩)
      hinside hdeclares
  obtain ⟨text, htext, rfl⟩ := hwritten.link (hread.symm.trans hentry)
  -- The language itself is the only one that is left out of the list.
  by_cases hown : name = definition.scopeName
  · exact .inl hown
  · exact .inr (mem_languages.2 ⟨hown, List.mem_filterMap.2 ⟨text, hsubset htext, hname⟩⟩)

/-- Includes name no more languages than there are values in the entries. -/
theorem length_named_le (definition : Definition) :
    definition.named.length ≤ Value.count.ofItems definition.values := by
  calc definition.named.length
      ≤ (definition.values.flatMap includes).length := List.length_filterMap_le _ _
    _ = (includes.ofItems definition.values).length := by rw [includes_ofItems]
    _ ≤ Value.count.ofItems definition.values := length_includes_ofItems_le _

/-- A definition that is read has the patterns and the repository of the fields. -/
theorem patterns_eq_of_ofValue {v : Value} (h : ofValue v = .ok definition) :
    ∃ fields, Fields.ofValue? v = some fields ∧ fields.patterns = some definition.patterns ∧
      fields.repository = definition.repository := by
  unfold ofValue at h
  split at h
  next => cases h
  next fields hfields =>
    -- Each required field is there, or reading would have failed.
    obtain ⟨text, -, h⟩ := DocumentError.exists_of_bind_eq_ok h
    obtain ⟨uuid, -, h⟩ := DocumentError.exists_of_bind_eq_ok h
    obtain ⟨name, -, h⟩ := DocumentError.exists_of_bind_eq_ok h
    obtain ⟨scopeName, -, h⟩ := DocumentError.exists_of_bind_eq_ok h
    obtain ⟨patterns, hpatterns, h⟩ := DocumentError.exists_of_bind_eq_ok h
    obtain rfl := Except.ok.inj h
    exact ⟨fields, hfields, DocumentError.require_eq_ok.1 hpatterns, rfl⟩

/-- The values of a definition are among those of the value that it is read from. -/
theorem count_values_le_of_ofValue {v : Value} (h : ofValue v = .ok definition) :
    Value.count.ofItems definition.values ≤ v.count := by
  obtain ⟨fields, hfields, hpatterns, hrepository⟩ := patterns_eq_of_ofValue h
  simp only [Fields.ofValue?, Option.bind_eq_bind, Option.bind_eq_some_iff, Option.pure_def,
    Option.some.injEq] at hfields
  obtain ⟨pairs, hpairs, uuid, -, name, -, scopeName, -, fileTypes, -, patterns, hgiven,
    repository, hentries, rfl⟩ := hfields
  obtain rfl : patterns = some definition.patterns := hpatterns
  obtain rfl : repository = definition.repository := hrepository
  -- The two fields are different ones of the object, so their sizes add up.
  have hfields := Value.count.getField?_add_le (show "repository" ≠ "patterns" by decide) pairs
  have hitems : Value.count.ofItems definition.patterns ≤
      (Json.getField? pairs "patterns").elim 0 Value.count := by
    obtain ⟨v, hfield, hv⟩ := Json.exists_of_optional hgiven
    rw [hfield, Value.asArray?_eq_some hv]
    exact Nat.le_add_left _ _
  have hnamed : Value.count.ofFields definition.repository ≤
      (Json.getField? pairs "repository").elim 0 Value.count := by
    unfold Json.withDefault at hentries
    split at hentries
    -- A repository that is not given has no entries.
    next =>
      rw [← Option.some.inj hentries]
      exact Nat.zero_le _
    next v hfield =>
      rw [hfield, Value.asObject?_eq_some hentries]
      exact Nat.le_add_left _ _
  calc Value.count.ofItems definition.values
      = Value.count.ofFields definition.repository + Value.count.ofItems definition.patterns := by
        rw [values, Value.count.ofItems_append, Value.count.ofFields_eq]
    _ ≤ Value.count.ofFields pairs := by omega
    _ ≤ v.count := Value.count.fields?_le hpairs

/-- Includes name no more languages than the text of the definition has characters. -/
theorem length_named_le_of_ofText {text : String} (h : ofText text = .ok definition) :
    definition.named.length ≤ text.length := by
  unfold ofText at h
  split at h
  next v hread =>
    calc definition.named.length
        ≤ Value.count.ofItems definition.values := definition.length_named_le
      _ ≤ v.count := count_values_le_of_ofValue h
      _ ≤ text.length := Json.count_le_of_read? hread
  next => cases h

end Definition

end TextScopes
