import TextScopes.Proofs.Grammar.Closed
import TextScopes.Proofs.Json.Size

/-!
# What a value is read as

An entry is read to the depth of its value, which is deep enough: what its fields hold is nested
less deep than the value (`Entry.Fields.depth_lt`), and beyond its own depth a value is read as the
same entry (`Entry.read_eq_ofValue`). So a value is what its fields make of the values that they
hold (`Entry.ofValue_eq`), without a word about depths.

Two values may write all fields of an entry but one alike (`Entry.Rewrites`), as objects or as
arrays. What one of them gives for the fields is then what the other gives, with another list or
another repository (`Entry.Rewrites.ofValue?_patterns`, `Entry.Rewrites.ofValue?_repository`).
-/

namespace TextScopes

variable {E : Engine}

namespace Json

/-- An optional field is what stands under its key. -/
theorem optional_congr {α : Type} {pairs pairs' : List (String × Value)} {key : String}
    (read : Value → Option α) (h : getField? pairs' key = getField? pairs key) :
    optional pairs' key read = optional pairs key read := by
  rw [optional, optional, h]

namespace Value

/-! ### How deep values are nested -/

variable {shape : Shape} {v w : Value} {items : List Value} {fields : List (String × Value)}
    {key : String}

/-- Every value has a level of its own. -/
theorem depth_pos (v : Value) : 0 < v.depth := by
  cases v with
  | array items =>
    rw [depth]
    omega
  | object fields =>
    rw [depth]
    omega
  | null | bool | number | string => exact Nat.one_pos

/-- An item is nested less deep than the array. -/
theorem depth_lt_of_mem_items (h : w ∈ items) : w.depth < (array items).depth := by
  rw [depth]
  induction items with
  | nil => cases h
  | cons item rest ih =>
    rw [depth.ofItems]
    rcases List.mem_cons.1 h with rfl | h
    · omega
    · have hrest := ih h
      omega

/-- A value in a field is nested less deep than the object. -/
theorem depth_lt_of_mem_fields (h : (key, w) ∈ fields) : w.depth < (object fields).depth := by
  rw [depth]
  induction fields with
  | nil => cases h
  | cons field rest ih =>
    rw [depth.ofFields]
    rcases List.mem_cons.1 h with rfl | h
    · dsimp only
      omega
    · have hrest := ih h
      omega

/-- A field of a record is nested less deep than what writes the record. -/
theorem depth_lt_of_fields? (h : shape.fields? v = some fields) (hmem : (key, w) ∈ fields) :
    w.depth < v.depth := by
  unfold Shape.fields? at h
  split at h
  -- An object's fields, or an array's items under the keys of their places.
  next =>
    obtain rfl := Option.some.inj h
    exact depth_lt_of_mem_fields hmem
  next items =>
    split at h
    next =>
      obtain rfl := Option.some.inj h
      exact depth_lt_of_mem_items (List.of_mem_zip hmem).2
    next => cases h
  next => cases h

end Value

end Json

namespace Entry

open Json (Value)

variable {v v' w : Value} {fields : Fields} {depth : Nat}

/-! ### The fields of an entry -/

/-- The fields that bear on what an entry holds are what stands under their keys. -/
theorem Fields.ofValue?_fields {pairs : List (String × Value)}
    (hpairs : shape.fields? v = some pairs) (h : Fields.ofValue? v = some fields) :
    Json.optional pairs "patterns" Value.asArray? = some fields.patterns ∧
    Json.optional pairs "include" Value.asString? = some fields.link ∧
    Json.optional pairs "repository" Value.asObject? = some fields.repository := by
  simp only [Fields.ofValue?, hpairs, Option.bind_eq_bind, Option.bind_some,
    Option.bind_eq_some_iff, Option.pure_def, Option.some.injEq] at h
  obtain ⟨name, -, matching, -, opening, -, closing, -, captures, -, openingCaptures, -,
    closingCaptures, -, closingLast, -, patterns, hpatterns, link, hlink, repository, hrepository,
    rfl⟩ := h
  exact ⟨hpatterns, hlink, hrepository⟩

/-- The fields of an entry are those of a record. -/
theorem Fields.exists_pairs (h : Fields.ofValue? v = some fields) :
    ∃ pairs, shape.fields? v = some pairs := by
  cases hpairs : shape.fields? v with
  | none => simp [Fields.ofValue?, hpairs] at h
  | some pairs => exact ⟨pairs, rfl⟩

/-- What the fields of an entry hold stands in its list or in its repository. -/
theorem Fields.exists_of_mem_values {pairs : List (String × Value)}
    (hpairs : shape.fields? v = some pairs)
    (h : Fields.ofValue? v = some fields) (hw : w ∈ fields.values) :
    (∃ items, Json.getField? pairs "patterns" = some (.array items) ∧ w ∈ items) ∨
      ∃ entries key, Json.getField? pairs "repository" = some (.object entries) ∧
        (key, w) ∈ entries := by
  obtain ⟨hitems, -, hentries⟩ := Fields.ofValue?_fields hpairs h
  -- An entry comes from the repository or from the patterns, if these are given.
  rcases List.mem_append.1 hw with hnamed | hmem
  · obtain ⟨⟨key, w⟩, hmem, rfl⟩ := List.mem_map.1 hnamed
    cases hgiven : fields.repository with
    | none =>
      rw [hgiven] at hmem
      cases hmem
    | some entries =>
      rw [hgiven] at hmem hentries
      obtain ⟨u, hu, hentries⟩ := Json.exists_of_optional hentries
      obtain rfl := Value.asObject?_eq_some hentries
      exact .inr ⟨entries, key, hu, hmem⟩
  · have hinner : w ∈ fields.patterns.getD [] := by
      unfold Fields.inner at hmem
      split at hmem
      · cases hmem
      · exact hmem
    cases hgiven : fields.patterns with
    | none =>
      rw [hgiven] at hinner
      cases hinner
    | some items =>
      rw [hgiven] at hinner hitems
      obtain ⟨u, hu, hitems⟩ := Json.exists_of_optional hitems
      obtain rfl := Value.asArray?_eq_some hitems
      exact .inl ⟨items, hu, hinner⟩

/-- What the fields of an entry hold is nested less deep than the entry. -/
theorem Fields.depth_lt (h : Fields.ofValue? v = some fields) (hw : w ∈ fields.values) :
    w.depth < v.depth := by
  obtain ⟨pairs, hpairs⟩ := Fields.exists_pairs h
  have hfield : ∀ {key : String} {u : Value}, Json.getField? pairs key = some u →
      u.depth < v.depth :=
    fun hu => Value.depth_lt_of_fields? hpairs (Json.mem_of_getField? hu)
  rcases Fields.exists_of_mem_values hpairs h hw with
    ⟨items, hitems, hmem⟩ | ⟨entries, key, hentries, hmem⟩
  · exact Nat.lt_trans (Value.depth_lt_of_mem_items hmem) (hfield hitems)
  · exact Nat.lt_trans (Value.depth_lt_of_mem_fields hmem) (hfield hentries)

/-! ### Reading without depths -/

/-- Functions that agree on what the fields hold make the same of it. -/
theorem Fields.map_congr {f g : Value → Entry E} (h : ∀ w ∈ fields.values, f w = g w) :
    fields.inner.map f = fields.inner.map g ∧
      (fields.repository.getD []).map (fun (key, w) => (key, f w)) =
        (fields.repository.getD []).map fun (key, w) => (key, g w) :=
  ⟨List.map_congr_left fun w hw => h w (List.mem_append_right _ hw),
    List.map_congr_left fun (key, w) hmem =>
      congrArg (key, ·) (h w (List.mem_append_left _ (List.mem_map_of_mem hmem)))⟩

/-- To any two depths that are not below its own, a value is read as the same entry. -/
theorem read_congr {depth' : Nat} (h : v.depth ≤ depth) (h' : v.depth ≤ depth') :
    read E depth v = read E depth' v := by
  have hpos := v.depth_pos
  -- Both depths are enough, and stay so one level further down.
  induction depth generalizing depth' v with
  | zero => omega
  | succ depth ih =>
    obtain ⟨depth', rfl⟩ := Nat.exists_eq_succ_of_ne_zero (show depth' ≠ 0 by omega)
    rw [read, read]
    cases hfields : Fields.ofValue? v with
    | none => rfl
    | some fields =>
      obtain ⟨hinner, hnamed⟩ :=
        Fields.map_congr (f := read E depth) (g := read E depth') fun w hw => by
          have hlt := Fields.depth_lt hfields hw
          exact ih (by omega) (by omega) w.depth_pos
      dsimp only
      rw [hinner, hnamed]

/-- To a depth that is not below its own, a value is read as the entry that it writes. -/
theorem read_eq_ofValue (h : v.depth ≤ depth) : read E depth v = ofValue E v :=
  read_congr h (Nat.le_refl _)

/-- The entries of a row of values. -/
def row (E : Engine) (values : List (String × Value)) : List (String × Entry E) :=
  values.map fun (key, v) => (key, ofValue E v)

/-- The entry that fields make. -/
def ofFields (E : Engine) (fields : Fields) : Entry E :=
  match fields.link with
  | some text => .link (Reference.ofText text)
  | none => .rule fields.name (fields.kind? E) (fields.inner.map (ofValue E))
    (row E (fields.repository.getD []))

/-- A value writes the entry that its fields make, and without fields a malformed one. -/
theorem ofValue_eq (v : Value) :
    ofValue E v = ((Fields.ofValue? v).map (ofFields E)).getD malformed := by
  obtain ⟨depth, hdepth⟩ := Nat.exists_eq_succ_of_ne_zero (Nat.ne_zero_of_lt v.depth_pos)
  rw [ofValue, hdepth, read]
  cases hfields : Fields.ofValue? v with
  | none => rfl
  | some fields =>
    obtain ⟨hinner, hnamed⟩ :=
      Fields.map_congr (f := read E depth) (g := ofValue E) fun w hw => by
        have hlt := Fields.depth_lt hfields hw
        exact read_eq_ofValue (by omega)
    dsimp only
    rw [hinner, hnamed]
    rfl

/-! ### Values that differ in one field -/

/-- Two values write the fields of an entry alike, but for what stands under one key. -/
def Rewrites (key : String) (old new v v' : Value) : Prop :=
  ∃ pairs pairs', shape.fields? v = some pairs ∧ shape.fields? v' = some pairs' ∧
    Json.getField? pairs key = some old ∧ Json.getField? pairs' key = some new ∧
    ∀ other, other ≠ key → Json.getField? pairs' other = Json.getField? pairs other

/-- What stands under a key of an object may be replaced. -/
theorem rewrites_setField {pairs : List (String × Value)} {key : String} {old : Value}
    (new : Value) (h : Json.getField? pairs key = some old) :
    Rewrites key old new (.object pairs) (.object (Json.setField pairs key new)) :=
  ⟨pairs, _, rfl, rfl, h, Json.getField?_setField_self pairs key new,
    fun _ hne => Json.getField?_setField_of_ne pairs new hne.symm⟩

/-- Steps that agree up to a change of the result agree so behind a common first step. -/
theorem bind_eq_map_bind {α β γ : Type} {x : Option α} {f : α → Option γ}
    {g : α → Option β} {change : β → γ}
    (h : ∀ a, f a = (g a).map change) : x.bind f = (x.bind g).map change := by
  cases x with
  | none => rfl
  | some a => exact h a

/-- Fields of two records are alike, but for a change of the list and of the repository,
when the records are. -/
theorem Fields.ofValue?_map {pairs pairs' : List (String × Value)}
    {onItems : Option (List Value) → Option (List Value)}
    {onEntries : Option (List (String × Value)) → Option (List (String × Value))}
    (hpairs : shape.fields? v = some pairs) (hpairs' : shape.fields? v' = some pairs')
    (hitems : Json.optional pairs' "patterns" Value.asArray? =
      (Json.optional pairs "patterns" Value.asArray?).map onItems)
    (hentries : Json.optional pairs' "repository" Value.asObject? =
      (Json.optional pairs "repository" Value.asObject?).map onEntries)
    (hother : ∀ key, key ≠ "patterns" ∧ key ≠ "repository" →
      Json.getField? pairs' key = Json.getField? pairs key) :
    Fields.ofValue? v' = (Fields.ofValue? v).map fun fields =>
      { fields with
        patterns := onItems fields.patterns, repository := onEntries fields.repository } := by
  have hsame : ∀ {α : Type} (read : Value → Option α) (key : String),
      key ≠ "patterns" ∧ key ≠ "repository" →
      Json.optional pairs' key read = Json.optional pairs key read :=
    fun read key hkey => Json.optional_congr read (hother key hkey)
  unfold Fields.ofValue?
  rw [hpairs, hpairs']
  dsimp only [Option.bind_eq_bind, Option.bind_some]
  rw [hsame _ "name" (by decide), hsame _ "match" (by decide), hsame _ "begin" (by decide),
    hsame _ "end" (by decide), hsame _ "captures" (by decide), hsame _ "beginCaptures" (by decide),
    hsame _ "endCaptures" (by decide), hsame _ "applyEndPatternLast" (by decide),
    hsame _ "include" (by decide), hitems, hentries]
  -- Eight fields come before the list, and the include between it and the repository.
  iterate 8 refine bind_eq_map_bind fun _ => ?_
  rw [Option.bind_map]
  iterate 2 refine bind_eq_map_bind fun _ => ?_
  rw [Option.bind_map]
  exact bind_eq_map_bind fun _ => rfl

namespace Rewrites

/-- With another list under `patterns` the fields are the same, but for that list. -/
theorem ofValue?_patterns {items items' : List Value}
    (h : Rewrites "patterns" (.array items) (.array items') v v') :
    Fields.ofValue? v' = (Fields.ofValue? v).map ({ · with patterns := some items' }) ∧
      ∀ fields, Fields.ofValue? v = some fields → fields.patterns = some items := by
  obtain ⟨pairs, pairs', hpairs, hpairs', hold, hnew, hother⟩ := h
  have hitems : Json.optional pairs "patterns" Value.asArray? = some (some items) := by
    rw [Json.optional, hold]
    rfl
  have hitems' : Json.optional pairs' "patterns" Value.asArray? = some (some items') := by
    rw [Json.optional, hnew]
    rfl
  -- Only the list is another, and it is read in the one place.
  refine ⟨@Fields.ofValue?_map _ _ _ _ (fun _ => some items') id hpairs hpairs' ?_ ?_
    fun key hkey => hother key hkey.1, fun fields hfields => ?_⟩
  · rw [hitems, hitems', Option.map_some]
  · rw [Option.map_id_fun, id, Json.optional_congr _ (hother "repository" (by decide))]
  · obtain ⟨hgiven, -⟩ := Fields.ofValue?_fields hpairs hfields
    exact Option.some.inj (hgiven.symm.trans hitems)

/-- With another object under `repository` the fields are the same, but for that object. -/
theorem ofValue?_repository {entries entries' : List (String × Value)}
    (h : Rewrites "repository" (.object entries) (.object entries') v v') :
    Fields.ofValue? v' = (Fields.ofValue? v).map ({ · with repository := some entries' }) ∧
      ∀ fields, Fields.ofValue? v = some fields → fields.repository = some entries := by
  obtain ⟨pairs, pairs', hpairs, hpairs', hold, hnew, hother⟩ := h
  have hentries : Json.optional pairs "repository" Value.asObject? = some (some entries) := by
    rw [Json.optional, hold]
    rfl
  have hentries' : Json.optional pairs' "repository" Value.asObject? = some (some entries') := by
    rw [Json.optional, hnew]
    rfl
  -- Only the object is another, and it is read in the one place.
  refine ⟨@Fields.ofValue?_map _ _ _ _ id (fun _ => some entries') hpairs hpairs' ?_ ?_
    fun key hkey => hother key hkey.2, fun fields hfields => ?_⟩
  · rw [Option.map_id_fun, id, Json.optional_congr _ (hother "patterns" (by decide))]
  · rw [hentries, hentries', Option.map_some]
  · obtain ⟨-, -, hgiven⟩ := Fields.ofValue?_fields hpairs hfields
    exact Option.some.inj (hgiven.symm.trans hentries)

end Rewrites

end Entry

end TextScopes
