import TextScopes.Table

/-!
# Looking up in tables

What a table has under a key after a filter or an override, and where what a table of a list has
comes from. A table is known from what it has under every key (`Table.ext_find?`).
-/

namespace TextScopes.Table

/-- Of a list in which no two have one key, each is found by its key. -/
theorem find?_key_of_mem {α β : Type} [DecidableEq β] {key : α → β} {xs : List α} {a : α}
    (hkeys : (xs.map key).Nodup) (h : a ∈ xs) : xs.find? (key · = key a) = some a := by
  induction xs with
  | nil => cases h
  | cons first rest ih =>
    obtain ⟨hfirst, hrest⟩ := List.nodup_cons.1 hkeys
    rcases List.mem_cons.1 h with rfl | h
    · exact List.find?_cons_of_pos (by simp)
    · have hne : key first ≠ key a := fun heq => hfirst (List.mem_map.2 ⟨a, h, heq.symm⟩)
      rw [List.find?_cons_of_neg (by simpa using hne)]
      exact ih hrest h

variable {κ ν : Type} [LT κ] [DecidableEq κ]

/-- After a filter the keys that satisfy it have what they had, and the others nothing. -/
theorem find?_filter (table : Table κ ν) (keeps : κ → Bool) (key : κ) :
    (table.filter keeps).find? key = if keeps key = true then table.find? key else none := by
  unfold find? filter
  rw [List.find?_filter]
  split
  · next hkeep =>
    have hsame : (fun entry : κ × ν =>
        decide (keeps entry.1 = true ∧ decide (entry.1 = key) = true)) =
        fun entry => decide (entry.1 = key) := by
      funext entry
      by_cases he : entry.1 = key <;> simp [he, hkeep]
    rw [hsame]
  · -- No entry that is kept has the key.
    next hdrop =>
    rw [Option.map_eq_none_iff, List.find?_eq_none]
    intro entry _
    by_cases he : entry.1 = key <;> simp [he, hdrop]

/-- The keys of a table are those under which something is found. -/
theorem mem_keys {table : Table κ ν} {key : κ} :
    key ∈ table.entries.map (·.1) ↔ (table.find? key).isSome = true := by
  rw [find?, Option.isSome_map, List.find?_isSome, List.mem_map]
  simp only [decide_eq_true_eq]

variable [LE κ] [Std.LawfulOrderLT κ]

/-- Every entry of a table is found under its key. -/
theorem find?_of_mem {table : Table κ ν} {key : κ} {value : ν}
    (h : (key, value) ∈ table.entries) :
    table.find? key = some value := by
  obtain ⟨entries, hsorted⟩ := table
  unfold find?
  dsimp only at h ⊢
  induction entries with
  | nil => cases h
  | cons entry rest ih =>
    obtain ⟨hfirst, hrest⟩ := List.pairwise_cons.1 hsorted
    rcases List.mem_cons.1 h with rfl | h
    · simp
    · -- The keys ascend, so that the first is not the key of a later entry.
      have hne : entry.1 ≠ key := by
        rintro heq
        have hlt := hfirst _ h
        rw [heq] at hlt
        exact Std.lt_irrefl hlt
      rw [List.find?_cons_of_neg (by simpa using hne)]
      exact ih hrest h

/-- An entry of a table is what is found under its key. -/
theorem mem_entries_iff {table : Table κ ν} {key : κ} {value : ν} :
    (key, value) ∈ table.entries ↔ table.find? key = some value := by
  refine ⟨find?_of_mem, fun h => ?_⟩
  obtain ⟨entry, hentry, rfl⟩ := Option.map_eq_some_iff.1 h
  have hkey : entry.1 = key := by simpa using List.find?_some hentry
  rw [← hkey]
  exact List.mem_of_find?_eq_some hentry

variable [Std.IsLinearOrder κ]

/-- Tables that have the same under every key are the same. -/
theorem ext_find? {a b : Table κ ν} (h : ∀ key, a.find? key = b.find? key) : a = b := by
  have hnodup : ∀ table : Table κ ν, table.entries.Nodup := fun table =>
    table.ascending.imp fun {x y} hlt (heq : x = y) => Std.lt_irrefl (heq ▸ hlt)
  have hperm : a.entries.Perm b.entries :=
    (List.perm_ext_iff_of_nodup (hnodup a) (hnodup b)).2 fun entry => by
      rw [mem_entries_iff, mem_entries_iff, h]
  refine (eq_iff_entries a b).2
    (hperm.eq_of_pairwise (fun x y _ _ hxy hyx => ?_) a.ascending b.ascending)
  exact absurd (Std.lt_trans hxy hyx) Std.lt_irrefl

variable [DecidableLT κ]

/-- A table of a list has nothing that is not in the list. -/
theorem mem_of_find?_ofList {entries : List (κ × ν)} {key : κ} {value : ν}
    (h : (ofList entries).find? key = some value) : (key, value) ∈ entries := by
  -- What is found at the end was put in on the way or found in the table of the start.
  have hfold : ∀ (entries : List (κ × ν)) (table : Table κ ν),
      (entries.foldl (fun table entry => table.insert entry.1 entry.2) table).find? key =
        some value →
      (key, value) ∈ entries ∨ table.find? key = some value := by
    intro entries
    induction entries with
    | nil => exact fun table h => .inr h
    | cons entry entries ih =>
      intro table h
      rcases ih _ h with hmem | hfind
      · exact .inl (List.mem_cons_of_mem _ hmem)
      · rw [find?_insert] at hfind
        split at hfind
        · next heq =>
          obtain rfl := Option.some.inj hfind
          rw [← heq]
          exact .inl List.mem_cons_self
        · exact .inr hfind
  rcases hfold entries empty h with hmem | hfind
  · exact hmem
  · cases hfind

/-- A table of a list has something under the keys of the list. -/
theorem isSome_find?_ofList {entries : List (κ × ν)} {key : κ} :
    ((ofList entries).find? key).isSome = true ↔ key ∈ entries.map (·.1) := by
  constructor
  · intro h
    obtain ⟨value, hvalue⟩ := Option.isSome_iff_exists.1 h
    exact List.mem_map_of_mem (mem_of_find?_ofList hvalue)
  · -- What is found under a key stays found, and each entry of the list puts something there.
    have hfold : ∀ (entries : List (κ × ν)) (table : Table κ ν),
        key ∈ entries.map (·.1) ∨ (table.find? key).isSome = true →
        ((entries.foldl (fun table entry => table.insert entry.1 entry.2) table).find? key).isSome =
          true := by
      intro entries
      induction entries with
      | nil => exact fun table h => h.resolve_left (by simp)
      | cons entry entries ih =>
        intro table h
        refine ih _ ?_
        rw [find?_insert]
        rcases h with hmem | hfind
        · rcases List.mem_cons.1 hmem with rfl | hmem
          · exact .inr (by simp)
          · exact .inl hmem
        · right
          split
          · rfl
          · exact hfind
    exact fun h => hfold entries empty (.inl h)

/-- Under every key an overridden table has what the top one has there, else what it had. -/
theorem find?_override (base top : Table κ ν) (key : κ) :
    (base.override top).find? key = (top.find? key).or (base.find? key) := by
  obtain ⟨entries, hsorted⟩ := top
  simp only [override, find?]
  induction entries generalizing base with
  | nil => rfl
  | cons entry rest ih =>
    obtain ⟨hfirst, hrest⟩ := List.pairwise_cons.1 hsorted
    rw [List.foldl_cons, ih _ hrest]
    have hput := find?_insert base entry.1 entry.2 key
    unfold find? at hput
    rw [hput]
    by_cases heq : entry.1 = key
    · -- The keys ascend, so the rest has nothing under the key of the first entry.
      have hnone : rest.find? (·.1 = key) = none := by
        rw [List.find?_eq_none]
        intro other hother hsame
        have hlt := hfirst other hother
        rw [heq, of_decide_eq_true hsame] at hlt
        exact Std.lt_irrefl hlt
      rw [hnone, if_pos heq, List.find?_cons_of_pos (by simpa using heq)]
      rfl
    · -- Under another key the first entry changes nothing.
      rw [if_neg heq, List.find?_cons_of_neg (by simpa using heq)]

end TextScopes.Table
