/-!
# Tables

A `Table` maps keys to values and lists its entries by ascending key, each key once. `insert` puts a
value under a key, in place of the one that is there; `find?` looks a key up.
-/

namespace TextScopes

/-- Entries by ascending key. -/
structure Table (κ : Type) (ν : Type) [LT κ] where
  entries : List (κ × ν)
  ascending : entries.Pairwise (·.1 < ·.1) := by simp

namespace Table

variable {κ ν : Type} [LT κ]

/-- The table without entries. -/
def empty : Table κ ν := { entries := [] }

instance : Inhabited (Table κ ν) := ⟨empty⟩

theorem eq_iff_entries (a b : Table κ ν) : a = b ↔ a.entries = b.entries := by
  cases a
  cases b
  simp

instance [DecidableEq κ] [DecidableEq ν] : DecidableEq (Table κ ν) := fun a b =>
  decidable_of_iff _ (eq_iff_entries a b).symm

instance [Repr κ] [Repr ν] : Repr (Table κ ν) := ⟨fun table => reprPrec table.entries⟩

/-- The number of entries. -/
def size (table : Table κ ν) : Nat := table.entries.length

/-- The value under a key. -/
def find? [DecidableEq κ] (table : Table κ ν) (key : κ) : Option ν :=
  (table.entries.find? (·.1 = key)).map (·.2)

/-- The entries whose keys satisfy `keeps`. -/
def filter (table : Table κ ν) (keeps : κ → Bool) : Table κ ν :=
  ⟨table.entries.filter fun entry => keeps entry.1, table.ascending.filter _⟩

variable [DecidableLT κ] [DecidableEq κ]

/-- Puts `value` under `key` in a list of entries: in place of what is there, or where it keeps the
keys ascending. -/
def put (key : κ) (value : ν) : List (κ × ν) → List (κ × ν)
  | [] => [(key, value)]
  | (k, v) :: rest =>
    if key < k then (key, value) :: (k, v) :: rest
    else if k = key then (key, value) :: rest
    else (k, v) :: put key value rest

/-- An entry after `put` is the new one or an old one. -/
theorem mem_put {key : κ} {value : ν} {entries : List (κ × ν)} {e : κ × ν}
    (h : e ∈ put key value entries) : e = (key, value) ∨ e ∈ entries := by
  induction entries with
  | nil => simpa [put] using h
  | cons f rest ih =>
    obtain ⟨k, v⟩ := f
    unfold put at h
    split at h
    · simpa using h
    · split at h
      · rcases List.mem_cons.1 h with h | h
        · exact .inl h
        · exact .inr (List.mem_cons_of_mem _ h)
      · rcases List.mem_cons.1 h with h | h
        · exact .inr (h ▸ List.mem_cons_self)
        · exact (ih h).imp_right (List.mem_cons_of_mem _)

variable [LE κ] [Std.IsLinearOrder κ] [Std.LawfulOrderLT κ]

/-- `put` keeps the keys ascending. -/
theorem pairwise_put (key : κ) (value : ν) {entries : List (κ × ν)}
    (h : entries.Pairwise (·.1 < ·.1)) : (put key value entries).Pairwise (·.1 < ·.1) := by
  induction entries with
  | nil => simp [put]
  | cons f rest ih =>
    obtain ⟨k, v⟩ := f
    obtain ⟨hk, hrest⟩ := List.pairwise_cons.1 h
    unfold put
    split
    · next hlt =>
      refine List.pairwise_cons.2 ⟨fun e he => ?_, h⟩
      rcases List.mem_cons.1 he with rfl | he
      · exact hlt
      · exact Std.lt_trans hlt (hk e he)
    · next hle =>
      split
      · next heq =>
        subst heq
        exact List.pairwise_cons.2 ⟨hk, hrest⟩
      · next hne =>
        refine List.pairwise_cons.2 ⟨fun e he => ?_, ih hrest⟩
        rcases mem_put he with rfl | he
        · exact Std.lt_of_le_of_ne (Std.not_lt.1 hle) hne
        · exact hk e he

/-- Puts `value` under `key`, in place of what is there. -/
def insert (table : Table κ ν) (key : κ) (value : ν) : Table κ ν :=
  ⟨put key value table.entries, pairwise_put key value table.ascending⟩

/-- The first table with the entries of the second put over its own. -/
def override (base top : Table κ ν) : Table κ ν :=
  top.entries.foldl (fun table (key, value) => table.insert key value) base

/-- The table of a list of entries; of those with one key the last counts. -/
def ofList (entries : List (κ × ν)) : Table κ ν :=
  entries.foldl (fun table (key, value) => table.insert key value) empty

/-- A look-up after `insert`: the new value under its key, and the old ones elsewhere. -/
theorem find?_insert (table : Table κ ν) (key : κ) (value : ν) (other : κ) :
    (table.insert key value).find? other =
      if key = other then some value else table.find? other := by
  obtain ⟨entries, hsorted⟩ := table
  simp only [insert, find?]
  induction entries with
  | nil => by_cases h : key = other <;> simp [put, h]
  | cons f rest ih =>
    obtain ⟨k, v⟩ := f
    have hrest := (List.pairwise_cons.1 hsorted).2
    unfold put
    split
    · by_cases h : key = other <;> simp [h]
    · split
      · next heq =>
        subst heq
        by_cases h : k = other <;> simp [h]
      · next hne =>
        by_cases hk : k = other
        · subst hk
          simp [Ne.symm hne]
        · simpa [hk] using ih hrest

end Table

end TextScopes
