import Mathlib.Data.Finset.Card
import TextScopes.Library.Basic

/-!
# Loading languages

A language is loaded with all that it refers to, breadth first: each name that waits is asked for,
unless it was before, and the names that a definition found under it refers to wait behind the
others. `Library.Loads` tells such a load from the names that wait to the last one, without a bound
on its steps. No name is asked for twice (`Loads.nodup`), and in the end every name that a loaded
definition refers to has been asked for (`Loads.mem_asked`).

`Library.collect` takes a bound. The bound is no limit where the names that can be asked for are no
more: each definition that is found uses up one of them (`Library.exists_loads`).
-/

namespace TextScopes.Library

variable {library : Library} {asked asked' waiting waiting' reads : List String}
  {loaded : List Definition} {definition : Definition} {name : String}

/-- A load, with the names that have been asked for before it and those that wait; `reads` are the
names that are asked for, in order, and `loaded` the definitions that are found. -/
inductive Loads (library : Library) :
    List String → List String → List String → List Definition → Prop
  | done {asked : List String} : Loads library asked [] [] []
  | again {asked waiting reads : List String} {loaded : List Definition} {name : String}
      (old : name ∈ asked) (later : Loads library asked waiting reads loaded) :
      Loads library asked (name :: waiting) reads loaded
  | missing {asked waiting reads : List String} {loaded : List Definition} {name : String}
      (fresh : name ∉ asked) (absent : library.definition? name = none)
      (later : Loads library (name :: asked) waiting reads loaded) :
      Loads library asked (name :: waiting) (name :: reads) loaded
  | found {asked waiting reads : List String} {loaded : List Definition} {name : String}
      {definition : Definition} (fresh : name ∉ asked)
      (present : library.definition? name = some definition)
      (later : Loads library (name :: asked) (waiting ++ definition.languages) reads loaded) :
      Loads library asked (name :: waiting) (name :: reads) (definition :: loaded)

namespace Loads

/-- No name is asked for twice, or if it was asked for before. -/
theorem nodup (h : Loads library asked waiting reads loaded) :
    reads.Nodup ∧ ∀ name ∈ reads, name ∉ asked := by
  -- On the names that are asked for: each is asked for once.
  induction h with
  | done => exact ⟨List.nodup_nil, fun _ h => by cases h⟩
  | again _ _ ih => exact ih
  | missing fresh _ _ ih | found fresh _ _ ih =>
    obtain ⟨hnodup, hnew⟩ := ih
    refine ⟨List.nodup_cons.2 ⟨fun hmem => hnew _ hmem List.mem_cons_self, hnodup⟩, ?_⟩
    intro other hother
    rcases List.mem_cons.1 hother with rfl | hother
    · exact fresh
    · exact fun hasked => hnew other hother (List.mem_cons_of_mem _ hasked)

/-- What is loaded is what is found under the names. -/
theorem loaded_eq (h : Loads library asked waiting reads loaded) :
    loaded = reads.filterMap library.definition? := by
  induction h with
  | done => rfl
  | again _ _ ih => exact ih
  | missing _ absent _ ih => rw [List.filterMap_cons_none absent, ih]
  | found _ present _ ih => rw [List.filterMap_cons_some present, ih]

/-- Every name that waits, or that a loaded definition refers to, has been asked for in the end. -/
theorem mem_asked (h : Loads library asked waiting reads loaded)
    (hname : name ∈ waiting ++ loaded.flatMap Definition.languages) :
    name ∈ asked ++ reads := by
  -- What waits is asked for in the end, and so is what the loaded definitions name.
  induction h with
  | done => cases hname
  | again old _ ih =>
    rcases List.mem_cons.1 hname with rfl | hname
    · exact List.mem_append_left _ old
    · exact ih hname
  | missing _ _ _ ih =>
    rcases List.mem_cons.1 hname with rfl | hname
    · simp
    · have hmem := ih hname
      simp only [List.mem_append, List.mem_cons] at hmem ⊢
      tauto
  | found _ _ _ ih =>
    rcases List.mem_cons.1 hname with rfl | hname
    · simp
    · have hmem := ih (by simpa [or_assoc] using hname)
      simp only [List.mem_append, List.mem_cons] at hmem ⊢
      tauto

end Loads

/-! ## The bound on the steps -/

/-- When none of the names that wait gives a definition, the load ends with none. -/
theorem exists_loads_of_next?_eq_none (h : library.next? asked waiting = none) :
    ∃ reads, Loads library asked waiting reads [] := by
  induction waiting generalizing asked with
  | nil => exact ⟨[], .done⟩
  | cons name waiting ih =>
    rw [next?] at h
    split at h
    -- A name that was asked for is passed over.
    next old =>
      obtain ⟨reads, hreads⟩ := ih h
      exact ⟨reads, .again old hreads⟩
    next fresh =>
      split at h
      next => cases h
      -- A name without a definition is asked for, and nothing comes of it.
      next absent =>
        obtain ⟨reads, hreads⟩ := ih h
        exact ⟨name :: reads, .missing fresh absent hreads⟩

/-- The next definition is found under a name that waits and is new; the load goes on behind it. -/
theorem loads_of_next?_eq_some
    (h : library.next? asked waiting = some (definition, asked', waiting')) :
    (∃ name ∈ waiting, name ∉ asked ∧ name ∈ asked' ∧
      library.definition? name = some definition) ∧
    asked ⊆ asked' ∧ waiting' ⊆ waiting ∧
    ∀ reads loaded, Loads library asked' (waiting' ++ definition.languages) reads loaded →
      ∃ reads', Loads library asked waiting reads' (definition :: loaded) := by
  induction waiting generalizing asked with
  | nil => cases h
  | cons name waiting ih =>
    rw [next?] at h
    split at h
    next old =>
      obtain ⟨⟨other, hother, hfound⟩, hasked, hwaiting, hloads⟩ := ih h
      refine ⟨⟨other, List.mem_cons_of_mem _ hother, hfound⟩, hasked,
        List.subset_cons_of_subset _ hwaiting, fun reads loaded hlater => ?_⟩
      obtain ⟨reads', hreads'⟩ := hloads reads loaded hlater
      exact ⟨reads', .again old hreads'⟩
    next fresh =>
      split at h
      -- The name gives a definition, whose languages wait behind the others.
      next other present =>
        obtain ⟨rfl, heq⟩ := Prod.mk.inj (Option.some.inj h)
        obtain ⟨rfl, rfl⟩ := Prod.mk.inj heq
        refine ⟨⟨name, List.mem_cons_self, fresh, List.mem_cons_self, present⟩,
          List.subset_cons_self _ _, List.subset_cons_self _ _, fun reads loaded hlater => ?_⟩
        exact ⟨name :: reads, .found fresh present hlater⟩
      next absent =>
        obtain ⟨⟨other, hother, hnew, hfound⟩, hasked, hwaiting, hloads⟩ := ih h
        refine ⟨⟨other, List.mem_cons_of_mem _ hother,
          fun hold => hnew (List.mem_cons_of_mem _ hold), hfound⟩,
          fun _ hold => hasked (List.mem_cons_of_mem _ hold),
          List.subset_cons_of_subset _ hwaiting, fun reads loaded hlater => ?_⟩
        obtain ⟨reads', hreads'⟩ := hloads reads loaded hlater
        exact ⟨name :: reads', .missing fresh absent hreads'⟩

/-- With a bound of as many steps as there are names left to ask for, what is collected
is what a load finds. -/
theorem exists_loads {names : Finset String}
    (hnames : ∀ name definition, library.definition? name = some definition →
      ∀ other ∈ definition.languages, other ∈ names)
    {limit : Nat} (hlimit : (names \ asked.toFinset).card ≤ limit)
    (hwaiting : ∀ name ∈ waiting, name ∈ names) :
    ∃ reads, Loads library asked waiting reads (library.collect limit asked waiting) := by
  induction limit generalizing asked waiting with
  | zero =>
    -- Every name has been asked for.
    have hasked : names ⊆ asked.toFinset :=
      Finset.sdiff_eq_empty_iff_subset.1 (Finset.card_eq_zero.1 (Nat.le_zero.1 hlimit))
    have hold : ∀ name ∈ waiting, name ∈ asked := fun name hname =>
      List.mem_toFinset.1 (hasked (hwaiting name hname))
    clear hlimit hwaiting
    refine ⟨[], ?_⟩
    rw [collect]
    induction waiting with
    | nil => exact .done
    | cons name waiting ih =>
      exact .again (hold name List.mem_cons_self)
        (ih fun other hother => hold other (List.mem_cons_of_mem _ hother))
  | succ limit ih =>
    rw [collect]
    split
    -- Nothing that waits gives a definition.
    next hnone => exact exists_loads_of_next?_eq_none hnone
    next definition asked' waiting' hsome =>
      obtain ⟨⟨name, hname, hnew, hold, hfound⟩, hasked, hrest, hloads⟩ :=
        loads_of_next?_eq_some hsome
      -- The name that gave the definition is not left any more.
      have hfewer : (names \ asked'.toFinset).card < (names \ asked.toFinset).card := by
        refine Finset.card_lt_card (Finset.ssubset_iff_subset_ne.2 ⟨?_, fun heq => ?_⟩)
        · refine Finset.sdiff_subset_sdiff (Finset.Subset.refl _) fun other hother => ?_
          exact List.mem_toFinset.2 (hasked (List.mem_toFinset.1 hother))
        · have hleft : name ∈ names \ asked.toFinset :=
            Finset.mem_sdiff.2 ⟨hwaiting name hname, fun h => hnew (List.mem_toFinset.1 h)⟩
          rw [← heq] at hleft
          exact (Finset.mem_sdiff.1 hleft).2 (List.mem_toFinset.2 hold)
      have hlater : ∀ other ∈ waiting' ++ definition.languages, other ∈ names := by
        intro other hother
        rcases List.mem_append.1 hother with hother | hother
        · exact hwaiting other (hrest hother)
        · exact hnames name definition hfound other hother
      have hbound : (names \ asked'.toFinset).card ≤ limit := by omega
      obtain ⟨reads, hreads⟩ := ih hbound hlater
      exact hloads reads _ hreads

end TextScopes.Library
