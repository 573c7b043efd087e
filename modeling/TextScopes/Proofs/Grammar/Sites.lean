import Mathlib.Data.List.Basic
import Mathlib.Logic.Relation
import TextScopes.Grammar.Resolution

/-!
# Where entries are declared

A site is an entry where it is declared: the entry, the number from which it is laid out, and the
repositories around it. One site holds another when that is declared right inside it (`Site.Holds`),
and the entries of a definition are the sites inside that of the whole definition
(`Definition.Declares`). This is the document as it is written; the places of a language are its
layout. `Definition.getElem?_layout_iff` says that the layout is true to it: behind the root, the
place of a number is that of the declared entry with the number, and shows what the entry is.

The layout puts entries one behind the other, so that a place in a row of entries is one in the
layout of one of them (`Entry.getElem?_slotsAll_iff`). From there the proof goes one step into an
entry (`Site.getElem?_slots_step`), and then as deep as it is nested.
-/

namespace TextScopes

variable {E : Engine}

namespace Entry

/-- The entries of a repository take the places that they take as a row. -/
theorem sizeNamed_eq (repository : List (String × Entry E)) :
    size.sizeNamed repository = size.sizeAll (repository.map (·.2)) := by
  induction repository with
  | nil => rfl
  | cons entry rest ih => rw [size.sizeNamed, List.map_cons, size.sizeAll, ih]

/-- The entries of a repository are laid out as a row. -/
theorem slotsNamed_eq (language : String) (first : Nat) (visible : List Repository)
    (repository : List (String × Entry E)) :
    slots.slotsNamed language first visible repository =
      slots.slotsAll language first visible (repository.map (·.2)) := by
  induction repository generalizing first with
  | nil => rfl
  | cons entry rest ih => rw [slots.slotsNamed, List.map_cons, slots.slotsAll, ih]

/-- A place in two rows one behind the other is one of the first row or of the second. -/
theorem getElem?_append_iff {α : Type} {xs ys : List α} {i : Nat} {a : α} :
    (xs ++ ys)[i]? = some a ↔
      xs[i]? = some a ∨ ∃ j, i = xs.length + j ∧ ys[j]? = some a := by
  rcases Nat.lt_or_ge i xs.length with hlt | hge
  · rw [List.getElem?_append_left hlt]
    refine ⟨.inl, fun h => h.resolve_right ?_⟩
    rintro ⟨j, rfl, -⟩
    omega
  · rw [List.getElem?_append_right hge]
    constructor
    · exact fun h => .inr ⟨i - xs.length, by omega, h⟩
    · rintro (h | ⟨j, rfl, h⟩)
      · rw [List.getElem?_eq_none hge] at h
        cases h
      · rwa [Nat.add_sub_cancel_left]

/-- A place in a row of entries is one in the layout of one of them. -/
theorem getElem?_slotsAll_iff {language : String} {first : Nat} {visible : List Repository}
    {es : List (Entry E)} {i : Nat} {slot : Slot E} :
    (slots.slotsAll language first visible es)[i]? = some slot ↔
      ∃ front e back, es = front ++ e :: back ∧ ∃ j, i = size.sizeAll front + j ∧
        (slots language (first + size.sizeAll front) visible e)[j]? = some slot := by
  -- On the row: a place lies in the first entry or in those behind it.
  induction es generalizing first i with
  | nil => simp [slots.slotsAll]
  | cons head rest ih =>
    rw [slots.slotsAll, getElem?_append_iff, length_slots]
    constructor
    · rintro (h | ⟨i, rfl, h⟩)
      · exact ⟨[], head, rest, rfl, i, (Nat.zero_add i).symm, h⟩
      · obtain ⟨front, e, back, rfl, j, rfl, hslot⟩ := ih.1 h
        refine ⟨head :: front, e, back, rfl, j, ?_, ?_⟩
        · rw [size.sizeAll, Nat.add_assoc]
        · rwa [size.sizeAll, ← Nat.add_assoc]
    · rintro ⟨front, e, back, hsplit, j, rfl, hslot⟩
      cases front with
      | nil =>
        obtain ⟨rfl, rfl⟩ := List.cons.inj hsplit
        left
        rw [size.sizeAll, Nat.zero_add]
        exact hslot
      | cons other front =>
        obtain ⟨rfl, rfl⟩ := List.cons.inj hsplit
        rw [size.sizeAll, ← Nat.add_assoc] at hslot
        rw [size.sizeAll]
        exact .inr ⟨size.sizeAll front + j, Nat.add_assoc _ _ _,
          ih.2 ⟨front, e, back, rfl, j, rfl, hslot⟩⟩

/-- A place in a repository is one in the layout of one of its entries. -/
theorem getElem?_slotsNamed_iff {language : String} {first : Nat} {visible : List Repository}
    {repository : List (String × Entry E)} {i : Nat} {slot : Slot E} :
    (slots.slotsNamed language first visible repository)[i]? = some slot ↔
      ∃ front key e back, repository = front ++ (key, e) :: back ∧
        ∃ j, i = size.sizeNamed front + j ∧
          (slots language (first + size.sizeNamed front) visible e)[j]? = some slot := by
  rw [slotsNamed_eq, getElem?_slotsAll_iff]
  constructor
  · rintro ⟨front, e, back, hsplit, j, rfl, hslot⟩
    obtain ⟨front, rest, rfl, rfl, hrest⟩ := List.map_eq_append_iff.1 hsplit
    obtain ⟨⟨key, e⟩, back, rfl, rfl, rfl⟩ := List.map_eq_cons_iff.1 hrest
    rw [← sizeNamed_eq] at hslot ⊢
    exact ⟨front, key, e, back, rfl, j, rfl, hslot⟩
  · rintro ⟨front, key, e, back, rfl, j, rfl, hslot⟩
    rw [sizeNamed_eq] at hslot ⊢
    exact ⟨front.map (·.2), e, back.map (·.2), by simp, j, rfl, hslot⟩

/-- The numbers of a row are those of its well-formed entries. -/
theorem mem_numbers {first n : Nat} {es : List (Entry E)} :
    n ∈ numbers first es ↔
      ∃ front e back, es = front ++ e :: back ∧ e.isWellFormed = true ∧
        n = first + size.sizeAll front + e.size - 1 := by
  induction es generalizing first with
  | nil => simp [numbers]
  | cons head rest ih =>
    have hrest : n ∈ numbers (first + head.size) rest ↔
        ∃ front e back, rest = front ++ e :: back ∧
          e.isWellFormed = true ∧ n = first + size.sizeAll (head :: front) + e.size - 1 := by
      rw [ih]
      simp only [size.sizeAll, Nat.add_assoc]
    -- The number of a well-formed entry is the last one of its places.
    have hcons : n ∈ numbers first (head :: rest) ↔
        (head.isWellFormed = true ∧ n = first + head.size - 1) ∨
          n ∈ numbers (first + head.size) rest := by
      rw [numbers]
      by_cases hwell : head.isWellFormed = true
      · simp [hwell]
      · simp [hwell]
    rw [hcons, hrest]
    constructor
    · rintro (⟨hwell, hn⟩ | ⟨front, e, back, rfl, hwell, hn⟩)
      · exact ⟨[], head, rest, rfl, hwell, hn⟩
      · exact ⟨head :: front, e, back, rfl, hwell, hn⟩
    · rintro ⟨front, e, back, hsplit, hwell, hn⟩
      cases front with
      | nil =>
        obtain ⟨rfl, rfl⟩ := List.cons.inj hsplit
        exact .inl ⟨hwell, hn⟩
      | cons other front =>
        obtain ⟨rfl, rfl⟩ := List.cons.inj hsplit
        exact .inr ⟨front, e, back, rfl, hwell, hn⟩

/-- The entry that a repository has under a key is the first well-formed one there. With it comes
its number, when the repository is laid out from `first` on. -/
def Under (first : Nat) (repository : List (String × Entry E)) (key : String) (n : Nat) : Prop :=
  ∃ front e back, repository = front ++ (key, e) :: back ∧ e.isWellFormed = true ∧
    (∀ other, (key, other) ∈ front → other.isWellFormed = false) ∧
    n = first + size.sizeNamed front + e.size - 1

/-- A repository finds under a key the number of the entry that it has there. -/
theorem lookup_named {first n : Nat} {repository : List (String × Entry E)} {key : String} :
    (named first repository).lookup key = some n ↔ Under first repository key n := by
  induction repository generalizing first with
  | nil => simp [named, Under]
  | cons head rest ih =>
    obtain ⟨k, e⟩ := head
    by_cases hhead : e.isWellFormed = true ∧ key = k
    · -- The first entry is the one.
      obtain ⟨hwell, rfl⟩ := hhead
      have hlookup : (named first ((key, e) :: rest)).lookup key = some (first + e.size - 1) := by
        simp [named, hwell]
      rw [hlookup]
      -- Nothing well-formed stands before the first entry.
      constructor
      · intro h
        obtain rfl := Option.some.inj h
        exact ⟨[], e, rest, rfl, hwell, by simp, rfl⟩
      · rintro ⟨front, e', back, hsplit, -, hfirst, rfl⟩
        cases front with
        | nil =>
          obtain ⟨heq, rfl⟩ := List.cons.inj hsplit
          rw [(Prod.mk.inj heq).2]
          rfl
        | cons other front =>
          obtain ⟨rfl, rfl⟩ := List.cons.inj hsplit
          rw [hfirst e List.mem_cons_self] at hwell
          cases hwell
    · -- The first entry is passed over.
      have hlookup : (named first ((k, e) :: rest)).lookup key =
          (named (first + e.size) rest).lookup key := by
        rw [named]
        by_cases hwell : e.isWellFormed = true
        · have hne : (key == k) = false := by simpa using fun heq => hhead ⟨hwell, heq⟩
          simp [hwell, List.lookup_cons, hne]
        · simp [hwell]
      rw [hlookup, ih]
      constructor
      · rintro ⟨front, e', back, rfl, hwell, hfirst, rfl⟩
        refine ⟨(k, e) :: front, e', back, rfl, hwell, fun other ho => ?_, ?_⟩
        · rcases List.mem_cons.1 ho with heq | ho
          · obtain ⟨rfl, rfl⟩ := Prod.mk.inj heq
            exact Bool.not_eq_true _ ▸ fun hwell => hhead ⟨hwell, rfl⟩
          · exact hfirst other ho
        · rw [size.sizeNamed, Nat.add_assoc first]
      · rintro ⟨front, e', back, hsplit, hwell, hfirst, rfl⟩
        cases front with
        | nil =>
          obtain ⟨heq, rfl⟩ := List.cons.inj hsplit
          obtain ⟨rfl, rfl⟩ := Prod.mk.inj heq
          exact absurd ⟨hwell, rfl⟩ hhead
        | cons other front =>
          obtain ⟨rfl, rfl⟩ := List.cons.inj hsplit
          refine ⟨front, e', back, rfl, hwell,
            fun f hf => hfirst f (List.mem_cons_of_mem _ hf), ?_⟩
          rw [size.sizeNamed, ← Nat.add_assoc first]

end Entry

/-- An entry where it is declared. -/
structure Site (E : Engine) where
  entry : Entry E
  /-- The number from which the entry is laid out. -/
  first : Nat
  /-- The repositories around the entry, the nearest first, each with the number from
  which it is laid out. -/
  around : List (Nat × List (String × Entry E))

namespace Site

/-- The number of the entry: the last of those that it takes. -/
def number (site : Site E) : Nat := site.first + site.entry.size - 1

/-- What the entry sees of the repositories around it. -/
def visible (site : Site E) : List Repository :=
  site.around.map fun (first, entries) => Entry.named first entries

/-- What is at the entry's place; a malformed entry has none. -/
def slot? (language : String) (site : Site E) : Option (Slot E) :=
  match site.entry with
  | .link reference => some (.link ⟨reference, language, site.visible⟩)
  | .rule _ none _ _ => none
  | .rule name (some kind) patterns repository =>
    some (.rule ⟨name, kind,
      (Entry.numbers (site.first + Entry.size.sizeNamed repository) patterns).map
        (⟨language, ·⟩)⟩)

/-- One entry is declared right inside another: in its repository, or among the
patterns of a rule. -/
inductive Holds : Site E → Site E → Prop
  | named {name : Option String} {kind? : Option (Kind E)} {patterns : List (Entry E)}
      {repository front back : List (String × Entry E)} {key : String} {e : Entry E} {first : Nat}
      {around : List (Nat × List (String × Entry E))}
      (split : repository = front ++ (key, e) :: back) :
      Holds ⟨.rule name kind? patterns repository, first, around⟩
        ⟨e, first + Entry.size.sizeNamed front, (first, repository) :: around⟩
  | pattern {name : Option String} {kind : Kind E} {patterns front back : List (Entry E)}
      {repository : List (String × Entry E)} {e : Entry E} {first : Nat}
      {around : List (Nat × List (String × Entry E))} (split : patterns = front ++ e :: back) :
      Holds ⟨.rule name (some kind) patterns repository, first, around⟩
        ⟨e, first + Entry.size.sizeNamed repository + Entry.size.sizeAll front,
          (first, repository) :: around⟩

/-- The places that the entry takes. -/
def slots (language : String) (site : Site E) : List (Slot E) :=
  Entry.slots language site.first site.visible site.entry

/-- The places of the entries inside the entry. -/
def inside (language : String) (site : Site E) : List (Slot E) :=
  match site.entry with
  | .link _ => []
  | .rule _ kind? patterns repository =>
    let visible := Entry.named site.first repository :: site.visible
    let inner := Entry.slots.slotsNamed language site.first visible repository
    if kind?.isSome then
      inner ++ Entry.slots.slotsAll language (site.first + Entry.size.sizeNamed repository) visible
        patterns
    else inner

variable {language : String} {site inner : Site E} {i : Nat} {slot : Slot E}

/-- An entry is larger than one inside it. -/
theorem Holds.sizeOf_lt (h : site.Holds inner) : sizeOf inner.entry < sizeOf site.entry := by
  -- What is held is a member of a list of the entry.
  cases h with
  | @named name kind? patterns repository front back key e first around split =>
    have hmem : (key, e) ∈ repository := by simp [split]
    have hlt := List.sizeOf_lt_of_mem hmem
    simp only [Prod.mk.sizeOf_spec, Entry.rule.sizeOf_spec] at hlt ⊢
    omega
  | @pattern name kind patterns front back repository e first around split =>
    have hmem : e ∈ patterns := by simp [split]
    have hlt := List.sizeOf_lt_of_mem hmem
    simp only [Entry.rule.sizeOf_spec] at hlt ⊢
    omega

/-- An entry is laid out behind those inside it. -/
theorem slots_eq (language : String) (site : Site E) :
    site.slots language = site.inside language ++ (site.slot? language).toList := by
  obtain ⟨entry, first, around⟩ := site
  -- A link has nothing inside, and a rule without a kind no place of its own.
  cases entry with
  | link reference => rfl
  | rule name kind? patterns repository =>
    cases kind? with
    | none =>
      simp only [slots, inside, slot?, Entry.slots, Option.isSome_none,
        Bool.false_eq_true, if_false, Option.toList_none, List.append_nil]
    | some kind =>
      simp only [slots, inside, slot?, Entry.slots, Option.isSome_some, if_true, Option.toList_some]

/-- What is at an entry's place stands behind the places of those inside it. -/
theorem number_eq_of_slot? (h : site.slot? language = some slot) :
    site.number = site.first + (site.inside language).length := by
  have hlength : (site.slots language).length = site.entry.size := Entry.length_slots _ _ _ _
  rw [slots_eq, h, List.length_append, Option.toList_some, List.length_singleton] at hlength
  rw [number, ← hlength, ← Nat.add_assoc, Nat.add_sub_cancel]

/-- A place inside an entry is one of an entry right inside it. -/
theorem getElem?_inside_iff : (site.inside language)[i]? = some slot ↔
    ∃ inner, site.Holds inner ∧ ∃ j, inner.first + j = site.first + i ∧
      (inner.slots language)[j]? = some slot := by
  obtain ⟨entry, first, around⟩ := site
  cases entry with
  | link reference =>
    simp only [inside, List.getElem?_nil, reduceCtorEq, false_iff, not_exists, not_and]
    intro inner hholds
    cases hholds
  | rule name kind? patterns repository =>
    constructor
    · intro h
      have hnamed : ∀ {i : Nat}, (Entry.slots.slotsNamed language first
            (Entry.named first repository ::
              Site.visible ⟨.rule name kind? patterns repository, first,
              around⟩) repository)[i]? = some slot →
          ∃ inner, Site.Holds ⟨.rule name kind? patterns repository, first, around⟩ inner ∧
            ∃ j, inner.first + j = first + i ∧ (inner.slots language)[j]? = some slot := by
        intro i h
        obtain ⟨front, key, e, back, hsplit, j, rfl, hslot⟩ := Entry.getElem?_slotsNamed_iff.1 h
        exact ⟨_, .named hsplit, j, Nat.add_assoc _ _ _, hslot⟩
      -- What is inside the repository comes before what is inside the patterns.
      cases kind? with
      | none => exact hnamed h
      | some kind =>
        simp only [inside, Option.isSome_some, if_true] at h
        rcases Entry.getElem?_append_iff.1 h with hfront | ⟨i, rfl, hback⟩
        · exact hnamed hfront
        · obtain ⟨front, e, back, hsplit, j, rfl, hslot⟩ := Entry.getElem?_slotsAll_iff.1 hback
          refine ⟨_, .pattern hsplit, j, ?_, hslot⟩
          rw [Entry.length_slotsNamed]
          simp only [Nat.add_assoc]
    · rintro ⟨inner, hholds, j, hj, hslot⟩
      cases hholds with
      | @named _ _ _ _ front back key e _ _ split =>
        obtain rfl : i = Entry.size.sizeNamed front + j := by
          dsimp only at hj
          omega
        have hnamed :=
          Entry.getElem?_slotsNamed_iff.2 ⟨front, key, e, back, split, j, rfl, hslot⟩
        cases kind? with
        | none => exact hnamed
        | some kind => exact Entry.getElem?_append_iff.2 (.inl hnamed)
      | @pattern _ kind _ front back _ e _ _ split =>
        obtain rfl : i = Entry.size.sizeNamed repository + (Entry.size.sizeAll front + j) := by
          dsimp only at hj
          omega
        have hall := Entry.getElem?_slotsAll_iff.2 ⟨front, e, back, split, j, rfl, hslot⟩
        refine Entry.getElem?_append_iff.2 (.inr ⟨_, ?_, hall⟩)
        rw [Entry.length_slotsNamed]

/-- A place of an entry is its own, or one of an entry right inside it. -/
theorem getElem?_slots_step : (site.slots language)[i]? = some slot ↔
    (site.slot? language = some slot ∧ site.number = site.first + i) ∨
      ∃ inner, site.Holds inner ∧ ∃ j, inner.first + j = site.first + i ∧
        (inner.slots language)[j]? = some slot := by
  rw [slots_eq, Entry.getElem?_append_iff, getElem?_inside_iff, or_comm]
  refine or_congr_left ⟨?_, ?_⟩
  · rintro ⟨j, rfl, hslot⟩
    -- The own place is the last one, if there is one.
    cases hown : site.slot? language with
    | none =>
      rw [hown] at hslot
      cases hslot
    | some own =>
      rw [hown] at hslot
      obtain ⟨hj, hslot⟩ := List.getElem?_eq_some_iff.1 hslot
      obtain rfl : j = 0 := Nat.lt_one_iff.1 hj
      exact ⟨congrArg some hslot, number_eq_of_slot? hown⟩
  · rintro ⟨hown, hnumber⟩
    rw [number_eq_of_slot? hown] at hnumber
    exact ⟨0, by omega, by rw [hown]; rfl⟩

/-- An entry is laid out from no place before the one around it. -/
theorem Holds.first_le (h : site.Holds inner) : site.first ≤ inner.first := by
  cases h with
  | named split => exact Nat.le_add_right _ _
  | pattern split =>
    dsimp only
    omega

/-- What is at an entry's place stands behind where the entries around it begin. -/
theorem first_le_number (hreach : Relation.ReflTransGen Holds site inner)
    (h : inner.slot? language = some slot) : site.first ≤ inner.number := by
  induction hreach using Relation.ReflTransGen.head_induction_on with
  | refl =>
    rw [number_eq_of_slot? h]
    exact Nat.le_add_right _ _
  | head hholds _ ih => exact Nat.le_trans hholds.first_le ih

/-- The places of an entry are its own and those of the entries inside it, however deep. -/
theorem getElem?_slots_iff : (site.slots language)[i]? = some slot ↔
    ∃ inner, Relation.ReflTransGen Holds site inner ∧ inner.slot? language = some slot ∧
      inner.number = site.first + i := by
  constructor
  · -- The induction is on the size of the entry, which every step inside lowers.
    intro h
    induction hn : sizeOf site.entry using Nat.strongRecOn generalizing site i with
    | _ n ih =>
      subst hn
      rcases getElem?_slots_step.1 h with ⟨hown, hnumber⟩ | ⟨between, hholds, j, hj, hslot⟩
      · exact ⟨site, .refl, hown, hnumber⟩
      · obtain ⟨inner, hreach, hinner, hnumber⟩ := ih _ hholds.sizeOf_lt hslot rfl
        exact ⟨inner, .head hholds hreach, hinner, hnumber.trans hj⟩
  · rintro ⟨inner, hreach, hinner, hnumber⟩
    induction hreach using Relation.ReflTransGen.head_induction_on generalizing i with
    -- From the place on outwards: it lies inside each entry that holds the one before.
    | refl => exact getElem?_slots_step.2 (.inl ⟨hinner, hnumber⟩)
    | @head outer between hholds hreach ih =>
      have hle := first_le_number hreach hinner
      obtain ⟨j, hj⟩ := Nat.exists_eq_add_of_le hle
      refine getElem?_slots_step.2 (.inr ⟨between, hholds, j, ?_, ih hj⟩)
      rw [← hj, hnumber]

/-- What is inside an entry are the places of the entries declared in it, however deep. -/
theorem getElem?_inside_iff_declared : (site.inside language)[i]? = some slot ↔
    ∃ inner, Relation.TransGen Holds site inner ∧ inner.slot? language = some slot ∧
      inner.number = site.first + i := by
  rw [getElem?_inside_iff]
  constructor
  · rintro ⟨between, hholds, j, hj, hslot⟩
    obtain ⟨inner, hreach, hinner, hnumber⟩ := getElem?_slots_iff.1 hslot
    exact ⟨inner, .head' hholds hreach, hinner, hnumber.trans hj⟩
  · rintro ⟨inner, hreach, hinner, hnumber⟩
    obtain ⟨between, hholds, hreach⟩ := Relation.TransGen.head'_iff.1 hreach
    obtain ⟨j, hj⟩ := Nat.exists_eq_add_of_le (first_le_number hreach hinner)
    exact ⟨between, hholds, j, by omega, getElem?_slots_iff.2 ⟨inner, hreach, hinner, hj⟩⟩

/-- The entry under a key that is in sight: that of the nearest repository around that has one. -/
def Nearest (site : Site E) (key : String) (n : Nat) : Prop :=
  ∃ inner repository outer, site.around = inner ++ repository :: outer ∧
    (∀ closer ∈ inner, ∀ m, ¬Entry.Under closer.1 closer.2 key m) ∧
    Entry.Under repository.1 repository.2 key n

/-- A key is looked up in what is in sight. -/
theorem lookup?_visible {key : String} {n : Nat} :
    Repository.lookup? site.visible key = some n ↔ site.Nearest key n := by
  -- A repository in which nothing is found has nothing under the key.
  have hnone : ∀ repository : Nat × List (String × Entry E),
      (Entry.named repository.1 repository.2).lookup key = none ↔
        ∀ m, ¬Entry.Under repository.1 repository.2 key m := fun repository => by
    simp only [Option.eq_none_iff_forall_ne_some, ne_eq, Entry.lookup_named]
  simp only [Repository.lookup?, visible, List.findSome?_map, List.findSome?_eq_some_iff,
    Function.comp, hnone, Entry.lookup_named, Nearest]
  constructor
  · rintro ⟨inner, repository, outer, hsplit, hunder, hcloser⟩
    exact ⟨inner, repository, outer, hsplit, hcloser, hunder⟩
  · rintro ⟨inner, repository, outer, hsplit, hcloser, hunder⟩
    exact ⟨inner, repository, outer, hsplit, hunder, hcloser⟩

/-- A well-formed entry has a place. -/
theorem exists_slot? (language : String) (h : site.entry.isWellFormed = true) :
    ∃ slot, site.slot? language = some slot := by
  obtain ⟨entry, first, around⟩ := site
  cases entry with
  | link reference => exact ⟨_, rfl⟩
  | rule name kind? patterns repository =>
    obtain ⟨kind, rfl⟩ := Option.isSome_iff_exists.1 h
    exact ⟨_, rfl⟩

/-- A number of a rule's patterns is that of a well-formed entry inside it. -/
theorem exists_holds_of_mem_numbers {name : Option String} {kind : Kind E}
    {patterns : List (Entry E)} {repository : List (String × Entry E)} {n : Nat}
    (hentry : site.entry = .rule name (some kind) patterns repository)
    (h : n ∈ Entry.numbers (site.first + Entry.size.sizeNamed repository) patterns) :
    ∃ inner, site.Holds inner ∧ inner.number = n ∧ inner.entry.isWellFormed = true := by
  obtain ⟨entry, first, around⟩ := site
  obtain rfl := hentry
  obtain ⟨front, e, back, hsplit, hwell, rfl⟩ := Entry.mem_numbers.1 h
  exact ⟨_, .pattern hsplit, rfl, hwell⟩

/-- An entry has the place of a link just when it is one. -/
theorem slot?_eq_link_iff {link : Link} : site.slot? language = some (.link link) ↔
    ∃ reference, site.entry = .link reference ∧
      link = ⟨reference, language, site.visible⟩ := by
  obtain ⟨entry, first, around⟩ := site
  cases entry with
  | link reference =>
    simp only [slot?, Option.some.injEq, Slot.link.injEq, Entry.link.injEq, exists_eq_left']
    exact eq_comm
  | rule name kind? patterns repository => cases kind? <;> simp [slot?]

/-- What a repository around a site has is declared too. -/
theorem exists_declared_of_around {top : Site E} (htop : top.around = [])
    (hreach : Relation.ReflTransGen Holds top site) {first : Nat}
    {repository front back : List (String × Entry E)} {key : String} {e : Entry E}
    (hmem : (first, repository) ∈ site.around) (hsplit : repository = front ++ (key, e) :: back) :
    ∃ around, Relation.TransGen Holds top
      ⟨e, first + Entry.size.sizeNamed front, around⟩ := by
  induction hreach with
  | refl =>
    rw [htop] at hmem
    cases hmem
  | tail hreach hholds ih =>
    cases hholds with
    | named split =>
      -- The nearest repository is that of the holder, whose entries it holds.
      rcases List.mem_cons.1 hmem with heq | hmem
      · obtain ⟨rfl, rfl⟩ := Prod.mk.inj heq
        exact ⟨_, .tail' hreach (.named hsplit)⟩
      · exact ih hmem
    | pattern split =>
      rcases List.mem_cons.1 hmem with heq | hmem
      · obtain ⟨rfl, rfl⟩ := Prod.mk.inj heq
        exact ⟨_, .tail' hreach (.named hsplit)⟩
      · exact ih hmem

end Site

namespace Definition

/-- The entries of the outermost repository. -/
def entries (E : Engine) (definition : Definition) : List (String × Entry E) :=
  definition.repository.map fun (key, v) => (key, Entry.ofValue E v)

/-- The top-level patterns. -/
def rules (E : Engine) (definition : Definition) : List (Entry E) :=
  definition.patterns.map (Entry.ofValue E)

/-- A definition gives a language when none of its top-level patterns is malformed. -/
def IsAccepted (E : Engine) (definition : Definition) : Prop :=
  ∀ e ∈ definition.rules E, e.isWellFormed = true

instance (definition : Definition) : Decidable (definition.IsAccepted E) :=
  inferInstanceAs (Decidable (∀ e ∈ definition.rules E, e.isWellFormed = true))

/-- The whole definition, as an entry that is laid out behind the root. -/
def top (E : Engine) (definition : Definition) : Site E :=
  ⟨.rule none (some .container) (definition.rules E) (definition.entries E), 1, []⟩

/-- A definition declares an entry, however deep. -/
def Declares (definition : Definition) (site : Site E) : Prop :=
  Relation.TransGen Site.Holds (definition.top E) site

/-- The rule that holds the top-level patterns. -/
def root (E : Engine) (definition : Definition) : Rule E :=
  ⟨none, .container, (Entry.numbers (1 + Entry.size.sizeNamed (definition.entries E))
    (definition.rules E)).map (⟨definition.scopeName, ·⟩)⟩

/-- The language that a definition gives. -/
def layout (E : Engine) (definition : Definition) : Language E :=
  ⟨definition.scopeName,
    (.rule (definition.root E) :: (definition.top E).inside definition.scopeName).toArray,
    Entry.named 1 (definition.entries E)⟩

variable {definition : Definition}

@[simp]
theorem layout_scopeName : (definition.layout E).scopeName = definition.scopeName := rfl

/-- A language is laid out for each definition that is accepted, and for no other. -/
theorem ofDefinition_eq_ok_iff {language : Language E} :
    Language.ofDefinition E definition = .ok language ↔
      definition.IsAccepted E ∧ language = definition.layout E := by
  -- A definition is refused at its first malformed pattern.
  have haccepted : (definition.rules E).findIdx? (!·.isWellFormed) = none ↔
      definition.IsAccepted E := by
    simp [List.findIdx?_eq_none_iff, IsAccepted]
  rw [← haccepted]
  cases hfind : (definition.rules E).findIdx? (!·.isWellFormed) with
  | none =>
    have hok : Language.ofDefinition E definition = .ok (definition.layout E) := by
      simp only [Language.ofDefinition]
      rw [show definition.patterns.map (Entry.ofValue E) = definition.rules E from rfl, hfind]
      rfl
    rw [hok, Except.ok.injEq, eq_comm]
    exact ⟨fun h => ⟨rfl, h⟩, fun h => h.2⟩
  | some index =>
    have herror : Language.ofDefinition E definition =
        .error (.invalidPattern index definition.scopeName) := by
      simp only [Language.ofDefinition]
      rw [show definition.patterns.map (Entry.ofValue E) = definition.rules E from rfl, hfind]
    rw [herror]
    constructor <;> rintro ⟨⟩
    contradiction

/-- A number is taken by the root, or by the declared entry that has it. -/
theorem getElem?_layout_iff {n : Nat} {slot : Slot E} :
    (definition.layout E).slots[n]? = some slot ↔
    (n = 0 ∧ slot = .rule (definition.root E)) ∨
      ∃ site, definition.Declares site ∧ site.slot? definition.scopeName = some slot ∧
        site.number = n := by
  rw [layout, List.getElem?_toArray]
  -- Place 0 is the root's, and the others are numbered from 1.
  cases n with
  | zero =>
    rw [List.getElem?_cons_zero, Option.some.injEq]
    constructor
    · exact fun h => .inl ⟨rfl, h.symm⟩
    · rintro (⟨-, h⟩ | ⟨site, hdeclared, hslot, hnumber⟩)
      · exact h.symm
      · -- No entry is laid out before the root.
        have hpos := Site.first_le_number hdeclared.to_reflTransGen hslot
        rw [hnumber] at hpos
        cases hpos
  | succ n =>
    rw [List.getElem?_cons_succ, Site.getElem?_inside_iff_declared]
    simp only [Nat.add_one_ne_zero, false_and, false_or, top, Nat.add_comm 1 n]
    rfl

end Definition

end TextScopes
