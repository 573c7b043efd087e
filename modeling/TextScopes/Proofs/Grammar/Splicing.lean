import TextScopes.Proofs.Grammar.Renumbering
import TextScopes.Proofs.Grammar.Sites

/-!
# Layouts with places put in

When a malformed entry is put among the entries of a rule, what it declares is laid out there, and
all that is laid out behind it gets other numbers (`gap`). An entry is wider than another when it is
laid out as that, with places put in somewhere and the others renumbered for them (`Entry.Widens`);
a row of entries is when the same holds of it, and the numbers of its well-formed entries are only
renumbered (`Entry.WidensRow`).

A row is wider with a malformed entry more (`Entry.WidensRow.insert`), or with a wider entry in
place of one (`Entry.WidensRow.replace`), and a rule is wider when one of its rows is. So the layout
of an entry is known from one malformed entry put in anywhere inside it. All that is needed of the
entries beside it is that their layout is the same but for the numbers (`Entry.slots_renumber`).
-/

namespace TextScopes

variable {E : Engine} {σ : String → Nat → Nat}

/-- Where a number comes to lie when `count` numbers are put in from `place` on. -/
def gap (place count n : Nat) : Nat := if n < place then n else n + count

/-- Numbers stay apart when others are put in. -/
theorem gap_injective (place count : Nat) : Function.Injective (gap place count) := by
  intro n m h
  unfold gap at h
  split at h <;> split at h <;> omega

/-- Numbers before the ones put in stay. -/
theorem gap_of_lt {place count n : Nat} (h : n < place) : gap place count n = n := if_pos h

/-- Numbers from the ones put in on make room for them. -/
theorem gap_of_le {place count n : Nat} (h : place ≤ n) : gap place count n = n + count :=
  if_neg (Nat.not_lt_of_le h)

/-- Behind a part in front numbers lie as they do without it. -/
theorem gap_add (front place count n : Nat) :
    gap (front + place) count (front + n) = front + gap place count n := by
  unfold gap
  split <;> split <;> omega

/-- Places are those of others that know one another by other numbers, with some put in between. -/
def Spliced (σ : String → Nat → Nat) (place count : Nat) (slots wider : List (Slot E)) :
    Prop :=
  ∃ front new back, slots = front ++ back ∧
    wider = front.map (Slot.renumber σ) ++ new ++ back.map (Slot.renumber σ) ∧
    front.length = place ∧ new.length = count

namespace Spliced

variable {place count : Nat} {slots wider : List (Slot E)}

/-- Other places stand around places and those put in among them. -/
theorem append (h : Spliced σ place count slots wider) (front back : List (Slot E)) :
    Spliced σ (front.length + place) count (front ++ slots ++ back)
      (front.map (Slot.renumber σ) ++ wider ++ back.map (Slot.renumber σ)) := by
  obtain ⟨before, new, after, rfl, rfl, rfl, rfl⟩ := h
  refine ⟨front ++ before, new, after ++ back, ?_, ?_, List.length_append, rfl⟩
  · simp only [List.append_assoc]
  · simp only [List.append_assoc, List.map_append]

/-- What is at a place is the same when others are put in, but for the numbers. -/
theorem getElem? (h : Spliced σ place count slots wider) {i : Nat} {slot : Slot E}
    (hslot : slots[i]? = some slot) : wider[gap place count i]? = some (slot.renumber σ) := by
  obtain ⟨front, new, back, rfl, rfl, rfl, rfl⟩ := h
  -- A place in front stays, and one behind moves by what is put in.
  rcases Entry.getElem?_append_iff.1 hslot with hfront | ⟨j, rfl, hback⟩
  · obtain ⟨hi, -⟩ := List.getElem?_eq_some_iff.1 hfront
    rw [gap_of_lt hi, List.append_assoc]
    refine Entry.getElem?_append_iff.2 (.inl ?_)
    rw [List.getElem?_map, hfront, Option.map_some]
  · rw [gap_of_le (Nat.le_add_right _ _)]
    refine Entry.getElem?_append_iff.2 (.inr ⟨j, ?_, ?_⟩)
    · rw [List.length_append, List.length_map]
      omega
    · rw [List.getElem?_map, hback, Option.map_some]

end Spliced

namespace Entry

/-! ### Rows and their numbers -/

/-- Two rows take the places of both. -/
theorem sizeNamed_append (front back : List (String × Entry E)) :
    size.sizeNamed (front ++ back) = size.sizeNamed front + size.sizeNamed back := by
  induction front with
  | nil => exact (Nat.zero_add _).symm
  | cons entry front ih => rw [List.cons_append, size.sizeNamed, size.sizeNamed, ih, Nat.add_assoc]

/-- Two rows are laid out one behind the other. -/
theorem slotsNamed_append (language : String) (first : Nat) (visible : List Repository)
    (front back : List (String × Entry E)) :
    slots.slotsNamed language first visible (front ++ back) =
      slots.slotsNamed language first visible front ++
        slots.slotsNamed language (first + size.sizeNamed front) visible back := by
  induction front generalizing first with
  | nil => rfl
  | cons entry front ih =>
    rw [List.cons_append, slots.slotsNamed, slots.slotsNamed, ih, size.sizeNamed, List.append_assoc,
      Nat.add_assoc]

/-- The entries of two rows have the numbers that they have in each. -/
theorem named_append (first : Nat) (front back : List (String × Entry E)) :
    named first (front ++ back) = named first front ++
      named (first + size.sizeNamed front) back := by
  induction front generalizing first with
  | nil => rfl
  | cons entry front ih =>
    rw [List.cons_append, named, named, size.sizeNamed, ih, Nat.add_assoc]
    split <;> rfl

/-- The entries of a row have the numbers to which those are carried that they have elsewhere. -/
theorem named_renumber {f : Nat → Nat} {first first' : Nat} (entries : List (String × Entry E))
    (hf : ∀ i < size.sizeNamed entries, f (first + i) = first' + i) :
    named first' entries = Repository.renumber f (named first entries) := by
  induction entries generalizing first first' with
  | nil => rfl
  | cons entry rest ih =>
    obtain ⟨key, e⟩ := entry
    rw [size.sizeNamed] at hf
    have hrest : named (first' + e.size) rest =
        Repository.renumber f (named (first + e.size) rest) :=
      ih fun i hi => by
        rw [Nat.add_assoc, Nat.add_assoc]
        exact hf (e.size + i) (by omega)
    rw [named, named, hrest]
    -- The number is that of the last place of the entry, and moves with it.
    split
    · next hwell =>
      have hpos := size_pos hwell
      have hnumber := hf (e.size - 1) (by omega)
      rw [Repository.renumber_cons, Nat.add_sub_assoc hpos, Nat.add_sub_assoc hpos, hnumber]
    · rfl

/-- The entries of a list, as a row without keys. -/
def unnamed (es : List (Entry E)) : List (String × Entry E) := es.map fun e => ("", e)

/-- A list of entries takes the places that it takes as a row. -/
theorem sizeAll_eq (es : List (Entry E)) : size.sizeAll es = size.sizeNamed (unnamed es) := by
  rw [sizeNamed_eq, unnamed, List.map_map]
  exact congrArg _ (List.map_id es).symm

/-- A list of entries is laid out as a row. -/
theorem slotsAll_eq (language : String) (first : Nat) (visible : List Repository)
    (es : List (Entry E)) :
    slots.slotsAll language first visible es =
      slots.slotsNamed language first visible (unnamed es) := by
  rw [slotsNamed_eq, unnamed, List.map_map]
  exact congrArg _ (List.map_id es).symm

/-- The numbers of a list of entries are those of the row. -/
theorem numbers_eq (first : Nat) (es : List (Entry E)) :
    numbers first es = (named first (unnamed es)).map (·.2) := by
  induction es generalizing first with
  | nil => rfl
  | cons e rest ih =>
    rw [unnamed, List.map_cons, named, numbers, ih]
    split <;> rfl

/-- The rules of a list of entries are known by the numbers to which theirs are carried. -/
theorem map_renumber_numbers {language : String} {first first' : Nat} {es wider : List (Entry E)}
    (h : named first' (unnamed wider) =
      Repository.renumber (σ language) (named first (unnamed es))) :
    (numbers first' wider).map (RuleId.mk language) =
      ((numbers first es).map (RuleId.mk language)).map (RuleId.renumber σ) := by
  rw [numbers_eq, numbers_eq, h, Repository.renumber, List.map_map, List.map_map, List.map_map,
    List.map_map]
  rfl

/-! ### Layouts under other numbers -/

mutual

/-- Laid out from elsewhere, an entry gets the same places, but for the numbers. -/
theorem slots_renumber (language : String) (visible : List Repository) :
    (e : Entry E) → (first first' : Nat) →
      (∀ i < e.size, σ language (first + i) = first' + i) →
      slots language first' (visible.map (Repository.renumber (σ language))) e =
        (slots language first visible e).map (Slot.renumber σ)
  | .link _, _, _, _ => rfl
  -- Without a kind only the repository has places.
  | .rule _ none _ repository, first, first', hσ => by
    simp only [size] at hσ
    simp only [slots, named_renumber repository hσ]
    exact slotsNamed_renumber language (named first repository :: visible) repository
      first first' hσ
  -- The repository and the patterns are carried as parts of the entry.
  | .rule _ (some kind) patterns repository, first, first', hσ => by
    simp only [size] at hσ
    have hrepository : ∀ i < size.sizeNamed repository, σ language (first + i) = first' + i :=
      fun i hi => hσ i (by omega)
    have hpatterns : ∀ i < size.sizeAll patterns,
        σ language (first + size.sizeNamed repository + i) =
          first' + size.sizeNamed repository + i := by
      intro i hi
      rw [Nat.add_assoc, Nat.add_assoc]
      exact hσ _ (by omega)
    have hnumbers := map_renumber_numbers
      (named_renumber (unnamed patterns) (sizeAll_eq patterns ▸ hpatterns))
    have hinner :=
      slotsNamed_renumber language (named first repository :: visible) repository first first'
      hrepository
    have hheld :=
      slotsAll_renumber language (named first repository :: visible) patterns _ _ hpatterns
    rw [List.map_cons, ← named_renumber repository hrepository] at hinner hheld
    simp only [slots, List.map_append, hinner, hheld, hnumbers]
    rfl

/-- Laid out from elsewhere, the entries of a list get the same places, but for the numbers. -/
theorem slotsAll_renumber (language : String) (visible : List Repository) :
    (es : List (Entry E)) → (first first' : Nat) →
      (∀ i < size.sizeAll es, σ language (first + i) = first' + i) →
      slots.slotsAll language first' (visible.map (Repository.renumber (σ language))) es =
        (slots.slotsAll language first visible es).map (Slot.renumber σ)
  | [], _, _, _ => rfl
  | e :: rest, first, first', hσ => by
    simp only [size.sizeAll] at hσ
    simp only [slots.slotsAll, List.map_append]
    rw [slots_renumber language visible e first first' fun i hi => hσ i (by omega),
      slotsAll_renumber language visible rest (first + e.size) (first' + e.size) fun i hi => by
        rw [Nat.add_assoc, Nat.add_assoc]
        exact hσ _ (by omega)]

/-- Laid out from elsewhere, the entries of a repository get the same places, but for the
numbers. -/
theorem slotsNamed_renumber (language : String) (visible : List Repository) :
    (es : List (String × Entry E)) → (first first' : Nat) →
      (∀ i < size.sizeNamed es, σ language (first + i) = first' + i) →
      slots.slotsNamed language first' (visible.map (Repository.renumber (σ language))) es =
        (slots.slotsNamed language first visible es).map (Slot.renumber σ)
  | [], _, _, _ => rfl
  | (_, e) :: rest, first, first', hσ => by
    simp only [size.sizeNamed] at hσ
    simp only [slots.slotsNamed, List.map_append]
    rw [slots_renumber language visible e first first' fun i hi => hσ i (by omega),
      slotsNamed_renumber language visible rest (first + e.size) (first' + e.size) fun i hi => by
        rw [Nat.add_assoc, Nat.add_assoc]
        exact hσ _ (by omega)]

end

/-! ### Wider entries and rows -/

/-- An entry takes `count` places more than another, from a place of that on. Its own place, if it
has one, comes behind them. -/
structure Widens (place count : Nat) (e wider : Entry E) : Prop where
  isWellFormed_eq : wider.isWellFormed = e.isWellFormed
  size_eq : wider.size = e.size + count
  place_le : place ≤ e.size
  place_lt : e.isWellFormed = true → place < e.size
  spliced : ∀ (σ : String → Nat → Nat) (language : String) (first : Nat)
    (visible : List Repository),
    (∀ i < e.size, σ language (first + i) = first + gap place count i) →
    Spliced σ place count (slots language first visible e)
      (slots language first (visible.map (Repository.renumber (σ language))) wider)

/-- A row of entries takes `count` places more than another, from a place of that on, and its
well-formed entries are those of the other. -/
structure WidensRow (place count : Nat) (entries wider : List (String × Entry E)) : Prop where
  size_eq : size.sizeNamed wider = size.sizeNamed entries + count
  place_le : place ≤ size.sizeNamed entries
  named_eq : ∀ (f : Nat → Nat) (first : Nat),
    (∀ i < size.sizeNamed entries, f (first + i) = first + gap place count i) →
    named first wider = Repository.renumber f (named first entries)
  spliced : ∀ (σ : String → Nat → Nat) (language : String) (first : Nat)
    (visible : List Repository),
    (∀ i < size.sizeNamed entries, σ language (first + i) = first + gap place count i) →
    Spliced σ place count (slots.slotsNamed language first visible entries)
      (slots.slotsNamed language first (visible.map (Repository.renumber (σ language))) wider)

variable {place count : Nat} {e wider : Entry E} {key : String}

/-- An entry is as wide as it is. -/
theorem Widens.refl (e : Entry E) : Widens 0 0 e e where
  isWellFormed_eq := rfl
  size_eq := rfl
  place_le := Nat.zero_le _
  place_lt := size_pos
  spliced _ language first visible hσ :=
    ⟨[], [], _, rfl, slots_renumber language visible e first first hσ, rfl, rfl⟩

/-- A row of one entry takes the places of the entry. -/
theorem sizeNamed_single (key : String) (e : Entry E) : size.sizeNamed [(key, e)] = e.size :=
  Nat.add_zero _

/-- A row of one entry is laid out as the entry. -/
theorem slotsNamed_single (language : String) (first : Nat) (visible : List Repository)
    (key : String) (e : Entry E) :
    slots.slotsNamed language first visible [(key, e)] = slots language first visible e :=
  List.append_nil _

namespace WidensRow

variable {entries widerEntries : List (String × Entry E)}

/-- A row of one entry is wider when the entry is. -/
theorem single (key : String) (h : Widens place count e wider) :
    WidensRow place count [(key, e)] [(key, wider)] := by
  -- The size, the bound, the numbers, and the places.
  refine ⟨?_, ?_, fun f first hf => ?_, fun σ language first visible hσ => ?_⟩
  · rw [sizeNamed_single, sizeNamed_single, h.size_eq]
  · rw [sizeNamed_single]
    exact h.place_le
  · rw [sizeNamed_single] at hf
    rw [named, named, named, named, h.isWellFormed_eq, h.size_eq]
    split
    · next hwell =>
      -- The entry's own number is behind the places that are put in.
      have hlt := h.place_lt hwell
      have hnumber := hf (e.size - 1) (by omega)
      rw [gap_of_le (by omega)] at hnumber
      rw [Repository.renumber_cons, Nat.add_sub_assoc (Nat.zero_lt_of_lt hlt), hnumber]
      have heq : first + (e.size + count) - 1 = first + (e.size - 1 + count) := by omega
      rw [heq]
      rfl
    · rfl
  · rw [sizeNamed_single] at hσ
    rw [slotsNamed_single, slotsNamed_single]
    exact h.spliced σ language first visible hσ

/-- A row is as wide as it is. -/
theorem refl (entries : List (String × Entry E)) : WidensRow 0 0 entries entries where
  size_eq := rfl
  place_le := Nat.zero_le _
  named_eq _ _ hf := named_renumber entries hf
  spliced _ language first visible hσ :=
    ⟨[], [], _, rfl, slotsNamed_renumber language visible entries first first hσ, rfl, rfl⟩

/-- A row of no entry is wider with a malformed one. -/
theorem malformed (key : String) (hbad : e.isWellFormed = false) :
    WidensRow 0 e.size [] [(key, e)] := by
  refine ⟨?_, Nat.le_refl 0, fun f first _ => ?_, fun _ language first visible _ => ?_⟩
  · rw [sizeNamed_single]
    exact (Nat.zero_add _).symm
  · rw [named, named, named, hbad, if_neg Bool.false_ne_true]
    rfl
  · rw [slotsNamed_single]
    exact ⟨[], _, [], rfl, (List.append_nil _).symm, rfl, length_slots _ _ _ _⟩

/-- A row is wider when a part of it is. -/
theorem append (h : WidensRow place count entries widerEntries)
    (front back : List (String × Entry E)) :
    WidensRow (size.sizeNamed front + place) count (front ++ entries ++ back)
      (front ++ widerEntries ++ back) := by
  have hplace := h.place_le
  -- Each part of the row is carried to where it lies in the wider one.
  have hparts : ∀ {f : Nat → Nat} {first : Nat},
      (∀ i < size.sizeNamed (front ++ entries ++ back),
        f (first + i) = first + gap (size.sizeNamed front + place) count i) →
      (∀ i < size.sizeNamed front, f (first + i) = first + i) ∧
      (∀ i < size.sizeNamed entries, f (first + size.sizeNamed front + i) =
        first + size.sizeNamed front + gap place count i) ∧
      ∀ i < size.sizeNamed back, f (first + size.sizeNamed (front ++ entries) + i) =
        first + size.sizeNamed (front ++ widerEntries) + i := by
    intro f first hf
    simp only [sizeNamed_append] at hf ⊢
    refine ⟨fun i hi => ?_, fun i hi => ?_, fun i hi => ?_⟩
    · rw [hf i (by omega), gap_of_lt (by omega)]
    · rw [Nat.add_assoc, hf _ (by omega), gap_add, Nat.add_assoc]
    · rw [Nat.add_assoc, hf _ (by omega), gap_of_le (by omega), h.size_eq]
      omega
  -- As each part of the row goes, so goes the row.
  refine ⟨?_, ?_, fun f first hf => ?_, fun σ language first visible hσ => ?_⟩
  · simp only [sizeNamed_append, h.size_eq]
    omega
  · simp only [sizeNamed_append]
    omega
  · obtain ⟨hfront, hentries, hback⟩ := hparts hf
    simp only [named_append _ _ back, named_append _ front, Repository.renumber_append]
    rw [named_renumber back hback, h.named_eq f _ hentries, ← named_renumber front hfront]
  · obtain ⟨hfront, hentries, hback⟩ := hparts hσ
    have hspliced := (h.spliced σ language _ visible hentries).append
      (slots.slotsNamed language first visible front)
      (slots.slotsNamed language (first + size.sizeNamed (front ++ entries)) visible back)
    rw [← slotsNamed_renumber language visible front first first hfront,
      ← slotsNamed_renumber language visible back _ _ hback, length_slotsNamed] at hspliced
    simpa only [slotsNamed_append] using hspliced

/-- A row is wider with a malformed entry more. -/
theorem insert (front back : List (String × Entry E)) (key : String)
    (hbad : e.isWellFormed = false) :
    WidensRow (size.sizeNamed front) e.size (front ++ back) (front ++ (key, e) :: back) := by
  have h := (malformed key hbad).append front back
  rw [List.append_nil, List.append_assoc] at h
  exact h

/-- A row is wider with a wider entry in place of one. -/
theorem replace (h : Widens place count e wider) (front back : List (String × Entry E))
    (key : String) :
    WidensRow (size.sizeNamed front + place) count (front ++ (key, e) :: back)
      (front ++ (key, wider) :: back) := by
  have h := (single key h).append front back
  rw [List.append_assoc, List.append_assoc] at h
  exact h

end WidensRow

/-! ### Wider rules -/

/-- The places of what a rule declares: the entries of its repository, and behind them
those that it holds. -/
def body (language : String) (first : Nat) (visible : List Repository) (patterns : List (Entry E))
    (repository : List (String × Entry E)) : List (Slot E) :=
  slots.slotsNamed language first (named first repository :: visible) repository ++
    slots.slotsAll language (first + size.sizeNamed repository)
      (named first repository :: visible) patterns

/-- What a rule declares takes `count` places more than what another does, from a place of that on,
and its well-formed entries are those of the other. -/
structure WidensBody (place count : Nat) (patterns : List (Entry E))
    (repository : List (String × Entry E))
    (widerPatterns : List (Entry E)) (widerRepository : List (String × Entry E)) : Prop where
  size_eq : size.sizeNamed widerRepository + size.sizeAll widerPatterns =
    size.sizeNamed repository + size.sizeAll patterns + count
  place_le : place ≤ size.sizeNamed repository + size.sizeAll patterns
  named_eq : ∀ (f : Nat → Nat) (first : Nat),
    (∀ i < size.sizeNamed repository + size.sizeAll patterns,
      f (first + i) = first + gap place count i) →
    named first widerRepository = Repository.renumber f (named first repository)
  numbers_eq : ∀ (σ : String → Nat → Nat) (language : String) (first : Nat),
    (∀ i < size.sizeNamed repository + size.sizeAll patterns,
      σ language (first + i) = first + gap place count i) →
    (numbers (first + size.sizeNamed widerRepository) widerPatterns).map (RuleId.mk language) =
      ((numbers (first + size.sizeNamed repository) patterns).map (RuleId.mk language)).map
        (RuleId.renumber σ)
  spliced : ∀ (σ : String → Nat → Nat) (language : String) (first : Nat)
    (visible : List Repository),
    (∀ i < size.sizeNamed repository + size.sizeAll patterns,
      σ language (first + i) = first + gap place count i) →
    Spliced σ place count (body language first visible patterns repository)
      (body language first (visible.map (Repository.renumber (σ language))) widerPatterns
        widerRepository)

variable {name : Option String} {patterns widerPatterns : List (Entry E)}
  {repository widerRepository : List (String × Entry E)}

/-- A rule declares more when its repository is wider. -/
theorem WidensBody.of_repository (h : WidensRow place count repository widerRepository)
    (patterns : List (Entry E)) :
    WidensBody place count patterns repository patterns widerRepository := by
  have hplace := h.place_le
  have hsize := h.size_eq
  -- What the rule holds lies behind the places that are put in.
  have hparts : ∀ {f : Nat → Nat} {first : Nat},
      (∀ i < size.sizeNamed repository + size.sizeAll patterns,
        f (first + i) = first + gap place count i) →
      (∀ i < size.sizeNamed repository, f (first + i) = first + gap place count i) ∧
      ∀ i < size.sizeAll patterns, f (first + size.sizeNamed repository + i) =
        first + size.sizeNamed widerRepository + i := by
    refine fun hf => ⟨fun i hi => hf i (by omega), fun i hi => ?_⟩
    rw [Nat.add_assoc, hf _ (by omega), gap_of_le (by omega), hsize]
    omega
  refine ⟨by omega, by omega, fun f first hf => h.named_eq f first (hparts hf).1,
    fun σ language first hσ => ?_, fun σ language first visible hσ => ?_⟩
  · have hbehind := (hparts hσ).2
    rw [sizeAll_eq] at hbehind
    exact map_renumber_numbers (named_renumber (unnamed patterns) hbehind)
  · obtain ⟨hinside, hbehind⟩ := hparts hσ
    have hspliced :=
      (h.spliced σ language first (named first repository :: visible) hinside).append []
      (slots.slotsAll language (first + size.sizeNamed repository)
        (named first repository :: visible)
        patterns)
    rw [← slotsAll_renumber language _ patterns _ _ hbehind, List.map_cons,
      ← h.named_eq _ first hinside, List.length_nil, Nat.zero_add] at hspliced
    exact hspliced

/-- A rule declares more when the row that it holds is wider. -/
theorem WidensBody.of_patterns
    (h : WidensRow place count (unnamed patterns) (unnamed widerPatterns))
    (repository : List (String × Entry E)) :
    WidensBody (size.sizeNamed repository + place) count patterns repository widerPatterns
      repository := by
  have hplace := h.place_le
  have hsize := h.size_eq
  rw [← sizeAll_eq] at hplace hsize
  rw [← sizeAll_eq] at hsize
  -- The repository lies in front of the places that are put in.
  have hparts : ∀ {f : Nat → Nat} {first : Nat},
      (∀ i < size.sizeNamed repository + size.sizeAll patterns,
        f (first + i) = first + gap (size.sizeNamed repository + place) count i) →
      (∀ i < size.sizeNamed repository, f (first + i) = first + i) ∧
      ∀ i < size.sizeNamed (unnamed patterns), f (first + size.sizeNamed repository + i) =
        first + size.sizeNamed repository + gap place count i := by
    refine fun hf => ⟨fun i hi => ?_, fun i hi => ?_⟩
    · rw [hf i (by omega), gap_of_lt (by omega)]
    · rw [← sizeAll_eq] at hi
      rw [Nat.add_assoc, hf _ (by omega), gap_add, Nat.add_assoc]
  refine ⟨by omega, by omega, fun f first hf => named_renumber repository (hparts hf).1,
    fun σ language first hσ => ?_, fun σ language first visible hσ => ?_⟩
  · exact map_renumber_numbers (h.named_eq (σ language) _ (hparts hσ).2)
  · obtain ⟨hfront, hinside⟩ := hparts hσ
    have hspliced := (h.spliced σ language _ (named first repository :: visible) hinside).append
      (slots.slotsNamed language first (named first repository :: visible) repository) []
    rw [← slotsNamed_renumber language _ repository _ _ hfront, List.map_cons,
      ← named_renumber repository hfront, length_slotsNamed, List.append_nil, List.map_nil,
      List.append_nil, ← slotsAll_eq, ← slotsAll_eq] at hspliced
    exact hspliced

/-- A rule is wider when it declares more. -/
theorem Widens.of_body
    (h : WidensBody place count patterns repository widerPatterns widerRepository)
    (name : Option String) (kind : Kind E) : Widens place count
      (.rule name (some kind) patterns repository)
      (.rule name (some kind) widerPatterns widerRepository) := by
  have hplace := h.place_le
  refine ⟨rfl, ?_, ?_, fun _ => ?_, fun σ language first visible hσ => ?_⟩
  · rw [size, size, h.size_eq]
    omega
  · rw [size]
    omega
  · rw [size]
    omega
  · -- The rule's own place comes last, behind all that is put in.
    simp only [size] at hσ
    have hinside := fun i (hi : i < size.sizeNamed repository + size.sizeAll patterns) =>
      hσ i (by omega)
    have hspliced := (h.spliced σ language first visible hinside).append []
      [.rule ⟨name, kind, (numbers (first + size.sizeNamed repository) patterns).map
        (RuleId.mk language)⟩]
    rw [List.length_nil, Nat.zero_add] at hspliced
    simp only [slots, h.numbers_eq σ language first hinside]
    exact hspliced

/-- A malformed rule is wider when its repository is, whatever it holds. -/
theorem Widens.of_repository (h : WidensRow place count repository widerRepository)
    (name : Option String) (patterns widerPatterns : List (Entry E)) : Widens place count
      (.rule name none patterns repository) (.rule name none widerPatterns widerRepository) := by
  refine ⟨rfl, h.size_eq, h.place_le, fun hwell => (nomatch hwell),
    fun σ language first visible hσ => ?_⟩
  simp only [size] at hσ
  have hspliced := h.spliced σ language first (named first repository :: visible) hσ
  rw [List.map_cons, ← h.named_eq _ first hσ] at hspliced
  exact hspliced

end Entry

end TextScopes
