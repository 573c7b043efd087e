import Mathlib
import TextScopes.Theme.Basic
import TextScopes.Proofs.Theme.Attributes
import TextScopes.Proofs.Store.Queries

/-!
# The runs of a text under a theme

A theme parts a text into runs. They tile it: each starts where the one before it stops, none is
empty, and the last stops where the text does. Each shows at every byte how that byte looks, and no
two neighbours look the same (`Theme.runs_partition`). How a byte looks is told setting by setting:
what the innermost scope over it says that says anything about the setting, the scope of the whole
text included (`Theme.get?_attributesAt`).

The runs are first cut at every place where a scope starts or stops. Between two such places no
scope begins or ends to cover a byte, so that the stack is one and the same there
(`Theme.stack_eq_of_mem_spansBetween`). Then neighbours that look the same are joined; as being the
same is symmetric and transitive, what is joined shows at each of its bytes what one of its parts
does, and ends the same neighbourhoods.
-/

namespace TextScopes

namespace Attributes

/-- Identical, or the same in comparison. Sizes that are no number are only the former, the two
zeros only the latter. -/
def Alike (a b : Attributes) : Prop := a = b ∨ a.same b = true

/-- What is the same as something is alike to what that is alike to. -/
theorem Alike.of_same {a b c : Attributes} (hab : a.same b = true) (hbc : b.Alike c) :
    a.Alike c := by
  rcases hbc with rfl | hbc
  · exact .inr hab
  · exact .inr (same_trans hab hbc)

end Attributes

namespace Theme

variable {store : Store} {look : Nat → Attributes} {runs : List Run} {start stop offset : Nat}

/-- Runs with a byte each that follow each other from one offset to another. -/
def Tiles : Nat → List Run → Nat → Prop
  | start, [], stop => start = stop
  | start, run :: runs, stop =>
    run.span.start = start ∧ run.span.start < run.span.stop ∧ Tiles run.span.stop runs stop

namespace Tiles

/-- Runs do not end before they start. -/
theorem le (h : Tiles start runs stop) : start ≤ stop := by
  induction runs generalizing start with
  | nil => exact Nat.le_of_eq h
  | cons run runs ih =>
    obtain ⟨rfl, hlt, hrest⟩ := h
    exact Nat.le_trans (Nat.le_of_lt hlt) (ih hrest)

/-- There are no runs just where there is nothing to part. -/
theorem eq_nil_iff (h : Tiles start runs stop) : runs = [] ↔ start = stop := by
  cases runs with
  | nil => exact iff_of_true rfl h
  | cons run runs =>
    obtain ⟨rfl, hlt, hrest⟩ := h
    exact iff_of_false (List.cons_ne_nil _ _) (Nat.ne_of_lt (Nat.lt_of_lt_of_le hlt hrest.le))

/-- Every offset from the first to the last lies in a run. -/
theorem exists_covers (h : Tiles start runs stop) (hstart : start ≤ offset)
    (hstop : offset < stop) :
    ∃ run ∈ runs, run.span.covers offset = true := by
  induction runs generalizing start with
  | nil => exact absurd (h ▸ hstop) (Nat.not_lt.2 hstart)
  | cons run runs ih =>
    obtain ⟨rfl, hlt, hrest⟩ := h
    by_cases hin : offset < run.span.stop
    · exact ⟨run, List.mem_cons_self, (Span.covers_iff _ _).2 ⟨hstart, hin⟩⟩
    · obtain ⟨found, hfound, hcovers⟩ := ih hrest (Nat.le_of_not_lt hin)
      exact ⟨found, List.mem_cons_of_mem _ hfound, hcovers⟩

end Tiles

/-- The run has the look of its first byte, and every byte of it looks alike. -/
structure Run.Shows (look : Nat → Attributes) (run : Run) : Prop where
  first : run.attributes = look run.span.start
  alike : ∀ offset, run.span.covers offset = true → run.attributes.Alike (look offset)

/-- Joining keeps what the runs cover. -/
theorem Tiles.joinRuns (h : Tiles start runs stop) : Tiles start (Theme.joinRuns runs) stop := by
  fun_induction Theme.joinRuns runs generalizing start with
  | case1 => exact h
  | case2 run rest hnil ih =>
    obtain ⟨hstart, hlt, hrest⟩ := h
    exact ⟨hstart, hlt, hnil ▸ ih hrest⟩
  -- The joined run reaches from the start of the first to the stop of the second.
  | case3 run rest next joined hcons hsame ih =>
    obtain ⟨hstart, hlt, hrest⟩ := h
    have hjoined := ih hrest
    rw [hcons] at hjoined
    obtain ⟨hnext, hlt', hjoined⟩ := hjoined
    exact ⟨hstart, Nat.lt_trans hlt (hnext ▸ hlt'), hjoined⟩
  -- The two stay apart.
  | case4 run rest next joined hcons hsame ih =>
    obtain ⟨hstart, hlt, hrest⟩ := h
    exact ⟨hstart, hlt, hcons ▸ ih hrest⟩

/-- Joined runs show what their parts do. -/
theorem Tiles.shows_joinRuns (h : Tiles start runs stop)
    (hshows : ∀ run ∈ runs, run.Shows look) :
    ∀ run ∈ Theme.joinRuns runs, run.Shows look := by
  fun_induction Theme.joinRuns runs generalizing start with
  | case1 => exact hshows
  | case2 run rest hnil ih => exact List.forall_mem_singleton.2 (hshows run List.mem_cons_self)
  | case3 run rest next joined hcons hsame ih =>
    obtain ⟨-, -, hrest⟩ := h
    obtain ⟨hrun, hshows⟩ := List.forall_mem_cons.1 hshows
    have hjoined := ih hrest hshows
    have htiles := hrest.joinRuns
    rw [hcons] at hjoined htiles
    obtain ⟨hnext, hjoined⟩ := List.forall_mem_cons.1 hjoined
    refine List.forall_mem_cons.2 ⟨⟨hrun.first, fun offset hcovers => ?_⟩, hjoined⟩
    -- The two parts touch, so that the offset is in one of them.
    have htouch : next.span.start = run.span.stop := htiles.1
    obtain ⟨hfirst, hlast⟩ := (Span.covers_iff _ _).1 hcovers
    by_cases hin : offset < run.span.stop
    · exact hrun.alike offset ((Span.covers_iff _ _).2 ⟨hfirst, hin⟩)
    · refine (hnext.alike offset ((Span.covers_iff _ _).2 ?_)).of_same hsame
      rw [htouch]
      exact ⟨Nat.le_of_not_lt hin, hlast⟩
  | case4 run rest next joined hcons hsame ih =>
    obtain ⟨-, -, hrest⟩ := h
    obtain ⟨hrun, hshows⟩ := List.forall_mem_cons.1 hshows
    exact List.forall_mem_cons.2 ⟨hrun, hcons ▸ ih hrest hshows⟩

/-- No two neighbours look the same once they are joined. -/
theorem isChain_joinRuns (runs : List Run) :
    (joinRuns runs).IsChain fun a b => a.attributes.same b.attributes = false := by
  fun_induction joinRuns runs with
  | case1 => exact .nil
  | case2 run rest hnil ih => exact .singleton run
  -- The joined run looks like the second, and so differs from what follows as that does.
  | case3 run rest next joined hcons hsame ih =>
    rw [hcons, List.isChain_cons] at ih
    obtain ⟨hnext, hjoined⟩ := ih
    refine List.isChain_cons.2 ⟨fun other hother => ?_, hjoined⟩
    rw [← hnext other hother, Bool.eq_iff_iff]
    exact ⟨Attributes.same_trans (Attributes.same_symm hsame), Attributes.same_trans hsame⟩
  | case4 run rest next joined hcons hsame ih =>
    rw [hcons] at ih
    exact .cons_cons (Bool.not_eq_true _ ▸ hsame) ih

/-- Taking every offset once keeps which there are. -/
theorem mem_distinct {offsets : List Nat} : offset ∈ distinct offsets ↔ offset ∈ offsets := by
  fun_induction distinct offsets with
  | case1 a rest ih => simp [ih]
  | case2 a b rest hne ih => rw [List.mem_cons, ih, ← List.mem_cons]
  | case3 => rfl

/-- Offsets in order ascend when each is taken once. -/
theorem pairwise_distinct {offsets : List Nat} (h : offsets.Pairwise (· ≤ ·)) :
    (distinct offsets).Pairwise (· < ·) := by
  fun_induction distinct offsets with
  | case1 a rest ih => exact ih h.tail
  | case2 a b rest hne ih =>
    obtain ⟨hfirst, hrest⟩ := List.pairwise_cons.1 h
    have hlt : a < b := Nat.lt_of_le_of_ne (hfirst b List.mem_cons_self) hne
    refine List.pairwise_cons.2 ⟨fun c hc => ?_, ih hrest⟩
    rcases List.mem_cons.1 (mem_distinct.1 hc) with rfl | hc
    · exact hlt
    · exact Nat.lt_of_lt_of_le hlt (List.rel_of_pairwise_cons hrest hc)
  -- Less than two offsets are left as they are.
  | case3 offsets hshort =>
    rcases offsets with _ | ⟨a, _ | ⟨b, rest⟩⟩
    · exact .nil
    · exact List.pairwise_singleton _ a
    · exact absurd rfl (hshort a b rest)

/-- The boundaries are the two ends of the text and those of every scope. -/
theorem mem_boundaries : offset ∈ boundaries store ↔ offset = 0 ∨ offset = store.length ∨
    ∃ x ∈ store.toList, offset = x.2.span.start ∨ offset = x.2.span.stop := by
  unfold boundaries
  simp [mem_distinct]

/-- The boundaries ascend. -/
theorem pairwise_boundaries (store : Store) : (boundaries store).Pairwise (· < ·) := by
  unfold boundaries
  refine pairwise_distinct ?_
  generalize 0 :: store.length :: _ = ends
  have hsorted : (ends.mergeSort (· ≤ ·)).Pairwise fun a b => decide (a ≤ b) = true := by
    refine List.pairwise_mergeSort (fun a b c hab hbc => ?_) (fun a b => ?_) _
    · rw [decide_eq_true_eq] at *
      exact Nat.le_trans hab hbc
    · rw [Bool.or_eq_true, decide_eq_true_eq, decide_eq_true_eq]
      exact Nat.le_total a b
  exact hsorted.imp fun h => of_decide_eq_true h

/-- No boundary of a sound store lies behind its text. -/
theorem le_length_of_mem_boundaries (h : store.Sound) (hmem : offset ∈ boundaries store) :
    offset ≤ store.length := by
  rcases mem_boundaries.1 hmem with rfl | rfl | ⟨x, hx, hend⟩
  · exact Nat.zero_le _
  · exact Nat.le_refl _
  · have hshown := h.holds.shown hx
    have hinside := h.inside x hx
    omega

/-- The spans between ascending offsets tile what lies from the first to the last. -/
theorem tiles_spansBetween {offsets : List Nat} (hsorted : (start :: offsets).Pairwise (· < ·))
    (hstop : stop ∈ start :: offsets) (hle : ∀ offset ∈ start :: offsets, offset ≤ stop) :
    Tiles start ((spansBetween (start :: offsets)).map fun span => ⟨span, look span.start⟩)
      stop := by
  induction offsets generalizing start with
  | nil => exact (List.mem_singleton.1 hstop).symm
  | cons next offsets ih =>
    have hlt : start < next := List.rel_of_pairwise_cons hsorted List.mem_cons_self
    obtain ⟨-, hle⟩ := List.forall_mem_cons.1 hle
    refine ⟨rfl, hlt, ih hsorted.tail ?_ hle⟩
    -- The stop is not the first offset, since the next one lies behind it.
    refine (List.mem_cons.1 hstop).resolve_left fun heq => ?_
    exact absurd (hle next List.mem_cons_self) (heq ▸ Nat.not_le.2 hlt)

/-- A span between neighbours starts at one of the offsets. -/
theorem start_mem_of_mem_spansBetween {offsets : List Nat} {span : Span}
    (h : span ∈ spansBetween offsets) : span.start ∈ offsets := by
  fun_induction spansBetween offsets with
  | case1 a b rest ih =>
    rcases List.mem_cons.1 h with rfl | h
    · exact List.mem_cons_self
    · exact List.mem_cons_of_mem _ (ih h)
  | case2 => cases h

/-- None of the offsets lies strictly inside a span between two neighbours. -/
theorem le_or_le_of_mem_spansBetween {offsets : List Nat} (hsorted : offsets.Pairwise (· < ·))
    {span : Span} (hspan : span ∈ spansBetween offsets) (hmem : offset ∈ offsets) :
    offset ≤ span.start ∨ span.stop ≤ offset := by
  fun_induction spansBetween offsets with
  | case1 a b rest ih =>
    obtain ⟨hfirst, hrest⟩ := List.pairwise_cons.1 hsorted
    rcases List.mem_cons.1 hspan with rfl | hspan'
    · -- A span behind the first one starts where that stops, or later.
      rcases List.mem_cons.1 hmem with rfl | hmem
      · exact .inl (Nat.le_refl _)
      · rcases List.mem_cons.1 hmem with rfl | hmem
        · exact .inr (Nat.le_refl _)
        · exact .inr (Nat.le_of_lt (List.rel_of_pairwise_cons hrest hmem))
    · rcases List.mem_cons.1 hmem with rfl | hmem
      · exact .inl (Nat.le_of_lt (hfirst _ (start_mem_of_mem_spansBetween hspan')))
      · exact ih hrest hspan' hmem
  | case2 => cases hspan

/-- Between neighbouring boundaries of a sound store the stack does not change. -/
theorem stack_eq_of_mem_spansBetween (h : store.Sound) {span : Span}
    (hspan : span ∈ spansBetween (boundaries store)) (hcovers : span.covers offset = true) :
    store.stack offset = store.stack span.start := by
  rw [Span.covers_iff] at hcovers
  rw [h.stack_eq, h.stack_eq]
  congr 2
  refine List.filter_congr fun x hx => ?_
  -- Each end of an entry is a boundary, and no boundary lies inside the span.
  have hend : ∀ edge, edge = x.2.span.start ∨ edge = x.2.span.stop →
      edge ≤ span.start ∨ span.stop ≤ edge := fun edge hedge =>
    le_or_le_of_mem_spansBetween (pairwise_boundaries store) hspan
      (mem_boundaries.2 (.inr (.inr ⟨x, hx, hedge⟩)))
  have hstart := hend _ (.inl rfl)
  have hstop := hend _ (.inr rfl)
  rw [Bool.eq_iff_iff, Span.covers_iff, Span.covers_iff]
  omega

/-- What a byte looks like in one setting is what the innermost scope over it says that says
anything of it; the scope of the whole text is the last that is asked. -/
theorem get?_attributesAt (theme : Theme) (h : store.Sound) (offset : Nat) (setting : Setting) :
    (theme.attributesAt store offset).get? setting = (store.stack offset).reverse.findSome?
      fun scope => (theme.attributesFor? scope.name).bind (·.get? setting) := by
  -- What the global settings say is what the theme says of the global scope.
  have hbase : (theme.globalSettings?.getD .empty).get? setting =
      (theme.attributesFor? Scope.globalName).bind (·.get? setting) := by
    unfold globalSettings?
    cases theme.attributesFor? Scope.globalName with
    | none => exact Attributes.get?_empty setting
    | some attributes => rfl
  unfold attributesAt
  rw [Attributes.get?_foldl_override, ← List.filterMap_reverse, ← List.head?_filterMap,
    List.filterMap_filterMap, List.head?_filterMap, hbase]
  -- The global scope is at the bottom of the stack, so that it is asked before the base is.
  unfold Store.stack
  rw [List.reverse_cons, List.findSome?_append, List.findSome?_singleton, Option.or_assoc,
    h.spanned]
  exact congrArg _ Option.or_self

/-- The pieces of a text between neighbouring boundaries, each with the look of its start. -/
def pieces (theme : Theme) (store : Store) : List Run :=
  (spansBetween (boundaries store)).map fun span => ⟨span, theme.attributesAt store span.start⟩

/-- The first boundary is the start of the text. -/
theorem exists_boundaries_eq (store : Store) : ∃ offsets, boundaries store = 0 :: offsets := by
  have hzero : 0 ∈ boundaries store := mem_boundaries.2 (.inl rfl)
  have hsorted := pairwise_boundaries store
  cases hcases : boundaries store with
  | nil =>
    rw [hcases] at hzero
    cases hzero
  | cons first offsets =>
    rw [hcases] at hzero hsorted
    -- Zero is a boundary, and none lies before it.
    rcases List.mem_cons.1 hzero with rfl | hmem
    · exact ⟨offsets, rfl⟩
    · exact absurd (List.rel_of_pairwise_cons hsorted hmem) (Nat.not_lt_zero _)

/-- The pieces tile the text. -/
theorem tiles_pieces (theme : Theme) (h : store.Sound) :
    Tiles 0 (pieces theme store) store.length := by
  obtain ⟨offsets, hoffsets⟩ := exists_boundaries_eq store
  have hsorted := pairwise_boundaries store
  have hlength : store.length ∈ boundaries store := mem_boundaries.2 (.inr (.inl rfl))
  have hle : ∀ offset ∈ boundaries store, offset ≤ store.length := fun offset =>
    le_length_of_mem_boundaries h
  unfold pieces
  rw [hoffsets] at hsorted hlength hle ⊢
  exact tiles_spansBetween hsorted hlength hle

/-- All bytes of a piece look as its start does. -/
theorem shows_pieces (theme : Theme) (h : store.Sound) :
    ∀ run ∈ pieces theme store, run.Shows (theme.attributesAt store) := by
  refine List.forall_mem_map.2 fun span hspan => ⟨rfl, fun offset hcovers => .inl ?_⟩
  show theme.attributesAt store span.start = theme.attributesAt store offset
  unfold attributesAt
  rw [stack_eq_of_mem_spansBetween h hspan hcovers]

/-- The runs of a text under a theme part it as far as the looks of its bytes differ, and no
further. They follow each other from its start to its end, none of them empty, so that there are
none when the text is empty and every byte is in one. The attributes of a run are those of its first
byte, and every other byte of it has the same, sizes compared as doubles. The attributes of a byte
are the global settings and over them those for the exact name of each scope in its stack, from the
outermost inwards; so each setting is what the innermost of these scopes sets it to, if any does.
And no two neighbouring runs have the same attributes. -/
theorem runs_partition (theme : Theme) (h : store.Reached) :
    Tiles 0 (theme.runs store) store.length ∧ (theme.runs store = [] ↔ store.length = 0) ∧
    (∀ offset < store.length, ∃ run ∈ theme.runs store, run.span.covers offset = true) ∧
    (∀ run ∈ theme.runs store, run.Shows (theme.attributesAt store)) ∧
    (∀ offset setting, (theme.attributesAt store offset).get? setting =
      (store.stack offset).reverse.findSome? fun scope =>
        (theme.attributesFor? scope.name).bind (·.get? setting)) ∧
    (theme.runs store).IsChain fun a b => a.attributes.same b.attributes = false := by
  have hpieces := theme.tiles_pieces h.sound
  have htiles : Tiles 0 (theme.runs store) store.length := hpieces.joinRuns
  have hshows : ∀ run ∈ theme.runs store, run.Shows (theme.attributesAt store) :=
    hpieces.shows_joinRuns (theme.shows_pieces h.sound)
  exact ⟨htiles, htiles.eq_nil_iff.trans eq_comm,
    fun offset => htiles.exists_covers (Nat.zero_le _),
    hshows, theme.get?_attributesAt h.sound, isChain_joinRuns _⟩

/-- A theme whose two sizes are the zeros, that of the inner scope of `boxed` the negative one. -/
def zeros : Theme where
  uuid := default
  name := "Zeros"
  semanticClass := none
  gutter := .empty
  entries := .ofList [(Scope.globalName, { Attributes.empty with fontSize := some ⟨0⟩ }),
    ("outer", { Attributes.empty with fontName := some "Mono" }),
    ("inner", { Attributes.empty with fontSize := some ⟨0x8000000000000000⟩ })]

/-- Under `zeros` both scopes of `boxed` are one run, since the inner one adds a size that is equal
to the one that is there. The inner bytes have their font from the outer scope. -/
theorem runs_partition_boxed : Store.boxed.Reached ∧
    (zeros.runs Store.boxed).map (·.span) = [⟨0, 1⟩, ⟨1, 5⟩, ⟨5, 6⟩] ∧
    Tiles 0 (zeros.runs Store.boxed) 6 ∧
    (zeros.attributesAt Store.boxed 3).get? .fontName = some "Mono" ∧
    (zeros.attributesAt Store.boxed 3).get? .fontSize =
      some (⟨0x8000000000000000⟩ : FontSize) := by
  obtain ⟨htiles, -, -, -, hlook, -⟩ := runs_partition zeros Store.reached_boxed
  refine ⟨Store.reached_boxed, by decide_cbv, htiles, ?_, ?_⟩
  · rw [hlook]
    rfl
  · rw [hlook]
    rfl

end Theme

end TextScopes
