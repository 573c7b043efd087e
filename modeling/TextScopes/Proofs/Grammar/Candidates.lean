import TextScopes.Proofs.Grammar.Closed
import TextScopes.Proofs.Grammar.Ways

/-!
# The order of candidates

The walk for candidates goes into a container only once, and passes by it wherever else it is held.
This loses no candidate, and what it lists is in the order of the least ways down to it, also where
containers are shared or hold one another in cycles (`Grammar.candidates_by_least_way`).

Each rule that waits is taken here with the path of a way to it (`Graph.Traced`). A way whose path
comes before all of these leads to a rule that has been handled (`Graph.Traced.handled_of_way`). So
a rule that is met for the first time is met by its least way (`Graph.Traced.leastWay_head`), and
those met later have later ones.
-/

namespace TextScopes

variable {E : Engine}

namespace Graph

variable {graph : Graph E} {id holder rule : RuleId} {path : List Nat}
  {entered found waiting result : List RuleId} {todo : List (List Nat × RuleId)}

/-- What a rule holds, spread out by the paths that go on from one to the rule. -/
def spread (graph : Graph E) (path : List Nat) (holder : RuleId) : List (List Nat × RuleId) :=
  (graph.children holder).mapIdx fun place rule => (path ++ [place], rule)

/-- What is spread out are the rules held. -/
theorem map_snd_spread : (graph.spread path holder).map (·.2) = graph.children holder :=
  List.ext_getElem (by simp [spread]) fun _ _ _ => by simp [spread]

/-- What is spread out is held at the last number of its path. -/
theorem mem_spread_iff {item : List Nat × RuleId} :
    item ∈ graph.spread path holder ↔
      ∃ place, item.1 = path ++ [place] ∧ (graph.children holder)[place]? = some item.2 := by
  simp only [spread, List.mem_mapIdx, List.getElem?_eq_some_iff]
  constructor
  · rintro ⟨place, hlt, rfl⟩
    exact ⟨place, rfl, hlt, rfl⟩
  · rintro ⟨place, hpath, hlt, hrule⟩
    exact ⟨place, hlt, Prod.ext hpath.symm hrule⟩

/-- The paths that are spread out are left of one another. -/
theorem pairwise_spread : (graph.spread path holder).Pairwise fun item next =>
    LeftOf item.1 next.1 := by
  refine List.pairwise_iff_getElem.2 fun i j hi hj hlt => ?_
  simp only [spread, List.getElem_mapIdx]
  exact LeftOf.concat hlt path

/-- All that a rule holds waits by the path to it, or has been handled. -/
def Awaits (graph : Graph E) (entered found : List RuleId) (todo : List (List Nat × RuleId))
    (path : List Nat) (holder : RuleId) : Prop :=
  ∀ place rule, (graph.children holder)[place]? = some rule →
    (path ++ [place], rule) ∈ todo ∨ graph.Handled entered found [] rule

/-- What a rule holds waits or has been handled when that whose turn it is has been handled. -/
theorem Awaits.of_handled {entered' found' : List RuleId} {item : List Nat × RuleId}
    {todo' : List (List Nat × RuleId)} (h : graph.Awaits entered found (item :: todo) path holder)
    (hitem : graph.Handled entered' found' [] item.2) (hentered : entered ⊆ entered')
    (hfound : found ⊆ found') (htodo : todo ⊆ todo') :
    graph.Awaits entered' found' todo' path holder := by
  intro place rule hheld
  rcases h place rule hheld with (_ | ⟨_, hmem⟩) | hhandled
  · exact .inr hitem
  · exact .inl (htodo hmem)
  · exact .inr (hhandled.mono hentered hfound (by simp))

/-- A walk from a rule that has been traced: what waits is at the ends of ways through containers
that have been entered, each left of the next; what the rule and the entered containers hold waits
there or has been handled; and containers were entered, and rules listed, by their least ways, the
listed ones in the order of these and before what waits. -/
structure Traced (graph : Graph E) (id : RuleId) (entered found : List RuleId)
    (todo : List (List Nat × RuleId)) : Prop where
  apart : todo.Pairwise fun item next => LeftOf item.1 next.1
  way : ∀ item ∈ todo, ∃ through, graph.Way id item.1 through item.2 ∧ through ⊆ entered
  start : graph.Awaits entered found todo [] id
  entered : ∀ holder ∈ entered, ∃ path, graph.LeastWay id holder path ∧
    graph.Awaits entered found todo path holder
  listed : ∃ paths, List.Forall₂ (graph.LeastWay id) found.reverse paths ∧
    paths.Pairwise (· < ·) ∧
    ∀ path ∈ paths, ∀ item ∈ todo, path < item.1

namespace Traced

/-- A walk is traced at its start. -/
theorem init : graph.Traced id [] [] (graph.spread [] id) where
  apart := pairwise_spread
  way item hitem := by
    obtain ⟨place, hpath, hheld⟩ := mem_spread_iff.1 hitem
    rw [hpath]
    exact ⟨[], .held hheld, List.Subset.refl _⟩
  start place rule hheld := .inl (mem_spread_iff.2 ⟨place, rfl, hheld⟩)
  entered holder hholder := by cases hholder
  listed := ⟨[], .nil, .nil, by simp⟩

/-- A way that comes before all that waits leads to a rule that has been handled. -/
theorem handled_of_way {through : List RuleId} (h : graph.Traced id entered found todo)
    (way : graph.Way id path through rule) (hbefore : ∀ item ∈ todo, path < item.1) :
    graph.Handled entered found [] rule := by
  -- Along the way: each container on it was gone into, since the way comes before all that waits.
  induction way with
  | @held place rule held =>
    exact (h.start place rule held).resolve_left fun hmem => lt_irrefl _ (hbefore _ hmem)
  | @inside path through holder rule place way container fresh held ih =>
    have hhandled := ih fun item hitem => (lt_concat path place).trans (hbefore item hitem)
    obtain ⟨least, hleast, hawaits⟩ := h.entered holder (hhandled.mem_entered container)
    -- Else the rule waits by a path that does not come after this way.
    exact (hawaits place rule held).resolve_left fun hmem =>
      (hbefore _ hmem).not_ge (hleast.concat_le way fresh place)

/-- A rule whose turn it is has been met by its least way, if it has not been handled. -/
theorem leastWay_head (h : graph.Traced id entered found ((path, rule) :: todo))
    (hnew : ¬graph.Handled entered found [] rule) : graph.LeastWay id rule path where
  way := by
    obtain ⟨through, way, -⟩ := h.way _ List.mem_cons_self
    exact ⟨through, way⟩
  least other through way := by
    -- A way before this one is before all that waits, so that the rule would have been handled.
    by_contra hlt
    refine hnew (h.handled_of_way way ?_)
    rintro item (_ | ⟨_, hitem⟩)
    · exact not_le.1 hlt
    · exact (not_le.1 hlt).trans ((List.pairwise_cons.1 h.apart).1 item hitem).lt

/-- A rule that has been handled is passed by. -/
theorem pass (h : graph.Traced id entered found ((path, rule) :: todo))
    (hrule : graph.Handled entered found [] rule) : graph.Traced id entered found todo := by
  -- The rule that is passed need not be waited for, since it is handled.
  have hawaits : ∀ front holder,
      graph.Awaits entered found ((path, rule) :: todo) front holder →
      graph.Awaits entered found todo front holder := fun _ _ hawaits =>
    hawaits.of_handled hrule (List.Subset.refl _) (List.Subset.refl _) (List.Subset.refl _)
  obtain ⟨paths, hpaths, hsorted, hbefore⟩ := h.listed
  exact {
    apart := (List.pairwise_cons.1 h.apart).2
    way := fun item hitem => h.way item (List.mem_cons_of_mem _ hitem)
    start := hawaits _ _ h.start
    entered := fun holder hholder => by
      obtain ⟨least, hleast, hheld⟩ := h.entered holder hholder
      exact ⟨least, hleast, hawaits _ _ hheld⟩
    listed := ⟨paths, hpaths, hsorted, fun path hpath item hitem =>
      hbefore path hpath item (List.mem_cons_of_mem _ hitem)⟩ }

/-- A container that is entered gives way to what it holds. -/
theorem enter (h : graph.Traced id entered found ((path, holder) :: todo))
    (container : graph.kind holder = .container) (fresh : holder ∉ entered) :
    graph.Traced id (holder :: entered) found (graph.spread path holder ++ todo) := by
  -- Nothing but this way leads to the container before the others.
  have hleast := h.leastWay_head fun hhandled => fresh (hhandled.mem_entered container)
  obtain ⟨hleft, hapart⟩ := List.pairwise_cons.1 h.apart
  have hawaits : ∀ front other, graph.Awaits entered found ((path, holder) :: todo)
      front other →
      graph.Awaits (holder :: entered) found (graph.spread path holder ++ todo) front other :=
    fun _ _ hawaits => hawaits.of_handled (.inr (.inl ⟨container, List.mem_cons_self⟩))
      (List.subset_cons_self _ _) (List.Subset.refl _) (List.subset_append_right _ _)
  obtain ⟨paths, hpaths, hsorted, hbefore⟩ := h.listed
  refine {
    apart := ?apart
    way := ?way
    start := hawaits _ _ h.start
    entered := ?entered
    listed := ⟨paths, hpaths, hsorted, ?before⟩ }
  case apart =>
    -- What goes on from a path that is left of the others is left of them.
    refine List.pairwise_append.2 ⟨pairwise_spread, hapart, fun item hitem next hnext => ?_⟩
    obtain ⟨place, hpath, -⟩ := mem_spread_iff.1 hitem
    rw [hpath]
    exact (hleft next hnext).append [place]
  case way =>
    intro item hitem
    rcases List.mem_append.1 hitem with hitem | hitem
    · obtain ⟨place, hpath, hheld⟩ := mem_spread_iff.1 hitem
      obtain ⟨through, way, hthrough⟩ := h.way _ List.mem_cons_self
      rw [hpath]
      exact ⟨_, .inside way container (fun hmem => fresh (hthrough hmem)) hheld,
        List.cons_subset_cons _ hthrough⟩
    · obtain ⟨through, way, hthrough⟩ := h.way item (List.mem_cons_of_mem _ hitem)
      exact ⟨through, way, List.subset_cons_of_subset _ hthrough⟩
  case entered =>
    rintro other (_ | ⟨_, hother⟩)
    · refine ⟨path, hleast, fun place rule hheld => .inl (List.mem_append_left _ ?_)⟩
      exact mem_spread_iff.2 ⟨place, rfl, hheld⟩
    · obtain ⟨least, hleast, hheld⟩ := h.entered other hother
      exact ⟨least, hleast, hawaits _ _ hheld⟩
  case before =>
    intro earlier hearlier item hitem
    rcases List.mem_append.1 hitem with hitem | hitem
    · obtain ⟨place, hpath, -⟩ := mem_spread_iff.1 hitem
      rw [hpath]
      exact (hbefore earlier hearlier _ List.mem_cons_self).trans (lt_concat path place)
    · exact hbefore earlier hearlier item (List.mem_cons_of_mem _ hitem)

/-- A rule that matches something is listed behind those found. -/
theorem list (h : graph.Traced id entered found ((path, rule) :: todo))
    (opens : (graph.kind rule).opening?.isSome = true) (fresh : rule ∉ found) :
    graph.Traced id entered (rule :: found) todo := by
  -- The path of the rule is the least way to it, and comes behind those of the rules listed.
  have hleast := h.leastWay_head fun hhandled => fresh (hhandled.mem_found opens)
  obtain ⟨hleft, hapart⟩ := List.pairwise_cons.1 h.apart
  have hawaits : ∀ front holder,
      graph.Awaits entered found ((path, rule) :: todo) front holder →
      graph.Awaits entered (rule :: found) todo front holder := fun _ _ hawaits =>
    hawaits.of_handled (.inr (.inr (.inl ⟨opens, List.mem_cons_self⟩))) (List.Subset.refl _)
      (List.subset_cons_self _ _) (List.Subset.refl _)
  obtain ⟨paths, hpaths, hsorted, hbefore⟩ := h.listed
  refine {
    apart := hapart
    way := fun item hitem => h.way item (List.mem_cons_of_mem _ hitem)
    start := hawaits _ _ h.start
    entered := ?entered
    listed := ⟨paths ++ [path], ?leastWays, ?sorted, ?before⟩ }
  case entered =>
    intro holder hholder
    obtain ⟨least, hleast, hheld⟩ := h.entered holder hholder
    exact ⟨least, hleast, hawaits _ _ hheld⟩
  case leastWays =>
    rw [List.reverse_cons]
    exact List.rel_append hpaths (.cons hleast .nil)
  case sorted =>
    refine List.pairwise_append.2 ⟨hsorted, List.pairwise_singleton _ _,
      fun earlier hearlier last hlast => ?_⟩
    rw [List.mem_singleton.1 hlast]
    exact hbefore earlier hearlier _ List.mem_cons_self
  case before =>
    intro earlier hearlier item hitem
    rcases List.mem_append.1 hearlier with hearlier | hearlier
    · exact hbefore earlier hearlier item (List.mem_cons_of_mem _ hitem)
    · rw [List.mem_singleton.1 hearlier]
      exact (hleft item hitem).lt

end Traced

/-- What a traced walk lists is in the order of the least ways to it. -/
theorem Walk.exists_paths (h : graph.Walk entered found waiting result)
    (hwaiting : todo.map (·.2) = waiting) (htraced : graph.Traced id entered found todo) :
    ∃ paths, List.Forall₂ (graph.LeastWay id) result paths ∧ paths.Pairwise (· < ·) := by
  -- On the steps of the walk: each of them keeps the invariant.
  induction h generalizing todo with
  | done =>
    obtain ⟨paths, hpaths, hsorted, -⟩ := htraced.listed
    exact ⟨paths, hpaths, hsorted⟩
  | enter container fresh later ih =>
    obtain ⟨⟨path, holder⟩, rest, rfl, rfl, rfl⟩ := List.map_eq_cons_iff.1 hwaiting
    exact ih (by rw [List.map_append, map_snd_spread]) (htraced.enter container fresh)
  | again container old later ih =>
    obtain ⟨⟨path, holder⟩, rest, rfl, rfl, rfl⟩ := List.map_eq_cons_iff.1 hwaiting
    exact ih rfl (htraced.pass (.inr (.inl ⟨container, old⟩)))
  | inert inert later ih =>
    obtain ⟨⟨path, rule⟩, rest, rfl, rfl, rfl⟩ := List.map_eq_cons_iff.1 hwaiting
    exact ih rfl (htraced.pass (.inr (.inr (.inr inert))))
  | list opens fresh later ih =>
    obtain ⟨⟨path, rule⟩, rest, rfl, rfl, rfl⟩ := List.map_eq_cons_iff.1 hwaiting
    exact ih rfl (htraced.list opens fresh)
  | listed opens old later ih =>
    obtain ⟨⟨path, rule⟩, rest, rfl, rfl, rfl⟩ := List.map_eq_cons_iff.1 hwaiting
    exact ih rfl (htraced.pass (.inr (.inr (.inl ⟨opens, old⟩))))

/-- The candidates of a rule are in the order of the least ways to them. -/
theorem exists_paths_candidates (hnames : (graph.languages.map (·.1)).Nodup) (id : RuleId) :
    ∃ paths, List.Forall₂ (graph.LeastWay id) (graph.candidates id) paths ∧
      paths.Pairwise (· < ·) :=
  (walk_candidates hnames id).exists_paths map_snd_spread .init

end Graph

/-- Two containers that hold one another, the outer of them the whole language as well. -/
def Definition.woven : Definition where
  uuid := ⟨[]⟩
  name := "Woven"
  scopeName := "text.woven"
  fileTypes := []
  patterns := [including "#outer", matching "last" "c"]
  repository := [
    ("outer", .object
      [("patterns", .array [including "#inner", including "$self", matching "next" "b"])]),
    ("inner", .object [("patterns", .array [including "#outer", matching "first" "a"])])]

namespace Grammar

variable {definition : Definition} {others : List Definition} {grammar : Grammar E}

/-- The candidates of a rule of a compiled grammar are those that match something among what
it holds, and what containers in it do, each once. They are in the order of their least ways
down from the rule. -/
theorem candidates_by_least_way (h : compile E definition others = .ok grammar) (id : RuleId) :
    (∀ rule, rule ∈ grammar.candidates id ↔
      grammar.graph.Met id rule ∧ (grammar.graph.kind rule).opening?.isSome = true) ∧
    (grammar.candidates id).Nodup ∧
    ∃ paths, List.Forall₂ (grammar.graph.LeastWay id) (grammar.candidates id) paths ∧
      paths.Pairwise (· < ·) := by
  have hnames := nodup_names_of_compile h
  refine ⟨fun rule => Graph.mem_candidates_iff hnames, ?_,
    Graph.exists_paths_candidates hnames id⟩
  exact (Graph.walk_candidates hnames id).nodup List.nodup_nil

/-- The last pattern of `woven` comes first, since the containers hold the whole language before
patterns of their own. -/
theorem candidates_by_least_way_woven :
    ∃ grammar, compile Engine.literal .woven [] = .ok grammar ∧
    grammar.candidates grammar.root =
      [⟨"text.woven", 9⟩, ⟨"text.woven", 3⟩, ⟨"text.woven", 6⟩] ∧
    ∃ paths, List.Forall₂ (grammar.graph.LeastWay grammar.root)
      (grammar.candidates grammar.root) paths ∧
      paths.Pairwise (· < ·) := by
  have haccepted : Definition.woven.IsAccepted Engine.literal := by decide +kernel
  have h : compile Engine.literal .woven [] = .ok _ := compile_eq_ok_iff.2 ⟨haccepted, rfl⟩
  obtain ⟨-, -, hpaths⟩ := candidates_by_least_way h (Grammar.root _)
  exact ⟨_, h, by decide +kernel, hpaths⟩

end Grammar

end TextScopes
