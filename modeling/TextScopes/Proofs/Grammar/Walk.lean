import Mathlib.Data.List.Nodup
import Mathlib.Data.List.Flatten
import TextScopes.Grammar.Graph
import TextScopes.Proofs.Table

/-!
# The walk for candidates

The walk that lists the rules tried inside one is written here without a bound (`Graph.Walk`). It
comes to one list only, so that the order of the candidates is settled by the rules that are met.
The bound that `candidates` sets is never met (`Graph.walk_candidates`): every step takes a rule off
those that wait, and a rule puts there what it holds only once, when it is entered.

What is listed are the rules that match something among those held by the rule or by containers in
it (`Graph.mem_candidates_iff`). That none is missed holds since every rule that was put there has
been handled in the end (`Graph.Exhausted`).
-/

namespace TextScopes

variable {E : Engine}

namespace Graph

variable {graph : Graph E} {id other : RuleId} {entered found todo result result' : List RuleId}

/-- A walk over the rules of `todo` to its end, which lists what it meets behind what was found. -/
inductive Walk (graph : Graph E) : List RuleId → List RuleId → List RuleId →
    List RuleId → Prop
  | done {entered found : List RuleId} : Walk graph entered found [] found.reverse
  /-- A container is gone into. -/
  | enter {entered found todo result : List RuleId} {id : RuleId}
      (container : graph.kind id = .container) (fresh : id ∉ entered)
      (later : Walk graph (id :: entered) found (graph.children id ++ todo) result) :
      Walk graph entered found (id :: todo) result
  /-- A container that has been gone into is passed by. -/
  | again {entered found todo result : List RuleId} {id : RuleId}
      (container : graph.kind id = .container) (old : id ∈ entered)
      (later : Walk graph entered found todo result) : Walk graph entered found (id :: todo) result
  /-- What matches nothing is passed by. -/
  | inert {entered found todo result : List RuleId} {id : RuleId} (inert : graph.kind id = .inert)
      (later : Walk graph entered found todo result) : Walk graph entered found (id :: todo) result
  /-- A rule that matches something is listed. -/
  | list {entered found todo result : List RuleId} {id : RuleId}
      (opens : (graph.kind id).opening?.isSome = true) (fresh : id ∉ found)
      (later : Walk graph entered (id :: found) todo result) :
      Walk graph entered found (id :: todo) result
  /-- A rule that is listed already is passed by. -/
  | listed {entered found todo result : List RuleId} {id : RuleId}
      (opens : (graph.kind id).opening?.isSome = true) (old : id ∈ found)
      (later : Walk graph entered found todo result) : Walk graph entered found (id :: todo) result

/-- A walk comes to one list. -/
theorem Walk.unique (h : graph.Walk entered found todo result)
    (h' : graph.Walk entered found todo result') : result = result' := by
  -- A rule is of one kind, and has been met or not, so that one step applies.
  induction h with
  | done =>
    cases h'
    rfl
  | enter container fresh later ih =>
    cases h' with
    | enter _ _ later' => exact ih later'
    | again _ old => exact absurd old fresh
    | inert inert => rw [container] at inert; cases inert
    | list opens | listed opens => rw [container] at opens; cases opens
  | again container old later ih =>
    cases h' with
    | enter _ fresh => exact absurd old fresh
    | again _ _ later' => exact ih later'
    | inert inert => rw [container] at inert; cases inert
    | list opens | listed opens => rw [container] at opens; cases opens
  | inert inert later ih =>
    cases h' with
    | enter container | again container => rw [inert] at container; cases container
    | inert _ later' => exact ih later'
    | list opens | listed opens => rw [inert] at opens; cases opens
  | list opens fresh later ih =>
    cases h' with
    | enter container | again container => rw [container] at opens; cases opens
    | inert inert => rw [inert] at opens; cases opens
    | list _ _ later' => exact ih later'
    | listed _ old => exact absurd old fresh
  | listed opens old later ih =>
    cases h' with
    | enter container | again container => rw [container] at opens; cases opens
    | inert inert => rw [inert] at opens; cases opens
    | list _ fresh => exact absurd old fresh
    | listed _ _ later' => exact ih later'

/-! ### What a walk lists -/

/-- A rule is met inside another: it is held there, or by a container that is met. -/
inductive Met (graph : Graph E) (id : RuleId) : RuleId → Prop
  | held {rule : RuleId} (held : rule ∈ graph.children id) : Met graph id rule
  | inside {holder rule : RuleId} (met : Met graph id holder)
      (container : graph.kind holder = .container) (held : rule ∈ graph.children holder) :
      Met graph id rule

/-- How far a walk has come with a rule: it waits, has been entered or listed, or matches
nothing. -/
def Handled (graph : Graph E) (entered found todo : List RuleId) (id : RuleId) : Prop :=
  id ∈ todo ∨ (graph.kind id = .container ∧ id ∈ entered) ∨
    ((graph.kind id).opening?.isSome = true ∧ id ∈ found) ∨ graph.kind id = .inert

/-- The entered rules are exhausted: all that they hold has been handled. -/
def Exhausted (graph : Graph E) (entered found todo : List RuleId) : Prop :=
  ∀ holder ∈ entered, ∀ rule ∈ graph.children holder, graph.Handled entered found todo rule

/-- A walk lists only what was found before, or matches something and is among what it is over. -/
theorem Walk.mem_or {among : RuleId → Prop} (h : graph.Walk entered found todo result)
    (hinside : ∀ holder, among holder → graph.kind holder = .container →
      ∀ rule ∈ graph.children holder, among rule)
    (htodo : ∀ rule ∈ todo, among rule) (hmem : id ∈ result) :
    id ∈ found ∨ (among id ∧ (graph.kind id).opening?.isSome = true) := by
  -- Only listing adds to what is found.
  induction h with
  | done => exact .inl (List.mem_reverse.1 hmem)
  | @enter _ _ _ _ holder container _ _ ih =>
    refine ih (fun rule hrule => ?_) hmem
    rcases List.mem_append.1 hrule with hrule | hrule
    · exact hinside holder (htodo holder List.mem_cons_self) container rule hrule
    · exact htodo rule (List.mem_cons_of_mem _ hrule)
  | again _ _ _ ih | inert _ _ ih | listed _ _ _ ih =>
    exact ih (fun rule hrule => htodo rule (List.mem_cons_of_mem _ hrule)) hmem
  | @list _ _ _ _ rule opens _ _ ih =>
    rcases ih (fun rule hrule => htodo rule (List.mem_cons_of_mem _ hrule)) hmem with hmem | hmem
    · rcases List.mem_cons.1 hmem with rfl | hmem
      · exact .inr ⟨htodo id List.mem_cons_self, opens⟩
      · exact .inl hmem
    · exact .inr hmem

/-- A walk lists nothing twice. -/
theorem Walk.nodup (h : graph.Walk entered found todo result) (hfound : found.Nodup) :
    result.Nodup := by
  induction h with
  | done => exact List.nodup_reverse.2 hfound
  | list _ fresh _ ih => exact ih (List.nodup_cons.2 ⟨fresh, hfound⟩)
  | enter _ _ _ ih | again _ _ _ ih | inert _ _ ih | listed _ _ _ ih => exact ih hfound

/-- What has been handled stays so when more is, and what waits is handled. -/
theorem Handled.mono {entered' found' todo' : List RuleId} (hentered : entered ⊆ entered')
    (hfound : found ⊆ found') (htodo : ∀ rule ∈ todo,
      graph.Handled entered' found' todo' rule)
    (h : graph.Handled entered found todo id) : graph.Handled entered' found' todo' id := by
  rcases h with hwaits | ⟨hcontainer, hmem⟩ | ⟨hopens, hmem⟩ | hinert
  · exact htodo id hwaits
  · exact .inr (.inl ⟨hcontainer, hentered hmem⟩)
  · exact .inr (.inr (.inl ⟨hopens, hfound hmem⟩))
  · exact .inr (.inr (.inr hinert))

/-- In the end a container has been entered if it has been handled. -/
theorem Handled.mem_entered (h : graph.Handled entered found [] id)
    (container : graph.kind id = .container) : id ∈ entered := by
  rcases h with hwaits | ⟨-, hmem⟩ | ⟨hopens, -⟩ | hinert
  · cases hwaits
  · exact hmem
  · rw [container] at hopens
    cases hopens
  · rw [container] at hinert
    cases hinert

/-- In the end a rule that matches something has been listed if it has been handled. -/
theorem Handled.mem_found (h : graph.Handled entered found [] id)
    (opens : (graph.kind id).opening?.isSome = true) : id ∈ found := by
  rcases h with hwaits | ⟨hcontainer, -⟩ | ⟨-, hmem⟩ | hinert
  · cases hwaits
  · rw [hcontainer] at opens
    cases opens
  · exact hmem
  · rw [hinert] at opens
    cases opens

/-- A rule that is handled need not be waited for. -/
theorem exists_handled_of_step {found' : List RuleId}
    (hid : graph.Handled entered found' todo id) (hfound : found ⊆ found')
    (hheld : graph.Exhausted entered found (id :: todo))
    (ih : graph.Exhausted entered found' todo → ∃ last,
      (∀ rule, graph.Handled entered found' todo rule → graph.Handled last result [] rule) ∧
        graph.Exhausted last result []) :
    ∃ last, (∀ rule, graph.Handled entered found (id :: todo) rule →
      graph.Handled last result [] rule) ∧ graph.Exhausted last result [] := by
  have hmono : ∀ rule, graph.Handled entered found (id :: todo) rule →
      graph.Handled entered found' todo rule := fun rule =>
    .mono (List.Subset.refl _) hfound (by
      rintro rule (_ | ⟨_, hrule⟩)
      · exact hid
      · exact .inl hrule)
  -- Passing a rule that is handled takes nothing from what is.
  obtain ⟨last, hall, hlast⟩ := ih fun holder hholder rule hrule =>
    hmono rule (hheld holder hholder rule hrule)
  exact ⟨last, fun rule hrule => hall rule (hmono rule hrule), hlast⟩

/-- In the end of a walk all has been handled that was before, and all that an entered rule
holds. -/
theorem Walk.exists_handled (h : graph.Walk entered found todo result)
    (hheld : graph.Exhausted entered found todo) :
    ∃ last, (∀ rule, graph.Handled entered found todo rule →
      graph.Handled last result [] rule) ∧
      graph.Exhausted last result [] := by
  induction h with
  -- In the end nothing waits, so that what is handled was met.
  | @done entered found =>
    have hmono : ∀ rule, graph.Handled entered found [] rule →
        graph.Handled entered found.reverse [] rule := fun rule =>
      .mono (List.Subset.refl _) (fun _ => List.mem_reverse.2) (by simp)
    exact ⟨entered, hmono, fun holder hholder rule hrule =>
      hmono rule (hheld holder hholder rule hrule)⟩
  | @enter entered found todo _ id container fresh later ih =>
    have hmono : ∀ rule, graph.Handled entered found (id :: todo) rule →
        graph.Handled (id :: entered) found (graph.children id ++ todo) rule := fun rule =>
      .mono (List.subset_cons_self _ _) (List.Subset.refl _) (by
        rintro rule (_ | ⟨_, hrule⟩)
        · exact .inr (.inl ⟨container, List.mem_cons_self⟩)
        · exact .inl (List.mem_append_right _ hrule))
    -- The container is entered, and all that it holds waits.
    obtain ⟨last, hall, hlast⟩ := ih (by
      rintro holder (_ | ⟨_, hholder⟩) rule hrule
      · exact .inl (List.mem_append_left _ hrule)
      · exact hmono rule (hheld holder hholder rule hrule))
    exact ⟨last, fun rule hrule => hall rule (hmono rule hrule), hlast⟩
  | @again entered found todo _ id container old later ih =>
    exact exists_handled_of_step (.inr (.inl ⟨container, old⟩)) (List.Subset.refl _) hheld ih
  | @inert entered found todo _ id inert later ih =>
    exact exists_handled_of_step (.inr (.inr (.inr inert))) (List.Subset.refl _) hheld ih
  | @list entered found todo _ id opens fresh later ih =>
    exact exists_handled_of_step (.inr (.inr (.inl ⟨opens, List.mem_cons_self⟩)))
      (List.subset_cons_self _ _) hheld ih
  | @listed entered found todo _ id opens old later ih =>
    exact exists_handled_of_step (.inr (.inr (.inl ⟨opens, old⟩))) (List.Subset.refl _) hheld ih

/-! ### The walk for candidates is not cut short -/

/-- The identifiers of the rules of a graph. -/
def ids (graph : Graph E) : List RuleId :=
  graph.languages.flatMap fun (name, rules) => (List.range rules.size).map (⟨name, ·⟩)

/-- There are as many identifiers as rules. -/
theorem length_ids (graph : Graph E) : graph.ids.length = graph.size := by
  rw [ids, size]
  induction graph.languages with
  | nil => rfl
  | cons language rest ih => simp [ih]

/-- A rule that is there has its identifier among those of the graph. -/
theorem mem_ids {graph : Graph E} {id : RuleId} {rule : Rule E} (h : graph.rule? id = some rule) :
    id ∈ graph.ids := by
  simp only [rule?, Option.bind_eq_bind, Option.bind_eq_some_iff] at h
  obtain ⟨⟨name, rules⟩, hfind, hget⟩ := h
  have hname : name = id.language := by simpa using List.find?_some hfind
  refine List.mem_flatMap.2 ⟨(name, rules), List.mem_of_find?_eq_some hfind, ?_⟩
  refine List.mem_map.2 ⟨id.index, List.mem_range.2 (Array.getElem?_eq_some_iff.1 hget).1, ?_⟩
  rw [hname]

/-- What the rules hold that have not been entered. -/
def pending (graph : Graph E) (entered : List RuleId) : List RuleId :=
  (graph.ids.filter (· ∉ entered)).flatMap graph.children

/-- What is held over a list with an element is held over the others and by that one. -/
theorem length_flatMap_ne_le {f : RuleId → List RuleId} {ids : List RuleId} (h : id ∈ ids) :
    ((ids.filter (· ≠ id)).flatMap f).length + (f id).length ≤ (ids.flatMap f).length := by
  obtain ⟨front, back, rfl⟩ := List.append_of_mem h
  have hle : ∀ ids : List RuleId,
      ((ids.filter (· ≠ id)).flatMap f).length ≤ (ids.flatMap f).length := fun ids =>
    (List.filter_sublist.flatMap f).length_le
  have hfront := hle front
  have hback := hle back
  have hself : ((id :: back).filter (· ≠ id)) = back.filter (· ≠ id) := by simp
  rw [List.filter_append, hself, List.flatMap_append, List.flatMap_append, List.flatMap_cons,
    List.length_append, List.length_append, List.length_append]
  omega

/-- To enter a rule takes what it holds off what is pending. -/
theorem pending_cons_le (hmem : id ∈ graph.ids) (hnew : id ∉ entered) :
    (graph.pending (id :: entered)).length + (graph.children id).length ≤
      (graph.pending entered).length := by
  have hsplit : graph.ids.filter (· ∉ id :: entered) =
      (graph.ids.filter (· ∉ entered)).filter (· ≠ id) := by
    rw [List.filter_filter]
    exact List.filter_congr fun rule _ => by simp
  rw [pending, hsplit]
  exact length_flatMap_ne_le (List.mem_filter.2 ⟨hmem, by simpa using hnew⟩)

/-- Before any rule is entered no more is pending than the rules hold together. -/
theorem pending_nil_le (hnames : (graph.languages.map (·.1)).Nodup) :
    (graph.pending []).length ≤ graph.edgeCount := by
  -- Language by language: the edges of its rules.
  have hone : ∀ language ∈ graph.languages,
      ((List.range language.2.size).map (⟨language.1, ·⟩)).flatMap graph.children =
        language.2.toList.flatMap (·.children) := by
    intro language hlanguage
    have hfind := Table.find?_key_of_mem hnames hlanguage
    rw [List.flatMap_map, List.flatMap_def, List.flatMap_def]
    refine congrArg List.flatten (List.ext_getElem (by simp) fun i hi hi' => ?_)
    have hindex : i < language.2.size := by simpa using hi'
    have hrule : graph.rule? ⟨language.1, i⟩ = some language.2[i] := by
      rw [rule?, hfind]
      exact Array.getElem?_eq_getElem hindex
    simp [children, hrule]
  have hall : graph.pending [] = (graph.languages.flatMap (·.2.toList)).flatMap (·.children) := by
    have hevery : graph.ids.filter (· ∉ ([] : List RuleId)) = graph.ids := by simp
    rw [pending, hevery, ids, List.flatMap_assoc, List.flatMap_assoc]
    exact List.flatMap_congr hone
  have hcount : ∀ rules : List (Rule E),
      rules.foldr (fun rule count => rule.children.length + count) 0 =
        (rules.flatMap (·.children)).length := fun rules => by
    induction rules with
    | nil => rfl
    | cons rule rest ih => rw [List.foldr_cons, ih, List.flatMap_cons, List.length_append]
  calc (graph.pending []).length
      = ((graph.languages.flatMap (·.2.toList)).flatMap (·.children)).length := by rw [hall]
    _ ≤ graph.edgeCount := Nat.le_of_eq (hcount _).symm

/-- A bound above what waits and what is pending is not met. -/
theorem walk_flatten {limit : Nat} (h : todo.length + (graph.pending entered).length < limit) :
    graph.Walk entered found todo (graph.flatten limit entered found todo) := by
  induction limit generalizing entered found todo with
  | zero => omega
  | succ limit ih =>
    cases todo with
    | nil => exact .done
    | cons id rest =>
      rw [List.length_cons] at h
      rw [flatten]
      split
      -- A container costs a step and the edges that it adds, once.
      next hkind =>
        split
        next hold => exact .again hkind hold (ih (by omega))
        next hnew =>
          refine .enter hkind hnew (ih ?_)
          have hmem : id ∈ graph.ids := by
            rw [kind] at hkind
            cases hrule : graph.rule? id with
            | none =>
              rw [hrule] at hkind
              cases hkind
            | some rule => exact mem_ids hrule
          have hle := pending_cons_le hmem hnew
          rw [List.length_append]
          omega
      next hkind => exact .inert hkind (ih (by omega))
      -- What is neither a container nor inert opens with something.
      next hcontainer hinert =>
        have hopens : (graph.kind id).opening?.isSome = true := by
          cases hkind : graph.kind id with
          | matching | region => rfl
          | container => exact absurd hkind hcontainer
          | inert => exact absurd hkind hinert
        split
        next hold => exact .listed hopens hold (ih (by omega))
        next hnew => exact .list hopens hnew (ih (by omega))

/-- The candidates of a rule are what the walk over those that it holds lists. -/
theorem walk_candidates (hnames : (graph.languages.map (·.1)).Nodup) (id : RuleId) :
    graph.Walk [] [] (graph.children id) (graph.candidates id) := by
  refine walk_flatten ?_
  have hle := pending_nil_le hnames
  omega

/-- The candidates of a rule are those met inside it that match something. -/
theorem mem_candidates_iff (hnames : (graph.languages.map (·.1)).Nodup) :
    other ∈ graph.candidates id ↔
      graph.Met id other ∧ (graph.kind other).opening?.isSome = true := by
  have hwalk := walk_candidates hnames id
  constructor
  · intro hmem
    refine (hwalk.mem_or (fun holder hmet hcontainer rule hrule => ?_) (fun rule => ?_)
      hmem).resolve_left
      (by simp)
    · exact Met.inside hmet hcontainer hrule
    · exact Met.held
  · rintro ⟨hmet, hopens⟩
    obtain ⟨last, hall, hheld⟩ := hwalk.exists_handled fun holder hholder => by cases hholder
    -- What is met has been handled in the end.
    have hhandled : graph.Handled last (graph.candidates id) [] other := by
      clear hopens
      induction hmet with
      | held held => exact hall _ (.inl held)
      | inside met container held ih => exact hheld _ (ih.mem_entered container) _ held
    exact hhandled.mem_found hopens

/-- A rule that matches something is a rule of the graph. -/
theorem exists_rule_of_opens (h : (graph.kind id).opening?.isSome = true) :
    ∃ rule, graph.rule? id = some rule ∧ ∃ opening, rule.kind.opening? = some opening := by
  rw [kind] at h
  cases hrule : graph.rule? id with
  | none =>
    rw [hrule] at h
    cases h
  | some rule =>
    rw [hrule] at h
    exact ⟨rule, rfl, Option.isSome_iff_exists.1 h⟩

end Graph

end TextScopes
