import Mathlib.Data.List.Dedup
import Mathlib.Logic.Relation
import TextScopes.Proofs.Grammar.Candidates

/-!
# What a rule leads to

The walk over all that a rule leads to marks a rule when it is put before those that wait, and not
when its turn comes; rules are shared and hold one another in cycles. It is written here without a
bound (`Graph.Visits`). In a compiled graph it ends, and what it lists is just what the rule leads
to, each rule once and behind one that holds it (`Grammar.reachable_exact`).

One invariant carries this (`Graph.Tracked`): the marked rules are those visited and those that
wait, without repetition. So no more rules are visited than the graph has, which is why the bound
that `reachable` sets is not met (`Graph.Tracked.visits`), and when none waits, all that a visited
rule holds has been visited.
-/

namespace TextScopes

variable {E : Engine}

namespace Graph

variable {graph : Graph E} {id rule : RuleId}
  {marked marked' waiting waiting' visited listed listed' : List RuleId}

/-- A rule leads to itself, and to what those hold that it leads to. -/
def LeadsTo (graph : Graph E) : RuleId → RuleId → Prop :=
  Relation.ReflTransGen fun holder rule => rule ∈ graph.children holder

/-- A walk to its end: the rules that wait are visited, and those that a visited rule holds are put
before the others that wait, unless they are marked. -/
inductive Visits (graph : Graph E) : List RuleId → List RuleId → List RuleId → Prop
  | done {marked : List RuleId} : Visits graph marked [] []
  | next {marked marked' waiting waiting' listed : List RuleId} {rule : RuleId}
      (pushed : pushFresh marked waiting (graph.children rule) = (marked', waiting'))
      (later : Visits graph marked' waiting' listed) :
      Visits graph marked (rule :: waiting) (rule :: listed)

/-- A walk comes to one end only. -/
theorem Visits.unique (h : graph.Visits marked waiting listed)
    (h' : graph.Visits marked waiting listed') : listed = listed' := by
  -- Each step is determined by what waits.
  induction h generalizing listed' with
  | done =>
    cases h'
    rfl
  | next pushed later ih =>
    cases h' with
    | next pushed' later' =>
      rw [pushed] at pushed'
      obtain ⟨rfl, rfl⟩ := Prod.mk.inj pushed'
      rw [ih later']

/-- The rules of a list that are not marked, each once. -/
def unmarked (marked ids : List RuleId) : List RuleId := (ids.filter (· ∉ marked)).dedup

/-- The unmarked rules of a list are those of its rules that have no mark. -/
theorem mem_unmarked {ids : List RuleId} : rule ∈ unmarked marked ids ↔
    rule ∈ ids ∧ rule ∉ marked := by
  simp [unmarked]

/-- The first rule of a list counts when it is not marked and does not come again. -/
theorem unmarked_cons (marked : List RuleId) (id : RuleId) (rest : List RuleId) :
    unmarked marked (id :: rest) =
      if id ∈ unmarked marked rest ++ marked then unmarked marked rest
      else id :: unmarked marked rest := by
  by_cases hmarked : id ∈ marked
  · simp [unmarked, hmarked]
  · have hfilter : (id :: rest).filter (· ∉ marked) = id :: rest.filter (· ∉ marked) :=
      List.filter_cons_of_pos (by simpa using hmarked)
    rw [unmarked, hfilter, List.dedup_cons']
    simp [unmarked, hmarked]

/-- What is marked and what waits grow by the same rules, in their order. -/
theorem pushFresh_eq (marked waiting ids : List RuleId) :
    pushFresh marked waiting ids =
      (unmarked marked ids ++ marked, unmarked marked ids ++ waiting) := by
  unfold pushFresh
  -- The rules are taken from the last one on, so that the induction is on those behind the first.
  rw [List.foldl_reverse]
  induction ids with
  | nil => rfl
  | cons id rest ih =>
    rw [List.foldr_cons, ih, unmarked_cons]
    dsimp only
    split <;> rfl

/-- How far a walk from a rule has come: the marked rules are those visited and those that wait,
each once; the rule itself is the first of them and leads to all; what the visited rules hold is
marked; and each but the first has been put there by a rule that was visited before. -/
structure Tracked (graph : Graph E) (id : RuleId) (marked waiting visited : List RuleId) :
    Prop where
  perm : (visited ++ waiting).Perm marked
  nodup : marked.Nodup
  first : (visited ++ waiting).head? = some id
  leads : ∀ rule ∈ marked, graph.LeadsTo id rule
  held : ∀ holder ∈ visited, graph.children holder ⊆ marked
  behind : ∀ front rule back, visited = front ++ rule :: back → rule ≠ id →
    ∃ holder ∈ front, rule ∈ graph.children holder
  awaited : ∀ rule ∈ waiting, rule ≠ id →
    ∃ holder ∈ visited, rule ∈ graph.children holder

namespace Tracked

/-- A walk is tracked at its start. -/
theorem start (graph : Graph E) (id : RuleId) : graph.Tracked id [id] [id] [] where
  perm := .refl _
  nodup := List.nodup_singleton id
  first := rfl
  leads rule hrule := by
    rw [List.mem_singleton.1 hrule]
    exact .refl
  held holder hholder := by cases hholder
  behind front rule back hsplit := by simp at hsplit
  awaited rule hrule hne := absurd (List.mem_singleton.1 hrule) hne

/-- A walk stays tracked when the next rule is visited. -/
theorem next (h : graph.Tracked id marked (rule :: waiting) visited)
    (pushed : pushFresh marked waiting (graph.children rule) = (marked', waiting')) :
    graph.Tracked id marked' waiting' (visited ++ [rule]) := by
  rw [pushFresh_eq] at pushed
  obtain ⟨rfl, rfl⟩ := Prod.mk.inj pushed
  have hrule : rule ∈ marked := h.perm.subset (List.mem_append_right _ List.mem_cons_self)
  refine {
    perm := ?perm
    nodup := ?nodup
    first := ?first
    leads := ?leads
    held := ?held
    behind := ?behind
    awaited := ?awaited }
  case perm =>
    -- The visited rule moves from what waits to what is visited.
    have hfront : (visited ++ [rule] ++ (unmarked marked (graph.children rule) ++ waiting)).Perm
        (unmarked marked (graph.children rule) ++ (visited ++ rule :: waiting)) := by
      simpa using List.perm_append_comm_assoc (visited ++ [rule])
        (unmarked marked (graph.children rule)) waiting
    exact hfront.trans (h.perm.append_left _)
  case nodup =>
    refine List.nodup_append.2 ⟨List.nodup_dedup _, h.nodup, fun new hnew old hold heq => ?_⟩
    exact (mem_unmarked.1 hnew).2 (heq ▸ hold)
  case first =>
    have hfirst := h.first
    cases visited <;> simpa using hfirst
  case leads =>
    -- What is pushed is held by the visited rule, to which the first one leads.
    intro other hother
    rcases List.mem_append.1 hother with hnew | hold
    · exact (h.leads rule hrule).tail (mem_unmarked.1 hnew).1
    · exact h.leads other hold
  case held =>
    intro holder hholder other hother
    rcases List.mem_append.1 hholder with hholder | hholder
    · exact List.mem_append_right _ (h.held holder hholder hother)
    · -- What the visited rule holds was marked before, or is marked now.
      rw [List.mem_singleton.1 hholder] at hother
      by_cases hmarked : other ∈ marked
      · exact List.mem_append_right _ hmarked
      · exact List.mem_append_left _ (mem_unmarked.2 ⟨hother, hmarked⟩)
  case behind =>
    intro front other back hsplit hne
    -- The last of the visited rules has waited until now, and the others were visited before.
    rcases List.eq_nil_or_concat back with rfl | ⟨back, last, rfl⟩
    · obtain ⟨rfl, hlast⟩ := List.append_inj' hsplit rfl
      obtain rfl : rule = other := by simpa using hlast
      exact h.awaited rule List.mem_cons_self hne
    · rw [List.concat_eq_append, ← List.cons_append, ← List.append_assoc] at hsplit
      obtain ⟨hvisited, -⟩ := List.append_inj' hsplit rfl
      exact h.behind front other back hvisited hne
  case awaited =>
    intro other hother hne
    rcases List.mem_append.1 hother with hnew | hold
    · exact ⟨rule, List.mem_append_right _ (List.mem_singleton_self rule),
        (mem_unmarked.1 hnew).1⟩
    · obtain ⟨holder, hholder, hheld⟩ := h.awaited other (List.mem_cons_of_mem _ hold) hne
      exact ⟨holder, List.mem_append_left _ hholder, hheld⟩

/-- What a rule leads to has been visited when none waits. -/
theorem mem_iff (h : graph.Tracked id marked [] visited) :
    rule ∈ visited ↔ graph.LeadsTo id rule := by
  have hmem : ∀ rule, rule ∈ visited ↔ rule ∈ marked := fun rule => by
    rw [← h.perm.mem_iff, List.append_nil]
  constructor
  · intro hrule
    exact h.leads rule ((hmem rule).1 hrule)
  · intro hleads
    induction hleads with
    | refl => exact List.mem_of_mem_head? (by simpa using h.first)
    | tail _ hheld ih => exact (hmem _).2 (h.held _ ih hheld)

end Tracked

/-- A walk that is tracked is so at its end, with what it lists behind what was visited. -/
theorem Visits.tracked (h : graph.Visits marked waiting listed)
    (htracked : graph.Tracked id marked waiting visited) :
    ∃ last, graph.Tracked id last [] (visited ++ listed) := by
  induction h generalizing visited with
  | done => exact ⟨_, by simpa using htracked⟩
  | next pushed _ ih =>
    obtain ⟨last, hlast⟩ := ih (htracked.next pushed)
    exact ⟨last, by simpa using hlast⟩

/-- Where all that a rule leads to is there, no more rules have been visited and wait than there
are. -/
theorem Tracked.length_le (h : graph.Tracked id marked waiting visited)
    (hthere : ∀ rule, graph.LeadsTo id rule → ∃ found, graph.rule? rule = some found) :
    visited.length + waiting.length ≤ graph.size := by
  have hsubset : marked ⊆ graph.ids := fun rule hrule => by
    obtain ⟨found, hfound⟩ := hthere rule (h.leads rule hrule)
    exact mem_ids hfound
  calc visited.length + waiting.length
      = marked.length := by rw [← List.length_append, h.perm.length_eq]
    _ ≤ graph.ids.length := (h.nodup.subperm hsubset).length_le
    _ = graph.size := graph.length_ids

/-- A bound that leaves a visit for each rule of the graph is not met. -/
theorem Tracked.visits {limit : Nat} (h : graph.Tracked id marked waiting visited)
    (hthere : ∀ rule, graph.LeadsTo id rule → ∃ found, graph.rule? rule = some found)
    (hlimit : graph.size ≤ visited.length + limit) :
    graph.Visits marked waiting (graph.visit limit marked waiting) := by
  induction limit generalizing marked waiting visited with
  | zero =>
    -- As many rules have been visited as there are, so that none can wait.
    have hle := h.length_le hthere
    obtain rfl : waiting = [] := List.length_eq_zero_iff.1 (by omega)
    exact .done
  | succ limit ih =>
    cases waiting with
    | nil => exact .done
    | cons rule waiting =>
      -- One more rule is visited, and one step fewer is left.
      refine .next rfl (ih (h.next rfl) ?_)
      rw [List.length_append, List.length_singleton]
      omega

end Graph

namespace Grammar

variable {definition : Definition} {others : List Definition} {grammar : Grammar E} {id : RuleId}

/-- What a rule of a compiled graph leads to is there. -/
theorem exists_rule_of_leadsTo (h : compile E definition others = .ok grammar) {rule : RuleId}
    (hid : ∃ found, grammar.graph.rule? id = some found)
    (hleads : grammar.graph.LeadsTo id rule) :
    ∃ found, grammar.graph.rule? rule = some found := by
  -- What a rule of the graph holds is in the graph.
  cases hleads with
  | refl => exact hid
  | @tail holder _ _ hheld =>
    cases hholder : grammar.graph.rule? holder with
    | none => simp [Graph.children, hholder] at hheld
    | some found =>
      rw [Graph.children, hholder] at hheld
      exact exists_child_of_compile h hholder hheld

/-- The walk from a rule of a compiled grammar ends. It lists the rule first, and just
what the rule leads to; each is there, is listed once, and comes behind one that holds it
unless it is the first. -/
theorem reachable_exact (h : compile E definition others = .ok grammar)
    (hid : ∃ rule, grammar.graph.rule? id = some rule) :
    (∀ listed, grammar.graph.Visits [id] [id] listed ↔ listed = grammar.graph.reachable id) ∧
    (grammar.graph.reachable id).head? = some id ∧
    (∀ other, other ∈ grammar.graph.reachable id ↔ grammar.graph.LeadsTo id other) ∧
    (grammar.graph.reachable id).Nodup ∧
    (∀ other ∈ grammar.graph.reachable id, ∃ rule, grammar.graph.rule? other = some rule) ∧
    ∀ front other back, grammar.graph.reachable id = front ++ other :: back → other ≠ id →
      ∃ holder ∈ front, other ∈ grammar.graph.children holder := by
  have hthere : ∀ rule, grammar.graph.LeadsTo id rule →
      ∃ found, grammar.graph.rule? rule = some found :=
    fun rule => exists_rule_of_leadsTo h hid
  have hvisits : grammar.graph.Visits [id] [id] (grammar.graph.reachable id) :=
    (Graph.Tracked.start grammar.graph id).visits hthere (by simp)
  obtain ⟨last, htracked⟩ := hvisits.tracked (.start grammar.graph id)
  rw [List.nil_append] at htracked
  have hnodup : (grammar.graph.reachable id ++ []).Nodup := htracked.perm.nodup_iff.2 htracked.nodup
  rw [List.append_nil] at hnodup
  -- The walk that is told over the graph ends, and there is only one.
  refine ⟨fun listed => ⟨fun hlisted => hlisted.unique hvisits, fun heq => heq ▸ hvisits⟩,
    rfl, fun other => htracked.mem_iff, hnodup, fun other hother => ?_, htracked.behind⟩
  exact hthere other (htracked.mem_iff.1 hother)

/-- From the root of `woven` two includes are visited that stand for the outer container, but not
the place of that container itself, which has number 4. -/
theorem reachable_exact_woven : ∃ grammar, compile Engine.literal .woven [] = .ok grammar ∧
    (∃ rule, grammar.graph.rule? grammar.root = some rule) ∧
    grammar.graph.Visits [grammar.root] [grammar.root]
      ([0, 8, 1, 5, 6, 2, 3, 9].map fun index => ⟨"text.woven", index⟩) ∧
    ¬grammar.graph.LeadsTo grammar.root ⟨"text.woven", 4⟩ := by
  have haccepted : Definition.woven.IsAccepted Engine.literal := by decide +kernel
  have h : compile Engine.literal .woven [] = .ok _ := compile_eq_ok_iff.2 ⟨haccepted, rfl⟩
  have hroot := rule?_root_of_compile h
  obtain ⟨hvisits, -, hmem, -⟩ := reachable_exact h ⟨_, hroot⟩
  refine ⟨_, h, ⟨_, hroot⟩, (hvisits _).2 (by decide +kernel), fun hleads => ?_⟩
  exact absurd ((hmem _).2 hleads) (by decide +kernel)

end Grammar

end TextScopes
