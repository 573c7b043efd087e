import TextScopes.Proofs.Grammar.Renaming
import TextScopes.Proofs.Tokenizer.Ending

/-!
# Grammars that read alike under other identifiers

When the rules of a grammar stand in another one under other identifiers, a tokenizer goes with the
second as with the first. Identifiers are compared and remembered, so that with the open regions and
with what is remembered under the other identifiers the same event comes next
(`Grammar.Renames.nextEvent_eq`), and a step comes to what the step of the first comes to, under the
other identifiers (`Tokenizer.Renames.step?_eq`). No token shows an identifier. The bounds on the
steps of a line differ with the sizes of the graphs, but the loops that they bound do not: texts are
read alike (`Tokenizer.tokens_eq_of_renames`).
-/

namespace TextScopes

variable {E : Engine} {ρ : RuleId → RuleId}

/-- An open region of a rule that has another identifier. -/
def Frame.rename (ρ : RuleId → RuleId) (frame : Frame E) : Frame E :=
  { frame with rule := ρ frame.rule }

/-- What was found for rules that have other identifiers. -/
def Memo.rename (ρ : RuleId → RuleId) (memo : Memo) : Memo :=
  memo.map fun (id, found) => (ρ id, found)

/-- An event of a rule that has another identifier. -/
def Event.rename (ρ : RuleId → RuleId) : Event → Event
  | .opening id found => .opening (ρ id) found
  | .closing found => .closing found

/-- How far a line has been read, by rules that have other identifiers. -/
def Scan.rename (ρ : RuleId → RuleId) (scan : Scan E) : Scan E :=
  ⟨scan.pos, scan.frames.map (Frame.rename ρ), scan.memo.rename ρ⟩

/-- A rule that has another identifier, with its match. -/
def renameMatch (ρ : RuleId → RuleId) (x : RuleId × Match) : RuleId × Match := (ρ x.1, x.2)

namespace Frames

/-- Where the scopes inside a region belong does not depend on identifiers. -/
theorem contentLevel_rename (ρ : RuleId → RuleId) (frames : Frames E) :
    contentLevel (frames.map (Frame.rename ρ)) = frames.contentLevel := by
  cases frames <;> rfl

/-- Regions are closed alike under other identifiers. -/
theorem close_rename (ρ : RuleId → RuleId) (frames : Frames E) (stop : Nat) :
    close (frames.map (Frame.rename ρ)) stop = frames.close stop := by
  rw [close, List.flatMap_map]
  rfl

/-- A region of a rule starts at a place just when one of the rule's other identifier does. -/
theorem startsAt_rename (hρ : Function.Injective ρ) (frames : Frames E) (id : RuleId)
    (offset : Nat) :
    startsAt (frames.map (Frame.rename ρ)) (ρ id) offset = frames.startsAt id offset := by
  rw [startsAt, List.any_map, startsAt]
  congr 1
  funext frame
  have hrule : (frame.rename ρ).rule = ρ frame.rule := rfl
  have hstart : (frame.rename ρ).start = frame.start := rfl
  rw [Function.comp_apply, hrule, hstart, decide_eq_decide.2 hρ.eq_iff]

end Frames

namespace Memo

variable {memo : Memo} {id : RuleId} {content : String} {pos : Nat}

/-- What is remembered for a rule is remembered for its other identifier. -/
theorem find?_rename (hρ : Function.Injective ρ) (memo : Memo) (id : RuleId) :
    find? (memo.rename ρ) (ρ id) = memo.find? id := by
  rw [find?, rename, List.find?_map, find?, Option.map_map]
  simp only [Function.comp_def, hρ.eq_iff]

/-- What is found is remembered for a rule as for its other identifier. -/
theorem put_rename (hρ : Function.Injective ρ) (id : RuleId) (found : Option Match)
    (memo : Memo) :
    put (ρ id) found (memo.rename ρ) = (put id found memo).rename ρ := by
  induction memo with
  | nil => rfl
  | cons entry rest ih =>
    obtain ⟨other, old⟩ := entry
    have hcons : rename ρ ((other, old) :: rest) = (ρ other, old) :: rename ρ rest := rfl
    simp only [hcons, put, hρ.eq_iff]
    -- As the renaming is injective, the one that is replaced is the same.
    split
    next => rfl
    next => exact congrArg _ ih

/-- A search finds the same under the other identifiers. -/
theorem search_rename (hρ : Function.Injective ρ) (memo : Memo) (id : RuleId)
    (opening : Expression E)
    (content : String) (pos : Nat) : search (memo.rename ρ) (ρ id) opening content pos =
      ((memo.search id opening content pos).1,
        (memo.search id opening content pos).2.rename ρ) := by
  have hrefresh : refresh (memo.rename ρ) (ρ id) opening content pos =
      ((memo.refresh id opening content pos).1,
        (memo.refresh id opening content pos).2.rename ρ) := by
    simp only [refresh, put_rename hρ]
  rw [search, search, find?_rename hρ, hrefresh]
  split
  · rfl
  · split <;> rfl
  · rfl

end Memo

namespace Grammar

/-- The rules of a grammar are in another one under other identifiers, the root among them. -/
structure Renames (ρ : RuleId → RuleId) (grammar larger : Grammar E) : Prop where
  graph : grammar.graph.Renames ρ larger.graph
  root : larger.root = ρ grammar.root
  rootRule : ∃ rule, grammar.graph.rule? grammar.root = some rule

/-- The rules of open regions are rules of the grammar. -/
def Knows (grammar : Grammar E) (frames : Frames E) : Prop :=
  ∀ frame ∈ frames, ∃ rule, grammar.graph.rule? frame.rule = some rule

variable {grammar larger : Grammar E} {frames : Frames E} {content : String} {offset pos : Nat}
  {memo : Memo} {id : RuleId} {found : Match}

/-- Taking a further rule into account keeps to rules of the grammar. -/
theorem exists_rule_of_mem_consider {state : Option (RuleId × Match) × Memo} (id : RuleId)
    (hbest : ∀ x ∈ state.1, ∃ rule, grammar.graph.rule? x.1 = some rule) :
    ∀ x ∈ (grammar.consider frames content offset pos state id).1,
      ∃ rule, grammar.graph.rule? x.1 = some rule := by
  intro x hx
  unfold consider at hx
  split at hx
  next => exact hbest x hx
  next opening hopening =>
    split at hx
    next => exact hbest x hx
    next found memo hsearch =>
      -- Past the guard the candidate itself may be the best.
      split at hx
      next => exact hbest x hx
      next =>
        rcases eq_or_mem_of_earlier hx with rfl | hx
        · -- It has a pattern, which a rule that is missing has not.
          rw [rule] at hopening
          cases hrule : grammar.graph.rule? id with
          | none =>
            rw [hrule] at hopening
            cases hopening
          | some rule => exact ⟨rule, rfl⟩
        · exact hbest x hx

/-- What opens is a rule of the grammar. -/
theorem exists_rule_of_mem_firstOpening {x : RuleId × Match}
    (hmem : x ∈ (grammar.firstOpening frames content offset pos memo).1) :
    ∃ rule, grammar.graph.rule? x.1 = some rule := by
  -- The induction is on the rules that are left to be considered.
  have key : ∀ (ids : List RuleId) (state : Option (RuleId × Match) × Memo),
      (∀ x ∈ state.1, ∃ rule, grammar.graph.rule? x.1 = some rule) →
      ∀ x ∈ (ids.foldl (grammar.consider frames content offset pos) state).1,
        ∃ rule, grammar.graph.rule? x.1 = some rule := by
    intro ids
    induction ids with
    | nil => exact fun state hbest => hbest
    | cons id ids ih => exact fun state hbest => ih _ (exists_rule_of_mem_consider id hbest)
  exact key _ _ (by simp) x hmem

/-- An event of a rule is of one of the grammar's. -/
theorem exists_rule_of_nextEvent
    (h : (grammar.nextEvent frames content offset pos memo).1 = some (.opening id found)) :
    ∃ rule, grammar.graph.rule? id = some rule := by
  have hopened : ∃ x ∈ (grammar.firstOpening frames content offset pos memo).1, x.1 = id := by
    cases frames with
    | nil =>
      rcases opened_or_closed_of_choose h with ⟨x, hx, heq⟩ | ⟨_, hnone, -⟩
      · exact ⟨x, hx, (Event.opening.inj heq).1.symm⟩
      · cases hnone
    | cons frame outer =>
      rcases opened_or_closed_of_choose h with ⟨x, hx, heq⟩ | ⟨_, -, heq⟩
      · exact ⟨x, hx, (Event.opening.inj heq).1.symm⟩
      · cases heq
  obtain ⟨x, hx, rfl⟩ := hopened
  exact exists_rule_of_mem_firstOpening hx

/-- Of two matches the earlier one is the same under the other identifiers. -/
theorem earlier_rename (ρ : RuleId → RuleId) (best : Option (RuleId × Match)) (id : RuleId)
    (found : Match) : earlier (best.map (renameMatch ρ)) (ρ id) found =
      (earlier best id found).map (renameMatch ρ) := by
  cases best with
  | none => rfl
  | some first =>
    simp only [earlier, Option.map_some, renameMatch]
    split <;> rfl

/-- What comes first is the same under the other identifiers. -/
theorem choose_rename (ρ : RuleId → RuleId) (closesLast : Bool)
    (opened : Option (RuleId × Match))
    (closed : Option Match) : choose closesLast (opened.map (renameMatch ρ)) closed =
      (choose closesLast opened closed).map (Event.rename ρ) := by
  cases opened with
  | none => cases closed <;> rfl
  | some x =>
    cases closed with
    | none => rfl
    | some last =>
      simp only [choose, Option.map_some, renameMatch]
      split <;> rfl

namespace Renames

/-- A rule of the grammar is the same in the other, and holds the same under the other
identifiers. -/
theorem rule_eq (h : grammar.Renames ρ larger) {rule : Rule E}
    (hrule : grammar.graph.rule? id = some rule) :
    larger.rule (ρ id) = (grammar.rule id).rename ρ := by
  rw [Grammar.rule, Grammar.rule, hrule, h.graph.rule id rule hrule, Option.getD_some,
    Option.getD_some]

/-- A rule of the grammar is taken into account as in the other. -/
theorem consider_eq (h : grammar.Renames ρ larger) {rule : Rule E}
    (hrule : grammar.graph.rule? id = some rule) (best : Option (RuleId × Match)) (memo : Memo) :
    larger.consider (frames.map (Frame.rename ρ)) content offset pos
        (best.map (renameMatch ρ), memo.rename ρ) (ρ id) =
      ((grammar.consider frames content offset pos (best, memo) id).1.map (renameMatch ρ),
        (grammar.consider frames content offset pos (best, memo) id).2.rename ρ) := by
  -- Both the guard and the pattern are read from the rule, which is kept.
  have hreopens : ∀ found, larger.reopens (frames.map (Frame.rename ρ)) offset (ρ id) found =
      grammar.reopens frames offset id found := fun found => by
    rw [reopens, reopens, h.rule_eq hrule, Frames.startsAt_rename h.graph.injective, Rule.rename]
  have hkind : (larger.rule (ρ id)).kind = (grammar.rule id).kind := by
    rw [h.rule_eq hrule, Rule.rename]
  simp only [consider, hkind]
  cases (grammar.rule id).kind.opening? with
  | none => rfl
  | some opening =>
    simp only [Memo.search_rename h.graph.injective, hreopens]
    cases hsearch : memo.search id opening content pos with
    | mk searched memo =>
      cases searched with
      | none => rfl
      | some found =>
        dsimp only
        split
        next => rfl
        next => rw [earlier_rename]

/-- The first match of the rules that are tried in a place is the same in both grammars. -/
theorem foldl_eq (h : grammar.Renames ρ larger) {ids : List RuleId}
    (hids : ∀ id ∈ ids, ∃ rule, grammar.graph.rule? id = some rule)
    (best : Option (RuleId × Match)) (memo : Memo) :
    (ids.map ρ).foldl (larger.consider (frames.map (Frame.rename ρ)) content offset pos)
        (best.map (renameMatch ρ), memo.rename ρ) =
      ((ids.foldl (grammar.consider frames content offset pos) (best, memo)).1.map (renameMatch ρ),
        (ids.foldl (grammar.consider frames content offset pos) (best, memo)).2.rename ρ) := by
  induction ids generalizing best memo with
  | nil => rfl
  | cons id ids ih =>
    obtain ⟨⟨rule, hrule⟩, hrest⟩ := List.forall_mem_cons.1 hids
    rw [List.map_cons, List.foldl_cons, List.foldl_cons, h.consider_eq hrule, ih hrest]

/-- The event that comes next is the same in both grammars. -/
theorem nextEvent_eq (h : grammar.Renames ρ larger) (hframes : grammar.Knows frames) :
    larger.nextEvent (frames.map (Frame.rename ρ)) content offset pos (memo.rename ρ) =
      ((grammar.nextEvent frames content offset pos memo).1.map (Event.rename ρ),
        (grammar.nextEvent frames content offset pos memo).2.rename ρ) := by
  -- The candidates of a rule of the grammar are rules of the grammar.
  have hfold : ∀ {inside : RuleId} {rule : Rule E}, grammar.graph.rule? inside = some rule →
      (larger.candidates (ρ inside)).foldl
          (larger.consider (frames.map (Frame.rename ρ)) content offset pos)
          (none, memo.rename ρ) =
        (((grammar.candidates inside).foldl (grammar.consider frames content offset pos)
            (none, memo)).1.map (renameMatch ρ),
          ((grammar.candidates inside).foldl (grammar.consider frames content offset pos)
            (none, memo)).2.rename ρ) := by
    intro inside rule hrule
    rw [candidates, candidates, h.graph.candidates_eq hrule]
    refine h.foldl_eq (fun id hid => ?_) none memo
    obtain ⟨-, hopens⟩ := (Graph.mem_candidates_iff h.graph.names).1 hid
    obtain ⟨candidate, hcandidate, -⟩ := Graph.exists_rule_of_opens hopens
    exact ⟨candidate, hcandidate⟩
  cases frames with
  -- Outside all regions the candidates are those of the root.
  | nil =>
    obtain ⟨root, hroot⟩ := h.rootRule
    have hfold := hfold hroot
    rw [← h.root] at hfold
    simp only [List.map_nil] at hfold
    simp only [nextEvent, firstOpening, List.map_nil, hfold, choose_rename]
  -- Inside a region they are those of its rule.
  | cons frame outer =>
    obtain ⟨rule, hrule⟩ := hframes frame List.mem_cons_self
    have hfold := hfold hrule
    have hlast : larger.closesLast (ρ frame.rule) = grammar.closesLast frame.rule := by
      simp only [closesLast, h.rule_eq hrule, Rule.rename]
    simp only [List.map_cons] at hfold
    have hrulename : (frame.rename ρ).rule = ρ frame.rule := rfl
    have hclosing : (frame.rename ρ).closing = frame.closing := rfl
    simp only [nextEvent, firstOpening, List.map_cons, hrulename, hclosing, hfold, hlast,
      choose_rename]

end Renames

end Grammar

namespace Tokenizer

variable {t larger : Tokenizer E} {content : String} {offset : Nat} {scan next last : Scan E}
  {tokens : List Token}

/-- A tokenizer passes over the same lines as another, and the rules of its grammar are in that of
the other under other identifiers. -/
structure Renames (ρ : RuleId → RuleId) (t larger : Tokenizer E) : Prop where
  grammar : t.grammar.Renames ρ larger.grammar
  maxLineLength : larger.maxLineLength = t.maxLineLength

/-- Regions that are open behind a step are of rules of the grammar, when those before it are. -/
theorem knows_of_step? (hframes : t.grammar.Knows scan.frames)
    (hstep : t.step? content offset scan = some (tokens, next)) : t.grammar.Knows next.frames := by
  unfold step? at hstep
  split at hstep
  next => cases hstep
  next =>
    split at hstep
    next => cases hstep
    -- A region that is opened has a rule of the grammar.
    next id found memo hevent =>
      obtain ⟨rule, hrule⟩ := Grammar.exists_rule_of_nextEvent (congrArg (·.1) hevent)
      unfold readOpening at hstep
      dsimp only at hstep
      split at hstep
      next =>
        obtain ⟨-, rfl⟩ := Prod.mk.inj (Option.some.inj hstep)
        exact hframes
      next =>
        obtain ⟨-, rfl⟩ := Prod.mk.inj (Option.some.inj hstep)
        rintro frame (_ | ⟨_, hframe⟩)
        · exact ⟨rule, hrule⟩
        · exact hframes frame hframe
      next => cases hstep
    -- The regions that are left when one is closed were open before.
    next found memo hevent =>
      unfold readClosing at hstep
      dsimp only at hstep
      split at hstep
      next => cases hstep
      next frame outer hscan =>
        obtain ⟨-, rfl⟩ := Prod.mk.inj (Option.some.inj hstep)
        exact fun other hother => hframes other (hscan ▸ List.mem_cons_of_mem _ hother)

namespace Renames

/-- A match of a rule is read alike. -/
theorem readOpening_eq (h : t.Renames ρ larger) {id : RuleId} {rule : Rule E}
    (hrule : t.grammar.graph.rule? id = some rule) (found : Match) :
    larger.readOpening content offset (scan.rename ρ) (ρ id) found =
      (t.readOpening content offset scan id found).map fun (tokens, next) =>
        (tokens, next.rename ρ) := by
  have hlevel : (scan.rename ρ).frames.contentLevel = scan.frames.contentLevel :=
    Frames.contentLevel_rename ρ scan.frames
  simp only [readOpening, h.grammar.rule_eq hrule, Rule.rename, hlevel]
  cases (t.grammar.rule id).kind <;> rfl

/-- The end of a region is read alike. -/
theorem readClosing_eq (h : t.Renames ρ larger) (hframes : t.grammar.Knows scan.frames)
    (found : Match) :
    larger.readClosing content offset (scan.rename ρ) found =
      (t.readClosing content offset scan found).map fun (tokens, next) =>
        (tokens, next.rename ρ) := by
  obtain ⟨pos, frames, memo⟩ := scan
  cases frames with
  | nil => rfl
  | cons frame outer =>
    obtain ⟨rule, hrule⟩ := hframes frame List.mem_cons_self
    have hcaptures : larger.closingCaptures (ρ frame.rule) = t.closingCaptures frame.rule := by
      simp only [closingCaptures, h.grammar.rule_eq hrule, Rule.rename]
    have hrule : (frame.rename ρ).rule = ρ frame.rule := rfl
    simp only [readClosing, Scan.rename, List.map_cons, hrule, hcaptures]
    rfl

/-- A step of reading a line comes to the same in both. -/
theorem step?_eq (h : t.Renames ρ larger) (hframes : t.grammar.Knows scan.frames) :
    larger.step? content offset (scan.rename ρ) =
      (t.step? content offset scan).map fun (tokens, next) => (tokens, next.rename ρ) := by
  have hevent : larger.grammar.nextEvent (scan.frames.map (Frame.rename ρ)) content offset scan.pos
      (scan.memo.rename ρ) = _ := h.grammar.nextEvent_eq hframes
  have hpos : (scan.rename ρ).pos = scan.pos := rfl
  have hmemo : (scan.rename ρ).memo = scan.memo.rename ρ := rfl
  have hnames : (scan.rename ρ).frames = scan.frames.map (Frame.rename ρ) := rfl
  rw [step?, step?, hpos, hmemo, hnames, hevent]
  split
  next => rfl
  next =>
    cases hnext : t.grammar.nextEvent scan.frames content offset scan.pos scan.memo with
    | mk event memo =>
      cases event with
      | none => rfl
      | some event =>
        cases event with
        -- A rule that is opened is one of the grammar, and so is that of an open region.
        | opening id found =>
          obtain ⟨rule, hrule⟩ := Grammar.exists_rule_of_nextEvent (congrArg (·.1) hnext)
          have hread : larger.readOpening content offset
              (Scan.rename ρ { scan with memo := memo }) (ρ id)
              found = _ := h.readOpening_eq hrule found
          exact hread
        | closing found =>
          have hknown : t.grammar.Knows ({ scan with memo := memo } : Scan E).frames := hframes
          exact h.readClosing_eq hknown found

/-- The loop over the events of a line comes to the same in both. -/
theorem loop (h : t.Renames ρ larger) (hframes : t.grammar.Knows scan.frames)
    (hloop : Loop (t.step? content offset) scan tokens last) :
    Loop (larger.step? content offset) (scan.rename ρ) tokens (last.rename ρ) ∧
      t.grammar.Knows last.frames := by
  -- The states of the one loop are those of the other, renamed.
  induction hloop with
  | done stops =>
    refine ⟨.done ?_, hframes⟩
    rw [h.step?_eq hframes, stops]
    rfl
  | next goes _ ih =>
    obtain ⟨hlater, hlast⟩ := ih (knows_of_step? hframes goes)
    refine ⟨.next ?_ hlater, hlast⟩
    rw [h.step?_eq hframes, goes]
    rfl

/-- A line is read alike. -/
theorem readsLine (h : t.Renames ρ larger) {line : Text.Line} {frames after : Frames E}
    (hframes : t.grammar.Knows frames) (hread : t.ReadsLine line frames tokens after) :
    larger.ReadsLine line (frames.map (Frame.rename ρ)) tokens (after.map (Frame.rename ρ)) ∧
      t.grammar.Knows after := by
  unfold ReadsLine at hread ⊢
  rw [h.maxLineLength]
  split at hread
  -- A line that is too long has no tokens in either.
  next hlong =>
    obtain ⟨rfl, rfl⟩ := hread
    rw [if_pos hlong]
    exact ⟨⟨rfl, rfl⟩, hframes⟩
  next hlong =>
    obtain ⟨last, hloop, rfl⟩ := hread
    obtain ⟨hloop, hlast⟩ := h.loop hframes hloop
    rw [if_neg hlong]
    exact ⟨⟨last.rename ρ, hloop, rfl⟩, hlast⟩

/-- Lines are read alike, one after another. -/
theorem readsLines (h : t.Renames ρ larger) {lines : List Text.Line} {frames after : Frames E}
    (hframes : t.grammar.Knows frames) (hread : ReadsLines t.ReadsLine lines frames tokens after) :
    ReadsLines larger.ReadsLine lines (frames.map (Frame.rename ρ)) tokens
      (after.map (Frame.rename ρ)) := by
  induction hread with
  | nil => exact .nil
  | cons one _ ih =>
    obtain ⟨hone, hbetween⟩ := h.readsLine hframes one
    exact .cons hone (ih hbetween)

end Renames

/-- A text is read alike. -/
theorem tokens_eq_of_renames (hE : E.Bounded) (h : t.Renames ρ larger) (text : String) :
    larger.tokens text = t.tokens text := by
  have htext : t.ReadsText text (t.tokens text) := (readsText_iff hE).2 rfl
  obtain ⟨read, after, hread, htokens⟩ := htext
  have hnone : t.grammar.Knows [] := by simp [Grammar.Knows]
  have hlarger : larger.ReadsText text (t.tokens text) := by
    refine ⟨read, after.map (Frame.rename ρ), h.readsLines hnone hread, ?_⟩
    rw [Frames.close_rename, htokens]
  exact ((readsText_iff hE).1 hlarger).symm

end Tokenizer

end TextScopes
