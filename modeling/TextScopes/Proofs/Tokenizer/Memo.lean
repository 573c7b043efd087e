import TextScopes.Proofs.Tokenizer.Ending

/-!
# The memo changes nothing

A tokenizer remembers, within a line, what it found for a rule. Here the same reading is written
without a memo: at every place each rule inside the innermost region is searched for anew, matches
that would reopen a region are left out (`freshOpenings`), and of the others the first one in the
order of the rules is taken among those that start first (`leftmost`, `leftmost_eq_some_iff`). A
match that ends the innermost region comes before one that starts at the same place, unless the
region's rule puts its end last (`freshEvent`).

`memo_exact` shows for leftmost engines that both come to the same tokens, on every text. What
carries the proof is that all that is remembered has a known source (`Memo.Sourced`): a match that
lies ahead is found again from where the scan stands, and where nothing was found nothing is found
later. So a search with a memo answers what a fresh search answers (`Memo.Sourced.search_eq`).
-/

namespace TextScopes

variable {E : Engine}

/-- With a leftmost engine a search with a memo answers what a fresh search does. -/
theorem Memo.Sourced.search_eq (hL : E.Leftmost) {grammar : Grammar E} {content : String}
    {pos : Nat}
    {memo : Memo} {id : RuleId} {opening : Expression E} (h : memo.Sourced grammar content pos)
    (ho : (grammar.rule id).kind.opening? = some opening)
    (hb : Text.isBoundary content pos = true) :
    (memo.search id opening content pos).1 = opening.findAt content pos := by
  unfold Memo.search
  split
  · -- Nothing was found from further back, so nothing is found from here.
    next hold =>
    obtain ⟨opening', ho', from_, hfrom, hbf, hs⟩ := h id _ hold
    obtain rfl := Option.some.inj (ho.symm.trans ho')
    exact (Expression.findAt_eq_none_of_le hL hbf hb hfrom hs).symm
  · next old hold =>
    split
    · -- What was found from further back lies ahead, and is found from here as well.
      next hle =>
      obtain ⟨opening', ho', from_, hfrom, hbf, hs⟩ := h id _ hold
      obtain rfl := Option.some.inj (ho.symm.trans ho')
      have hfinds : opening.Finds content pos old := ⟨hle, from_, hfrom, hbf, hs⟩
      exact (hfinds.findAt_eq hL hb).symm
    · rfl
  · rfl

namespace Grammar

/-- The rule whose candidates are tried: that of the innermost region, or the root outside of
all. -/
def innermost (grammar : Grammar E) : Frames E → RuleId
  | [] => grammar.root
  | frame :: _ => frame.rule

/-- What a fresh search for a rule finds, unless it would open a region of the same rule where one
is open already, without a byte. -/
def freshOpening? (grammar : Grammar E) (frames : Frames E) (content : String) (offset pos : Nat)
    (id : RuleId) : Option (RuleId × Match) := do
  let opening ← (grammar.rule id).kind.opening?
  let found ← opening.findAt content pos
  if found.isEmpty ∧ (grammar.rule id).kind.opensRegion ∧
      ∃ frame ∈ frames, frame.rule = id ∧ frame.start = offset + found.span.start then none
  else some (id, found)

/-- What fresh searches find for the rules inside the innermost region, in the order of the
rules. -/
def freshOpenings (grammar : Grammar E) (frames : Frames E) (content : String) (offset pos : Nat) :
    List (RuleId × Match) :=
  (grammar.candidates (grammar.innermost frames)).filterMap
    (grammar.freshOpening? frames content offset pos)

/-- The first among the matches that start first. -/
def leftmost : List (RuleId × Match) → Option (RuleId × Match)
  | [] => none
  | first :: rest =>
    match leftmost rest with
    | none => some first
    | some other => if other.2.span.start < first.2.span.start then some other else some first

/-- What comes next in a line when nothing is remembered. -/
def freshEvent (grammar : Grammar E) (frames : Frames E) (content : String) (offset pos : Nat) :
    Option Event :=
  let opened := leftmost (grammar.freshOpenings frames content offset pos)
  match frames with
  | [] => opened.map fun (id, found) => .opening id found
  | frame :: _ =>
    match opened, frame.closing.findAt content pos with
    | none, closed => closed.map .closing
    | some (id, found), none => some (.opening id found)
    | some (id, found), some closed =>
      if found.span.start < closed.span.start ∨
          found.span.start = closed.span.start ∧ grammar.closesLast frame.rule = true then
        some (.opening id found)
      else some (.closing closed)

variable {grammar : Grammar E} {frames : Frames E} {content : String} {offset pos : Nat}

/-- Nothing is leftmost only among no matches. -/
theorem leftmost_eq_none_iff {found : List (RuleId × Match)} :
    leftmost found = none ↔ found = [] := by
  cases found with
  | nil => simp [leftmost]
  | cons first rest =>
    simp only [leftmost, reduceCtorEq, iff_false]
    split
    · simp
    · split <;> simp

/-- The leftmost match starts before all that come before it, and no later than those behind it. -/
theorem leftmost_eq_some_iff {found : List (RuleId × Match)} {x : RuleId × Match} :
    leftmost found = some x ↔ ∃ front back, found = front ++ x :: back ∧
      (∀ y ∈ front, x.2.span.start < y.2.span.start) ∧
      ∀ y ∈ back, x.2.span.start ≤ y.2.span.start := by
  induction found generalizing x with
  | nil => simp [leftmost]
  | cons first rest ih =>
    -- The first match is taken over the leftmost of the others unless that starts before it.
    constructor
    · intro h
      unfold leftmost at h
      split at h
      · next hnone =>
        obtain rfl := Option.some.inj h
        rw [leftmost_eq_none_iff] at hnone
        exact ⟨[], [], by rw [hnone]; rfl, by simp, by simp⟩
      · next other hother =>
        -- The others have a leftmost match.
        obtain ⟨front, back, rfl, hfront, hback⟩ := ih.1 hother
        split at h
        · next hlt =>
          obtain rfl := Option.some.inj h
          refine ⟨first :: front, back, rfl, fun y hy => ?_, hback⟩
          rcases List.mem_cons.1 hy with rfl | hy
          · exact hlt
          · exact hfront y hy
        · next hle =>
          obtain rfl := Option.some.inj h
          refine ⟨[], front ++ other :: back, rfl, by simp, fun y hy => ?_⟩
          rcases List.mem_append.1 hy with hy | hy
          · have := hfront y hy
            omega
          · rcases List.mem_cons.1 hy with rfl | hy
            · omega
            · have := hback y hy
              omega
    · rintro ⟨front, back, heq, hfront, hback⟩
      -- The match is the first one itself, or the leftmost of the others.
      cases front with
      | nil =>
        obtain ⟨rfl, rfl⟩ := List.cons.inj heq
        unfold leftmost
        split
        · rfl
        · next other hother =>
          have hmem : other ∈ rest := by
            obtain ⟨front', back', rfl, -⟩ := ih.1 hother
            simp
          have := hback other hmem
          rw [if_neg (by omega)]
      | cons head front =>
        rw [List.cons_append, List.cons.injEq] at heq
        obtain ⟨rfl, rfl⟩ := heq
        have hrest : leftmost (front ++ x :: back) = some x :=
          ih.2 ⟨front, back, rfl, fun y hy => hfront y (List.mem_cons_of_mem _ hy), hback⟩
        unfold leftmost
        rw [hrest]
        dsimp only
        rw [if_pos (hfront first List.mem_cons_self)]

/-- Taking a match into account at once is taking it into account with those behind it. -/
theorem leftmost_earlier (best : Option (RuleId × Match)) (id : RuleId) (found : Match)
    (rest : List (RuleId × Match)) :
    leftmost ((earlier best id found).toList ++ rest) =
      leftmost (best.toList ++ (id, found) :: rest) := by
  match best with
  | none => rfl
  | some (other, first) =>
    -- The new match takes the place of the one before, or stays behind it; the others come last.
    by_cases hnew : found.span.start < first.span.start
    · simp only [earlier, hnew, if_true, Option.toList_some, List.singleton_append, leftmost]
      cases leftmost rest with
      | none => simp only [hnew, if_true]
      -- Three matches compete, and the order in which they are compared does not matter.
      | some later =>
        dsimp only
        by_cases hlater : later.2.span.start < found.span.start
        · simp only [hlater, if_true]
          rw [if_pos (by omega)]
        · simp only [hlater, hnew, if_true, if_false]
    · simp only [earlier, hnew, if_false, Option.toList_some, List.singleton_append, leftmost]
      cases leftmost rest with
      | none => simp only [hnew, if_false]
      -- So they do here, where the match before stays.
      | some later =>
        dsimp only
        by_cases hlater : later.2.span.start < found.span.start
        · simp only [hlater, if_true]
        · simp only [hlater, hnew, if_false]
          rw [if_neg (by omega)]

/-- A match reopens a region when it has no byte and one of the same rule starts where it does. -/
theorem reopens_iff {id : RuleId} {found : Match} :
    grammar.reopens frames offset id found = true ↔
      found.isEmpty ∧ (grammar.rule id).kind.opensRegion ∧
        ∃ frame ∈ frames, frame.rule = id ∧ frame.start = offset + found.span.start := by
  simp only [reopens, Frames.startsAt, Bool.and_eq_true, List.any_eq_true, decide_eq_true_eq,
    and_assoc]

/-- Taking a rule into account with a memo is taking what a fresh search finds. -/
theorem consider_fst (hL : E.Leftmost) {state : Option (RuleId × Match) × Memo} (id : RuleId)
    (hb : Text.isBoundary content pos = true) (hmemo : state.2.Sourced grammar content pos)
    (rest : List (RuleId × Match)) :
    leftmost ((grammar.consider frames content offset pos state id).1.toList ++ rest) =
      leftmost (state.1.toList ++
        ((grammar.freshOpening? frames content offset pos id).toList ++ rest)) := by
  unfold consider
  split
  · -- An inert rule is no candidate.
    next hk => simp [freshOpening?, hk]
  · next opening ho =>
    have hsearch := hmemo.search_eq hL ho hb
    split
    · -- Its pattern has no match from here.
      next hs =>
      rw [hs] at hsearch
      simp [freshOpening?, ho, ← hsearch]
    · -- The remembered match is what a new search finds.
      next found memo hs =>
      rw [hs] at hsearch
      have hfresh : grammar.freshOpening? frames content offset pos id =
          if grammar.reopens frames offset id found = true then none else some (id, found) := by
        simp only [freshOpening?, ho, ← hsearch, Option.bind_eq_bind, Option.bind_some]
        simp only [reopens_iff]
      rw [hfresh]
      split
      · rfl
      · exact leftmost_earlier state.1 id found rest

/-- The first match that a memo gives is the leftmost that fresh searches find. -/
theorem firstOpening_fst (hE : E.Bounded) (hL : E.Leftmost) (frames : Frames E) (offset : Nat)
    {memo : Memo} (hb : Text.isBoundary content pos = true)
    (hmemo : memo.Sourced grammar content pos) :
    (grammar.firstOpening frames content offset pos memo).1 =
      leftmost (grammar.freshOpenings frames content offset pos) := by
  have hfold : grammar.firstOpening frames content offset pos memo =
      (grammar.candidates (grammar.innermost frames)).foldl
        (grammar.consider frames content offset pos) (none, memo) := by
    cases frames <;> rfl
  -- The induction is on the rules; what is remembered keeps its known source.
  have key : ∀ (ids : List RuleId) (state : Option (RuleId × Match) × Memo),
      (∀ x ∈ state.1, grammar.Opens frames content offset pos x.1 x.2) →
      state.2.Sourced grammar content pos →
      (ids.foldl (grammar.consider frames content offset pos) state).1 =
        leftmost (state.1.toList ++
          ids.filterMap (grammar.freshOpening? frames content offset pos)) := by
    intro ids
    induction ids with
    -- Without an innermost region nothing can close.
    | nil =>
      intro state _ _
      cases h : state.1 <;> simp [leftmost, h]
    | cons id ids ih =>
      intro state hbest hsourced
      obtain ⟨hbest', hsourced'⟩ := consider_opens hE id hb hbest hsourced
      rw [List.foldl_cons, ih _ hbest' hsourced', consider_fst hL id hb hsourced]
      congr 2
      rw [List.filterMap_cons]
      cases grammar.freshOpening? frames content offset pos id <;> rfl
  rw [hfold]
  exact key _ (none, memo) (by simp) hmemo

/-- The event that comes next is the one that comes next when nothing is remembered. -/
theorem nextEvent_fst (hE : E.Bounded) (hL : E.Leftmost) {memo : Memo}
    (hb : Text.isBoundary content pos = true) (hmemo : memo.Sourced grammar content pos) :
    (grammar.nextEvent frames content offset pos memo).1 =
      grammar.freshEvent frames content offset pos := by
  have hfirst := firstOpening_fst hE hL frames offset hb hmemo
  cases frames with
  | nil =>
    simp only [nextEvent, freshEvent, hfirst]
    cases leftmost (grammar.freshOpenings [] content offset pos) <;> rfl
  | cons frame outer =>
    simp only [nextEvent, freshEvent, hfirst]
    cases leftmost (grammar.freshOpenings (frame :: outer) content offset pos) with
    -- Only the end can come.
    | none => cases frame.closing.findAt content pos <;> rfl
    | some x =>
      cases frame.closing.findAt content pos with
      | none => rfl
      | some closed =>
        simp only [choose, Bool.or_eq_true, decide_eq_true_eq, Bool.and_eq_true,
          Bool.not_eq_true']
        -- At one place the end comes first, unless the rule puts it last.
        cases hlast : grammar.closesLast frame.rule
        · simp only [Bool.false_eq_true, and_false, or_false, and_true]
          by_cases hlt : x.2.span.start < closed.span.start
          · rw [if_neg (by omega), if_pos hlt]
          · rw [if_pos (by omega), if_neg hlt]
        · simp only [Bool.true_eq_false, and_false, or_false, and_true]
          by_cases hlt : closed.span.start < x.2.span.start
          · rw [if_pos hlt, if_neg (by omega)]
          · rw [if_neg hlt, if_pos (by omega)]

end Grammar

namespace Tokenizer

/-- Reads the next event of a line, with nothing remembered. -/
def freshStep? (t : Tokenizer E) (content : String) (offset : Nat) (scan : Scan E) :
    Option (List Token × Scan E) :=
  if content.utf8ByteSize < scan.pos then none
  else
    match t.grammar.freshEvent scan.frames content offset scan.pos with
    | none => none
    | some (.opening id found) => t.readOpening content offset scan id found
    | some (.closing found) => t.readClosing content offset scan found

/-- What a line comes to with nothing remembered; a line that is too long is passed over. -/
def FreshReadsLine (t : Tokenizer E) (line : Text.Line) (frames : Frames E) (tokens : List Token)
    (after : Frames E) : Prop :=
  if t.maxLineLength < line.content.utf8ByteSize then tokens = [] ∧ after = frames
  else ∃ last, Loop (t.freshStep? line.content line.start) ⟨0, frames, []⟩ tokens last ∧
    last.frames = after

/-- What a text comes to with nothing remembered. -/
def FreshReadsText (t : Tokenizer E) (text : String) (tokens : List Token) : Prop :=
  ∃ read after, ReadsLines t.FreshReadsLine (Text.lines text) [] read after ∧
    tokens = read ++ after.close text.utf8ByteSize

variable {t : Tokenizer E} {content : String} {offset : Nat} {scan fresh last : Scan E}
  {tokens : List Token}

/-- Two scans that stand at one place, with the same open regions. -/
def Alike (scan fresh : Scan E) : Prop := scan.pos = fresh.pos ∧ scan.frames = fresh.frames

/-- Alike scans step alike, the one with its memo and the other without. -/
theorem freshStep?_of_alike (hE : E.Bounded) (hL : E.Leftmost) (offset : Nat)
    (hs : scan.Sound t.grammar content) (ha : Alike scan fresh) :
    (t.step? content offset scan = none ∧ t.freshStep? content offset fresh = none) ∨
      ∃ tokens next next', t.step? content offset scan = some (tokens, next) ∧
        t.freshStep? content offset fresh = some (tokens, next') ∧ Alike next next' := by
  obtain ⟨pos, frames, memo⟩ := scan
  obtain ⟨pos', frames', memo'⟩ := fresh
  obtain ⟨rfl, rfl⟩ : pos = pos' ∧ frames = frames' := ha
  unfold step? freshStep?
  dsimp only
  by_cases hin : content.utf8ByteSize < pos
  · -- Behind the end both stop.
    exact .inl ⟨if_pos hin, if_pos hin⟩
  · rw [if_neg hin, if_neg hin]
    have hb := hs.boundary (Nat.le_of_not_lt hin)
    rw [← Grammar.nextEvent_fst hE hL hb hs.sourced]
    dsimp only
    obtain ⟨event, later⟩ := t.grammar.nextEvent frames content offset pos memo
    match event with
    | none => exact .inl ⟨rfl, rfl⟩
    -- The same event is read by both in the same way.
    | some (.opening id found) =>
      simp only [readOpening]
      split
      · exact .inr ⟨_, _, _, rfl, rfl, rfl, rfl⟩
      · exact .inr ⟨_, _, _, rfl, rfl, rfl, rfl⟩
      · exact .inl ⟨rfl, rfl⟩
    | some (.closing found) =>
      simp only [readClosing]
      split
      · exact .inl ⟨rfl, rfl⟩
      · exact .inr ⟨_, _, _, rfl, rfl, rfl, rfl⟩

/-- A loop with a memo is a loop without one. -/
theorem loop_fresh (hE : E.Bounded) (hL : E.Leftmost) (hs : scan.Sound t.grammar content)
    (ha : Alike scan fresh) (h : Loop (t.step? content offset) scan tokens last) :
    ∃ last', Loop (t.freshStep? content offset) fresh tokens last' ∧ Alike last last' := by
  induction h generalizing fresh with
  -- The step that stops, or goes on, does so with either search.
  | done stops =>
    rcases freshStep?_of_alike hE hL offset hs ha with ⟨-, hfresh⟩ | ⟨_, _, _, hstep, -⟩
    · exact ⟨fresh, .done hfresh, ha⟩
    · rw [stops] at hstep
      cases hstep
  | next goes later ih =>
    rcases freshStep?_of_alike hE hL offset hs ha with
      ⟨hstep, -⟩ | ⟨_, _, next', hstep, hfresh, ha'⟩
    · rw [goes] at hstep
      cases hstep
    · rw [goes] at hstep
      cases hstep
      obtain ⟨last', hloop, hlast⟩ := ih (hs.step hE goes).2.2 ha'
      exact ⟨last', .next hfresh hloop, hlast⟩

/-- What a line comes to with nothing remembered is what it comes to. -/
theorem freshReadsLine_iff (hE : E.Bounded) (hL : E.Leftmost) {line : Text.Line}
    {frames after : Frames E} :
    t.FreshReadsLine line frames tokens after ↔ (tokens, after) = t.line line frames := by
  rw [← readsLine_iff hE]
  unfold FreshReadsLine ReadsLine
  split
  · exact Iff.rfl
  · have hs := Scan.Sound.start t.grammar line.content frames
    constructor
    · rintro ⟨last', hloop', rfl⟩
      -- The loop with a memo ends, and the one without follows it to the same end.
      obtain ⟨last, hloop, -⟩ := loop_run hE line.start hs
        (t.potential_start_le line.content line.start frames)
      obtain ⟨last'', hfresh, ha⟩ := loop_fresh hE hL hs ⟨rfl, rfl⟩ hloop
      obtain ⟨rfl, rfl⟩ := hloop'.unique hfresh
      exact ⟨last, hloop, ha.2⟩
    · rintro ⟨last, hloop, rfl⟩
      obtain ⟨last', hfresh, ha⟩ := loop_fresh hE hL hs ⟨rfl, rfl⟩ hloop
      exact ⟨last', hfresh, ha.2.symm⟩

/-- The memo of a line changes nothing. With a leftmost engine a text comes to the same tokens, in
the same order, when nothing is remembered: when at every place all rules inside the innermost
region and its end are searched for anew. -/
theorem memo_exact (hE : E.Bounded) (hL : E.Leftmost) (t : Tokenizer E) (text : String) :
    ∀ tokens, t.FreshReadsText text tokens ↔ tokens = t.tokens text := by
  intro tokens
  unfold FreshReadsText Tokenizer.tokens
  constructor
  · rintro ⟨read, after, hread, rfl⟩
    rw [← (readsLines_iff fun _ _ _ _ => freshReadsLine_iff hE hL).1 hread]
  · rintro rfl
    exact ⟨_, _, (readsLines_iff fun _ _ _ _ => freshReadsLine_iff hE hL).2 rfl, rfl⟩

/-- Nested brackets over two lines, read with nothing remembered. -/
theorem memo_exact_brackets :
    Engine.literal.Bounded ∧ Engine.literal.Leftmost ∧
      FreshReadsText ⟨Grammar.brackets, 80⟩ "<x<>\nx>"
        [⟨"bracket", ⟨0, 1⟩, 1⟩, ⟨"mark", ⟨1, 2⟩, 1⟩,
          ⟨"bracket", ⟨2, 3⟩, 2⟩, ⟨"bracket", ⟨3, 4⟩, 2⟩,
          ⟨"angle", ⟨2, 4⟩, 1⟩, ⟨"mark", ⟨5, 6⟩, 1⟩,
          ⟨"bracket", ⟨6, 7⟩, 1⟩, ⟨"angle", ⟨0, 7⟩, 0⟩] :=
  ⟨Engine.literal_bounded, Engine.literal_leftmost,
    (memo_exact Engine.literal_bounded Engine.literal_leftmost ⟨Grammar.brackets, 80⟩ "<x<>\nx>"
      _).2 (by decide +kernel)⟩

end Tokenizer

end TextScopes
