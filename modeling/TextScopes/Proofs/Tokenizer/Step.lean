import TextScopes.Proofs.Expression.Finding
import TextScopes.Tokenizer.Basic

/-!
# The steps of a tokenizer

`Tokenizer.Step` lists what one step of reading a line can be: a match of a rule is named, a region
is opened, or the innermost region is closed. Each case carries all that is known when it happens:
what kind of rule it is, that its expression found the match at or behind the place of the scan, and
for a region that it was not open there already. What holds of every step is shown case by case over
this relation, and never by opening `step?` again.

The relation holds along a line because of `Scan.Sound`: the place of a scan is a boundary of the
line or one past its end, and what the memo holds was answered by a search from a boundary behind
it. `Scan.Sound.step` shows that a step keeps this, goes forward, and is one of the three.
-/

namespace TextScopes

variable {E : Engine}

namespace Memo

/-- What is remembered for a rule was answered by a search for its expression from a boundary at or
before `pos`. -/
def Sourced (grammar : Grammar E) (content : String) (pos : Nat) (memo : Memo) : Prop :=
  ∀ id result, memo.find? id = some result →
    ∃ opening, (grammar.rule id).kind.opening? = some opening ∧
      ∃ from_, from_ ≤ pos ∧ Text.isBoundary content from_ = true ∧
        opening.findAt content from_ = result

variable {grammar : Grammar E} {content : String} {pos : Nat} {memo : Memo} {id : RuleId}
  {opening : Expression E}

/-- What was remembered behind a place is remembered further on. -/
theorem Sourced.mono (h : memo.Sourced grammar content pos) {later : Nat} (hle : pos ≤ later) :
    memo.Sourced grammar content later := by
  intro id result hfind
  obtain ⟨opening, ho, from_, hfrom, hb, hs⟩ := h id result hfind
  exact ⟨opening, ho, from_, by omega, hb, hs⟩

/-- An empty memo holds nothing of unknown source. -/
theorem sourced_nil : Sourced grammar content pos [] := by
  intro id result h
  simp [find?] at h

/-- Remembering the answer of a search keeps all sources known. -/
theorem Sourced.refresh (h : memo.Sourced grammar content pos)
    (ho : (grammar.rule id).kind.opening? = some opening)
    (hb : Text.isBoundary content pos = true) :
    (memo.refresh id opening content pos).2.Sourced grammar content pos := by
  intro other result hfind
  rw [Memo.refresh, find?_put] at hfind
  split at hfind
  · next heq =>
    subst heq
    exact ⟨opening, ho, pos, le_rfl, hb, Option.some.inj hfind⟩
  · exact h other result hfind

/-- A search with a memo answers what was found at or before `pos` and lies ahead. -/
theorem Sourced.search (hE : E.Bounded) (h : memo.Sourced grammar content pos)
    (ho : (grammar.rule id).kind.opening? = some opening)
    (hb : Text.isBoundary content pos = true) :
    (memo.search id opening content pos).2.Sourced grammar content pos ∧
      ∀ found, (memo.search id opening content pos).1 = some found →
        opening.Finds content pos found := by
  -- What a new search answers is found from here.
  have fresh : ∀ found, (memo.refresh id opening content pos).1 = some found →
      opening.Finds content pos found := fun found hf =>
    ⟨(Expression.ahead_of_findAt hE hb hf).le_start, pos, le_rfl, hb, hf⟩
  unfold Memo.search
  split
  · exact ⟨h, fun found hf => by simp at hf⟩
  · next old hold =>
    split
    · -- What is remembered and lies ahead was found from further back.
      next hle =>
      refine ⟨h, fun found hf => ?_⟩
      obtain rfl := Option.some.inj hf
      obtain ⟨opening', ho', from_, hfrom, hbf, hs⟩ := h id _ hold
      obtain rfl := Option.some.inj (ho.symm.trans ho')
      exact ⟨hle, from_, hfrom, hbf, hs⟩
    · -- A remembered match that lies behind is searched for again.
      exact ⟨h.refresh ho hb, fresh⟩
  · exact ⟨h.refresh ho hb, fresh⟩

end Memo

namespace Grammar

variable {grammar : Grammar E} {frames : Frames E} {content : String} {offset pos : Nat}

/-- A rule with an expression that found a match ahead, which does not reopen a region. -/
def Opens (grammar : Grammar E) (frames : Frames E) (content : String) (offset pos : Nat)
    (id : RuleId) (found : Match) : Prop :=
  (∃ opening, (grammar.rule id).kind.opening? = some opening ∧
    opening.Finds content pos found) ∧
    grammar.reopens frames offset id found = false

/-- The match that is taken is one of the two. -/
theorem eq_or_mem_of_earlier {best : Option (RuleId × Match)} {id : RuleId} {found : Match}
    {x : RuleId × Match} (h : x ∈ earlier best id found) : x = (id, found) ∨ x ∈ best := by
  unfold earlier at h
  split at h
  · split at h
    · exact .inl (Option.some.inj h).symm
    · exact .inr h
  · exact .inl (Option.some.inj h).symm

/-- The event that is chosen is the opening one or the closing one. -/
theorem opened_or_closed_of_choose {closesLast : Bool} {opened : Option (RuleId × Match)}
    {closed : Option Match} {event : Event} (h : event ∈ choose closesLast opened closed) :
    (∃ x ∈ opened, event = .opening x.1 x.2) ∨ ∃ found ∈ closed,
      event = .closing found := by
  unfold choose at h
  split at h
  · cases h
  · exact .inl ⟨_, rfl, (Option.some.inj h).symm⟩
  · exact .inr ⟨_, rfl, (Option.some.inj h).symm⟩
  · -- Of two the order of the places decides, and the rule in a tie.
    split at h
    · exact .inr ⟨_, rfl, (Option.some.inj h).symm⟩
    · exact .inl ⟨_, rfl, (Option.some.inj h).symm⟩

/-- Taking a further rule into account keeps to matches that open a rule. -/
theorem consider_opens (hE : E.Bounded) {state : Option (RuleId × Match) × Memo} (id : RuleId)
    (hb : Text.isBoundary content pos = true)
    (hbest : ∀ x ∈ state.1, grammar.Opens frames content offset pos x.1 x.2)
    (hmemo : state.2.Sourced grammar content pos) :
    (∀ x ∈ (grammar.consider frames content offset pos state id).1,
        grammar.Opens frames content offset pos x.1 x.2) ∧
      (grammar.consider frames content offset pos state id).2.Sourced grammar content pos := by
  unfold consider
  split
  · exact ⟨hbest, hmemo⟩
  · next opening ho =>
    obtain ⟨hsourced, hfinds⟩ := hmemo.search hE ho hb
    split
    · next hs =>
      rw [hs] at hsourced
      exact ⟨hbest, hsourced⟩
    · next found memo hs =>
      rw [hs] at hsourced hfinds
      -- The guard passes over the match, or it competes with the best so far.
      split
      · exact ⟨hbest, hsourced⟩
      · next hnot =>
        refine ⟨fun x hx => ?_, hsourced⟩
        rcases eq_or_mem_of_earlier hx with rfl | hx
        · exact ⟨⟨opening, ho, hfinds found rfl⟩, by simpa using hnot⟩
        · exact hbest x hx

/-- The first match of the rules inside the innermost region opens a rule. -/
theorem firstOpening_opens (hE : E.Bounded) (frames : Frames E) (offset : Nat) {memo : Memo}
    (hb : Text.isBoundary content pos = true) (hmemo : memo.Sourced grammar content pos) :
    (∀ x ∈ (grammar.firstOpening frames content offset pos memo).1,
        grammar.Opens frames content offset pos x.1 x.2) ∧
      (grammar.firstOpening frames content offset pos memo).2.Sourced grammar content pos := by
  -- The induction is on the rules that are left to be considered.
  have key : ∀ (ids : List RuleId) (state : Option (RuleId × Match) × Memo),
      (∀ x ∈ state.1, grammar.Opens frames content offset pos x.1 x.2) →
      state.2.Sourced grammar content pos →
      (∀ x ∈ (ids.foldl (grammar.consider frames content offset pos) state).1,
          grammar.Opens frames content offset pos x.1 x.2) ∧
        (ids.foldl (grammar.consider frames content offset pos) state).2.Sourced grammar content
          pos := by
    intro ids
    induction ids with
    | nil => exact fun state hbest hsourced => ⟨hbest, hsourced⟩
    | cons id ids ih =>
      intro state hbest hsourced
      obtain ⟨hbest', hsourced'⟩ := consider_opens hE id hb hbest hsourced
      exact ih _ hbest' hsourced'
  exact key _ _ (by simp) hmemo

/-- The event that comes next is a match that opens a rule, or one that closes the innermost region,
searched for from `pos`; what is remembered then has a known source. -/
theorem nextEvent_spec (hE : E.Bounded) (frames : Frames E) (offset : Nat) {memo : Memo}
    (hb : Text.isBoundary content pos = true) (hmemo : memo.Sourced grammar content pos) :
    (∀ id found, (grammar.nextEvent frames content offset pos memo).1 =
      some (.opening id found) →
        grammar.Opens frames content offset pos id found) ∧
      (∀ found, (grammar.nextEvent frames content offset pos memo).1 = some (.closing found) →
        ∃ frame outer, frames = frame :: outer ∧
          frame.closing.findAt content pos = some found) ∧
      (grammar.nextEvent frames content offset pos memo).2.Sourced grammar content pos := by
  obtain ⟨hopens, hsourced⟩ := firstOpening_opens hE frames offset hb hmemo
  cases frames with
  | nil =>
    refine ⟨fun id found h => ?_, fun found h => ?_, hsourced⟩
    · -- Without an open region there is only an opening.
      rcases opened_or_closed_of_choose h with ⟨x, hx, heq⟩ | ⟨_, hnone, -⟩
      · obtain ⟨rfl, rfl⟩ := Event.opening.inj heq
        exact hopens x hx
      · cases hnone
    · rcases opened_or_closed_of_choose h with ⟨_, -, heq⟩ | ⟨_, hnone, -⟩
      · cases heq
      · cases hnone
  | cons frame outer =>
    refine ⟨fun id found h => ?_, fun found h => ⟨frame, outer, rfl, ?_⟩, hsourced⟩
    · -- The opening comes from the candidates.
      rcases opened_or_closed_of_choose h with ⟨x, hx, heq⟩ | ⟨_, -, heq⟩
      · obtain ⟨rfl, rfl⟩ := Event.opening.inj heq
        exact hopens x hx
      · cases heq
    · -- The closing comes from the innermost region.
      rcases opened_or_closed_of_choose h with ⟨_, -, heq⟩ | ⟨last, hclosed, heq⟩
      · cases heq
      · obtain rfl := Event.closing.inj heq
        exact hclosed

end Grammar

namespace Tokenizer

/-- One step of reading a line, with the tokens that it gives. -/
inductive Step (t : Tokenizer E) (content : String) (offset : Nat) :
    Scan E → List Token → Scan E → Prop
  /-- A match of a rule is named, with its groups. -/
  | matching {scan : Scan E} {id : RuleId} {found : Match} {opening : Expression E}
      {captures : Captures} {memo : Memo} (inside : scan.pos ≤ content.utf8ByteSize)
      (kind : (t.grammar.rule id).kind = .matching opening captures)
      (finds : opening.Finds content scan.pos found) :
      Step t content offset scan
        (Token.ofName (t.grammar.rule id).name (found.span.shift offset) scan.frames.contentLevel
          ++ captures.tokens found offset
            (scan.frames.contentLevel + nameDepth (t.grammar.rule id).name))
        ⟨advance content found scan.pos, scan.frames, memo⟩
  /-- A region is opened, which is not open at the same place yet when its match has no byte. -/
  | opening {scan : Scan E} {id : RuleId} {found : Match} {opening closing : Expression E}
      {openingCaptures closingCaptures : Captures} {last : Bool} {memo : Memo}
      (inside : scan.pos ≤ content.utf8ByteSize)
      (kind : (t.grammar.rule id).kind =
        .region opening closing openingCaptures closingCaptures last)
      (finds : opening.Finds content scan.pos found)
      (new : found.isEmpty = true →
        scan.frames.startsAt id (offset + found.span.start) = false) :
      Step t content offset scan
        (openingCaptures.tokens found offset
          (scan.frames.contentLevel + nameDepth (t.grammar.rule id).name))
        ⟨found.span.stop,
          ⟨id, (t.grammar.rule id).name, closing.expand content found, offset + found.span.start,
            scan.frames.contentLevel⟩ :: scan.frames, memo⟩
  /-- The innermost region is closed. -/
  | closing {scan : Scan E} {frame : Frame E} {outer : Frames E} {found : Match} {memo : Memo}
      (inside : scan.pos ≤ content.utf8ByteSize) (frames : scan.frames = frame :: outer)
      (finds : frame.closing.findAt content scan.pos = some found) :
      Step t content offset scan
        ((t.closingCaptures frame.rule).tokens found offset frame.contentLevel
          ++ frame.close (offset + found.span.stop))
        ⟨if frame.start = offset + found.span.stop then advance content found scan.pos
          else found.span.stop, outer, memo⟩

end Tokenizer

/-- The place of a scan is a boundary of the line or one past its end, and what the memo holds has a
known source. -/
structure Scan.Sound (grammar : Grammar E) (content : String) (scan : Scan E) : Prop where
  place : Text.isBoundary content scan.pos = true ∨ scan.pos = content.utf8ByteSize + 1
  sourced : scan.memo.Sourced grammar content scan.pos

namespace Tokenizer

variable {t : Tokenizer E} {content : String} {offset : Nat} {scan next : Scan E}
  {tokens : List Token}

/-- Reading goes on further behind a match, at a boundary or one past the end of the line. -/
theorem advance_spec {found : Match} {pos : Nat} (h : found.Ahead content pos) :
    pos < advance content found pos ∧
      (Text.isBoundary content (advance content found pos) = true ∨
        advance content found pos = content.utf8ByteSize + 1) := by
  have hle := h.le_start
  have hspan := h.start_le_stop
  unfold advance
  split
  · -- A match without a byte is left by one character, or at the end of the line by one byte.
    rw [Nat.max_eq_left (by omega)]
    cases hn : Text.next? content found.span.stop with
    | none =>
      have := h.stop_le
      exact ⟨by simp only [Option.getD_none]; omega, .inr rfl⟩
    | some further =>
      have := Text.lt_of_next? hn
      exact ⟨by simp only [Option.getD_some]; omega, .inl (Text.isBoundary_next? hn)⟩
  · next hne =>
    have := Match.start_lt_stop (Bool.not_eq_true _ ▸ hne)
    exact ⟨by omega, .inl h.boundary_stop⟩

/-- Reading goes on no further back than where the match stops. -/
theorem stop_le_advance (content : String) (found : Match) (pos : Nat)
    (hle : found.span.stop ≤ content.utf8ByteSize) :
    found.span.stop ≤ advance content found pos := by
  unfold advance
  split
  · -- An empty match is left for a place behind it.
    cases hn : Text.next? content (max found.span.stop pos) with
    | none =>
      rw [Option.getD_none]
      omega
    | some further =>
      have := Text.lt_of_next? hn
      rw [Option.getD_some]
      omega
  · exact Nat.le_refl _

/-- Where a step goes on, with the memo that it leaves. -/
theorem step_of_step? (hE : E.Bounded) (hb : Text.isBoundary content scan.pos = true)
    (hm : scan.memo.Sourced t.grammar content scan.pos)
    (h : t.step? content offset scan = some (tokens, next)) :
    t.Step content offset scan tokens next ∧
      next.memo.Sourced t.grammar content scan.pos := by
  have hinside := Text.le_of_isBoundary hb
  obtain ⟨hopen, hclose, hsourced⟩ :=
    Grammar.nextEvent_spec hE scan.frames offset hb hm
  unfold step? at h
  rw [if_neg (by omega)] at h
  split at h
  · simp at h
  · next id found memo hev =>
    rw [hev] at hopen hsourced
    obtain ⟨⟨opening, ho, hfinds⟩, hnew⟩ := hopen id found rfl
    simp only [readOpening] at h
    split at h
    · -- The rule matches once.
      next opening' captures hk =>
      simp only [Option.some.injEq, Prod.mk.injEq] at h
      obtain ⟨rfl, rfl⟩ := h
      obtain rfl : opening' = opening := by simpa [hk, Kind.opening?] using ho
      exact ⟨.matching hinside hk hfinds, hsourced⟩
    · -- The rule opens a region, which the guard has let pass.
      next opening' closing openingCaptures closingCaptures last hk =>
      simp only [Option.some.injEq, Prod.mk.injEq] at h
      obtain ⟨rfl, rfl⟩ := h
      obtain rfl : opening' = opening := by simpa [hk, Kind.opening?] using ho
      refine ⟨.opening hinside hk hfinds fun he => ?_, hsourced⟩
      simpa [Grammar.reopens, he, hk, Kind.opensRegion] using hnew
    · simp at h
  · -- The innermost region is closed.
    next found memo hev =>
    rw [hev] at hclose hsourced
    obtain ⟨frame, outer, hf, hfinds⟩ := hclose found rfl
    simp only [readClosing, hf, Option.some.injEq, Prod.mk.injEq] at h
    obtain ⟨rfl, rfl⟩ := h
    exact ⟨.closing hinside hf hfinds, hsourced⟩

/-- A step starts inside the line. -/
theorem le_length_of_step? (h : t.step? content offset scan = some (tokens, next)) :
    scan.pos ≤ content.utf8ByteSize := by
  unfold step? at h
  split at h
  · simp at h
  · omega

/-- A step from a boundary goes forward to a boundary or one past the end of the line. -/
theorem Step.forward (hE : E.Bounded) (hb : Text.isBoundary content scan.pos = true)
    (h : t.Step content offset scan tokens next) :
    scan.pos ≤ next.pos ∧
      (Text.isBoundary content next.pos = true ∨ next.pos = content.utf8ByteSize + 1) := by
  cases h with
  | matching inside kind finds =>
    obtain ⟨hlt, hplace⟩ := advance_spec (finds.ahead hE)
    exact ⟨Nat.le_of_lt hlt, hplace⟩
  | opening inside kind finds new =>
    have hahead := finds.ahead hE
    have h1 := hahead.le_start
    have h2 := hahead.start_le_stop
    exact ⟨Nat.le_trans h1 h2, .inl hahead.boundary_stop⟩
  | closing inside frames finds =>
    have hahead := Expression.ahead_of_findAt hE hb finds
    have h1 := hahead.le_start
    have h2 := hahead.start_le_stop
    dsimp only
    split
    · -- A region that stops where it starts is left as a match without a byte is.
      obtain ⟨hlt, hplace⟩ := advance_spec hahead
      exact ⟨Nat.le_of_lt hlt, hplace⟩
    · exact ⟨Nat.le_trans h1 h2, .inl hahead.boundary_stop⟩

end Tokenizer

namespace Scan.Sound

variable {t : Tokenizer E} {content : String} {offset : Nat} {scan next : Scan E}
  {tokens : List Token}

/-- A line is read from its start with an empty memo. -/
theorem start (grammar : Grammar E) (content : String) (frames : Frames E) :
    Scan.Sound grammar content ⟨0, frames, []⟩ :=
  ⟨.inl (Text.isBoundary_zero content), Memo.sourced_nil⟩

/-- A sound scan from which reading goes on stands at a boundary. -/
theorem boundary (h : scan.Sound t.grammar content) (hin : scan.pos ≤ content.utf8ByteSize) :
    Text.isBoundary content scan.pos = true := by
  rcases h.place with hb | hp
  · exact hb
  · omega

/-- What reading a line comes to from a sound scan is a step, it goes forward, and the scan is sound
again. -/
theorem step (hE : E.Bounded) (h : scan.Sound t.grammar content)
    (hs : t.step? content offset scan = some (tokens, next)) :
    t.Step content offset scan tokens next ∧ scan.pos ≤ next.pos ∧
      next.Sound t.grammar content := by
  have hb := h.boundary (Tokenizer.le_length_of_step? hs)
  obtain ⟨hstep, hsourced⟩ := Tokenizer.step_of_step? hE hb h.sourced hs
  obtain ⟨hle, hplace⟩ := hstep.forward hE hb
  exact ⟨hstep, hle, hplace, hsourced.mono hle⟩

end Scan.Sound

end TextScopes
