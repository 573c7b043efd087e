import TextScopes.Proofs.Expression.Looking
import TextScopes.Proofs.Grammar.Includes
import TextScopes.Proofs.Tokenizer.Memo
import TextScopes.Proofs.Tokenizer.Run

/-!
# What the guard against reopening hides

A match without a byte would open a region forever where one of the same rule starts. Such a
match is left out, and with it its rule: no other match of the rule is searched for from that
place. Here it is told which events come all the same (`Tokenizer.exists_event_le_iff`): one that
starts by a given place comes just when the end of the innermost region matches by that place, or
a rule inside it, other than those whose match where the scan stands is left out, has a match by
that place which is not.

Open regions start no further on than where the scan stands (`Tokenizer.Reaches.start_le`), so that
only a match right there can be left out, and of a rule whose match lies ahead nothing is hidden.
But where a match is left out a later one of the same rule is lost with it, until something else
moves the scan (`Tokenizer.match_hidden`).
-/

namespace TextScopes

variable {E : Engine}

/-- When a match is found from a place, a search from further back finds that match or one that
starts before the place. -/
theorem Expression.exists_findAt_of_le (hL : E.Leftmost) {e : Expression E} {content : String}
    {pos place : Nat} {found : Match} (hpos : Text.isBoundary content pos = true)
    (hplace : Text.isBoundary content place = true) (hle : pos ≤ place)
    (h : e.findAt content place = some found) :
    ∃ first, e.findAt content pos = some first ∧
      (first = found ∨ first.span.start < place) := by
  cases hfirst : e.findAt content pos with
  | none =>
    rw [findAt_eq_none_of_le hL hpos hplace hle hfirst] at h
    cases h
  | some first =>
    refine ⟨first, rfl, ?_⟩
    by_cases hbefore : first.span.start < place
    · exact .inr hbefore
    · -- A match that starts no sooner is found from the place as well.
      have hfinds : e.Finds content place first :=
        ⟨Nat.le_of_not_lt hbefore, pos, hle, hpos, hfirst⟩
      rw [hfinds.findAt_eq hL hplace] at h
      exact .inl (Option.some.inj h)

namespace Grammar

variable {grammar : Grammar E} {frames : Frames E} {content : String} {offset pos place s : Nat}
  {id : RuleId} {found : Match}

/-- The expression of a rule, tried at a place, matches there. -/
def MatchesAt (grammar : Grammar E) (content : String) (place : Nat) (id : RuleId) (found : Match) :
    Prop :=
  Text.isBoundary content place = true ∧ found.span.start = place ∧
    ∃ opening, (grammar.rule id).kind.opening? = some opening ∧
      opening.findAt content place = some found

/-- A rule has a match at a place that does not reopen a region. -/
def Admits (grammar : Grammar E) (frames : Frames E) (content : String) (offset place : Nat)
    (id : RuleId) : Prop :=
  ∃ found, grammar.MatchesAt content place id found ∧
    grammar.reopens frames offset id found = false

/-- The match of a rule at a place would reopen a region. -/
def ReopensAt (grammar : Grammar E) (frames : Frames E) (content : String) (offset place : Nat)
    (id : RuleId) : Prop :=
  ∃ found, grammar.MatchesAt content place id found ∧
    grammar.reopens frames offset id found = true

/-- What a fresh search finds for a rule is the match of its expression, if that does not reopen a
region. -/
theorem freshOpening?_eq_some_iff {x : RuleId × Match} :
    grammar.freshOpening? frames content offset pos id = some x ↔ x.1 = id ∧
      (∃ opening, (grammar.rule id).kind.opening? = some opening ∧
        opening.findAt content pos = some x.2) ∧
          grammar.reopens frames offset id x.2 = false := by
  unfold freshOpening?
  simp only [Option.bind_eq_bind, Option.bind_eq_some_iff]
  constructor
  · -- The match is found, and passes the guard.
    rintro ⟨opening, ho, found, hfound, hx⟩
    split at hx
    · cases hx
    · next hnot =>
      obtain rfl := Option.some.inj hx
      rw [← reopens_iff, Bool.not_eq_true] at hnot
      exact ⟨rfl, ⟨opening, ho, hfound⟩, hnot⟩
  · rintro ⟨rfl, ⟨opening, ho, hfound⟩, hnot⟩
    rw [← Bool.not_eq_true, reopens_iff] at hnot
    exact ⟨opening, ho, x.2, hfound, if_neg hnot⟩

/-- Where open regions start no further on, a fresh search finds a match of a rule by a
place just when the rule has one that does not reopen a region, and where the search begins
it has none that does. -/
theorem freshOpening?_le_iff (hE : E.Bounded) (hL : E.Leftmost)
    (hpos : Text.isBoundary content pos = true)
    (hframes : ∀ frame ∈ frames, frame.start ≤ offset + pos) :
    (∃ x, grammar.freshOpening? frames content offset pos id = some x ∧
      x.2.span.start ≤ s) ↔
      ¬grammar.ReopensAt frames content offset pos id ∧
        ∃ place, pos ≤ place ∧ place ≤ s ∧
          grammar.Admits frames content offset place id := by
  constructor
  · rintro ⟨⟨rule, found⟩, hfresh, hle⟩
    obtain ⟨rfl, ⟨opening, ho, hfound⟩, hnot⟩ := freshOpening?_eq_some_iff.1 hfresh
    have hahead := Expression.ahead_of_findAt hE hpos hfound
    -- From where it starts the same match is found.
    have hfinds : opening.Finds content found.span.start found :=
      ⟨Nat.le_refl _, pos, hahead.le_start, hpos, hfound⟩
    refine ⟨?_, found.span.start, hahead.le_start, hle, found,
      ⟨hahead.boundary_start, rfl, opening, ho, hfinds.findAt_eq hL hahead.boundary_start⟩,
        hnot⟩
    rintro ⟨other, ⟨-, -, opening', ho', hother⟩, hreopens⟩
    -- Where the search begins there is one match, and it does not reopen a region.
    obtain rfl := Option.some.inj (ho.symm.trans ho')
    obtain rfl := Option.some.inj (hfound.symm.trans hother)
    exact Bool.noConfusion (hnot.symm.trans hreopens)
  · rintro ⟨hkept, place, hle, hs, found, ⟨hplace, hstart, opening, ho, hfound⟩, hnot⟩
    obtain ⟨first, hfirst, hbefore⟩ := Expression.exists_findAt_of_le hL hpos hplace hle hfound
    have hahead := Expression.ahead_of_findAt hE hpos hfirst
    -- The first match starts no later than the one that is admitted.
    have hby : first.span.start ≤ place := by
      rcases hbefore with rfl | hlt
      · exact Nat.le_of_eq hstart
      · exact Nat.le_of_lt hlt
    refine ⟨(id, first), freshOpening?_eq_some_iff.2 ⟨rfl, ⟨opening, ho, hfirst⟩, ?_⟩,
      Nat.le_trans hby hs⟩
    -- A region that the first match reopened would start where the search begins.
    show grammar.reopens frames offset id first = false
    by_contra hreopens
    rw [Bool.not_eq_false] at hreopens
    obtain ⟨-, -, frame, hframe, -, hopen⟩ := reopens_iff.1 hreopens
    have hback := hframes frame hframe
    have hhere : first.span.start = pos := by
      have := hahead.le_start
      omega
    exact hkept ⟨first, ⟨hpos, hhere, opening, ho, hfirst⟩, hreopens⟩

/-- The leftmost match starts by a place just when one of the matches does. -/
theorem exists_leftmost_le_iff {openings : List (RuleId × Match)} :
    (∃ x, leftmost openings = some x ∧ x.2.span.start ≤ s) ↔
    ∃ x ∈ openings, x.2.span.start ≤ s := by
  constructor
  · -- The leftmost is one of them.
    rintro ⟨x, hleft, hle⟩
    obtain ⟨front, back, rfl, -, -⟩ := leftmost_eq_some_iff.1 hleft
    exact ⟨x, by simp, hle⟩
  · rintro ⟨x, hx, hle⟩
    cases hleft : leftmost openings with
    | none =>
      rw [leftmost_eq_none_iff.1 hleft] at hx
      cases hx
    | some first =>
      obtain ⟨front, back, rfl, hfront, hback⟩ := leftmost_eq_some_iff.1 hleft
      refine ⟨first, rfl, Nat.le_trans ?_ hle⟩
      -- No other starts before it.
      rcases List.mem_append.1 hx with hx | hx
      · exact Nat.le_of_lt (hfront x hx)
      · rcases List.mem_cons.1 hx with rfl | hx
        · exact Nat.le_refl _
        · exact hback x hx

/-- An event comes by a place just when a rule has a match by then, or the end of the innermost
region. -/
theorem exists_freshEvent_le_iff :
    (∃ event, grammar.freshEvent frames content offset pos = some event ∧
      event.found.span.start ≤ s) ↔
      (∃ x ∈ grammar.freshOpenings frames content offset pos, x.2.span.start ≤ s) ∨
        ∃ frame ∈ frames.head?, ∃ closed, frame.closing.findAt content pos = some closed ∧
          closed.span.start ≤ s := by
  rw [← exists_leftmost_le_iff]
  unfold freshEvent
  generalize leftmost (grammar.freshOpenings frames content offset pos) = opened
  cases frames with
  | nil => cases opened <;> simp [Event.found]
  | cons frame outer =>
    simp only [List.head?_cons, Option.mem_def, Option.some.injEq, exists_eq_left']
    generalize frame.closing.findAt content pos = closed
    cases opened with
    | none => cases closed <;> simp [Event.found]
    | some x =>
      cases closed with
      | none => simp [Event.found]
      | some last =>
        -- Of the two the event that is chosen starts no later than the other.
        simp only [Option.some.injEq, exists_eq_left']
        split <;> simp only [Option.some.injEq, exists_eq_left', Event.found] <;> omega

end Grammar

namespace Tokenizer

variable {t : Tokenizer E} {content : String} {offset : Nat} {scan next : Scan E}
  {tokens : List Token}

/-- A step leaves no region open that starts behind where it goes on. -/
theorem Step.start_le (hE : E.Bounded) (hb : Text.isBoundary content scan.pos = true)
    (h : t.Step content offset scan tokens next)
    (hframes : ∀ frame ∈ scan.frames, frame.start ≤ offset + scan.pos) :
    ∀ frame ∈ next.frames, frame.start ≤ offset + min next.pos content.utf8ByteSize := by
  have hold : ∀ frame ∈ scan.frames,
      frame.start ≤ offset + min next.pos content.utf8ByteSize := by
    -- The scan does not go back.
    intro frame hframe
    have hstart := hframes frame hframe
    have hinside := Text.le_of_isBoundary hb
    have hforward := (h.forward hE hb).1
    omega
  cases h with
  | matching => exact hold
  -- A new region starts at its match, before the next place.
  | opening inside kind finds new =>
    have hahead := finds.ahead hE
    refine List.forall_mem_cons.2 ⟨?_, hold⟩
    have hspan := hahead.start_le_stop
    have hstop := hahead.stop_le
    dsimp only
    omega
  -- The regions that are left were open before.
  | closing inside frames finds =>
    rw [frames] at hold
    exact (List.forall_mem_cons.1 hold).2

/-- Behind some lines no region is open that starts behind them. -/
theorem start_le_lines (hE : E.Bounded) (t : Tokenizer E) {text : String}
    {front back : List Text.Line}
    {line : Text.Line} (hlines : Text.lines text = front ++ line :: back) :
    ∀ frame ∈ (t.lines front []).2, frame.start ≤ line.start := by
  have hkept : t.Kept front fun _ frames reached => ∀ frame ∈ frames, frame.start ≤ reached :=
    ⟨fun h hle frame hframe => Nat.le_trans (h frame hframe) hle,
      fun _ _ _ _ _ hb hstep hs => hstep.start_le hE hb hs⟩
  have hfront : Text.Consecutive 0 front line.start :=
    Text.Consecutive.front (hlines ▸ Text.consecutive_lines text)
  exact hkept.lines hE [] [] hfront (by simp)

/-- No region that is open where a scan of a line stands starts further on. -/
theorem Reaches.start_le (hE : E.Bounded) {frames : Frames E}
    (hframes : ∀ frame ∈ frames, frame.start ≤ offset)
    (h : t.Reaches content offset ⟨0, frames, []⟩ scan) :
    ∀ frame ∈ scan.frames, frame.start ≤ offset + scan.pos := by
  induction h with
  | refl => exact hframes
  | tail hreach hstep ih =>
    -- A step keeps it, at a place that is at most the next one.
    obtain ⟨tokens, hstep⟩ := hstep
    have hsound := Reaches.sound hE hreach
    have hb := hsound.boundary (le_length_of_step? hstep)
    intro frame hframe
    have hle := (hsound.step hE hstep).1.start_le hE hb ih frame hframe
    exact Nat.le_trans hle (Nat.add_le_add_left (Nat.min_le_left _ _) _)

/-- While a line of a text is read, an event that starts by the place `s` comes just when one of two
things is there. Either the end of the innermost region, searched for from where the scan stands,
matches by `s`. Or a rule inside that region has a match by `s` that does not reopen a region, and
has no match right where the scan stands that does. So of a rule whose match is left out everything
is hidden that follows it in the line, and of the other rules nothing. -/
theorem exists_event_le_iff (hE : E.Bounded) (hL : E.Leftmost) {text : String}
    {front back : List Text.Line} {line : Text.Line}
    (hlines : Text.lines text = front ++ line :: back)
    (hreach : t.Reaches line.content line.start ⟨0, (t.lines front []).2, []⟩ scan)
    (hin : scan.pos ≤ line.content.utf8ByteSize) (s : Nat) :
    (∃ event, (t.grammar.nextEvent scan.frames line.content line.start scan.pos scan.memo).1 =
        some event ∧ event.found.span.start ≤ s) ↔
      (∃ id ∈ t.grammar.candidates (t.grammar.innermost scan.frames),
        ¬t.grammar.ReopensAt scan.frames line.content line.start scan.pos id ∧
          ∃ place, scan.pos ≤ place ∧ place ≤ s ∧
            t.grammar.Admits scan.frames line.content line.start place id) ∨
        ∃ frame ∈ scan.frames.head?, ∃ closed,
          frame.closing.findAt line.content scan.pos = some closed ∧ closed.span.start ≤ s := by
  have hsound := hreach.sound hE
  have hb := hsound.boundary hin
  have hframes := hreach.start_le hE (t.start_le_lines hE hlines)
  rw [Grammar.nextEvent_fst hE hL hb hsound.sourced, Grammar.exists_freshEvent_le_iff]
  refine or_congr_left ?_
  constructor
  · -- A match that counts belongs to a candidate.
    rintro ⟨x, hx, hle⟩
    obtain ⟨id, hid, hfresh⟩ := List.mem_filterMap.1 hx
    exact ⟨id, hid, (Grammar.freshOpening?_le_iff hE hL hb hframes).1 ⟨x, hfresh, hle⟩⟩
  · rintro ⟨id, hid, hadmits⟩
    obtain ⟨x, hfresh, hle⟩ := (Grammar.freshOpening?_le_iff hE hL hb hframes).2 hadmits
    exact ⟨x, List.mem_filterMap.2 ⟨id, hid, hfresh⟩, hle⟩

end Tokenizer

/-- Blocks that begin in front of `x`, last to `z`, and hold blocks and marks. -/
def Definition.ahead : Definition where
  uuid := ⟨[]⟩
  name := "Ahead"
  scopeName := "text.ahead"
  fileTypes := []
  patterns := [.object [("name", .string "block"), ("begin", .string "(?=x)"), ("end", .string "z"),
    ("patterns", .array [including "$self"])], matching "mark" "y"]
  repository := []

/-- The grammar of `Definition.ahead`. -/
def Grammar.ahead : Grammar Engine.looking :=
  ⟨Definition.ahead.uuid, Definition.ahead.name, Definition.ahead.scopeName,
    Definition.ahead.fileTypes,
    settle (Languages.extend Engine.looking [] [.ahead]) Definition.ahead.scopeName⟩

/-- The rule of the blocks of `Grammar.ahead`. -/
def RuleId.aheadBlock : RuleId := ⟨"text.ahead", 2⟩

/-- The rule of the marks of `Grammar.ahead`. -/
def RuleId.aheadMark : RuleId := ⟨"text.ahead", 3⟩

namespace Tokenizer

/-- The tokenizer of `Grammar.ahead`. -/
def ahead : Tokenizer Engine.looking := ⟨.ahead, 80⟩

/-- In a block that has been opened in front of `x` blocks are hidden, and the mark
behind it comes next. -/
theorem exists_event_le_iff_ahead :
    Engine.looking.Bounded ∧ Engine.looking.Leftmost ∧
      Text.lines "xy" = [] ++ ⟨0, "xy"⟩ :: [] ∧
      ∃ scan, ahead.Reaches "xy" 0 ⟨0, (ahead.lines [] []).2, []⟩ scan ∧ scan.pos ≤ 2 ∧
        ahead.grammar.reopens scan.frames 0 .aheadBlock ⟨⟨0, 0⟩, []⟩ = true ∧
        ∃ event, (ahead.grammar.nextEvent scan.frames "xy" 0 scan.pos scan.memo).1 =
          some event ∧
          event.found.span.start ≤ 1 := by
  have hlines : Text.lines "xy" = [] ++ ⟨0, "xy"⟩ :: [] := by decide +kernel
  have hstep : ∃ x ∈ ahead.step? "xy" 0 ⟨0, (ahead.lines [] []).2, []⟩, x.2.pos ≤ 1 ∧
      RuleId.aheadMark ∈ ahead.grammar.candidates (ahead.grammar.innermost x.2.frames) ∧
      ahead.grammar.reopens x.2.frames 0 .aheadMark ⟨⟨1, 2⟩, []⟩ = false ∧
      ahead.grammar.reopens x.2.frames 0 .aheadBlock ⟨⟨0, 0⟩, []⟩ = true := by
    decide +kernel
  have hmatch : ∃ opening ∈ (ahead.grammar.rule .aheadMark).kind.opening?,
      opening.findAt "xy" 1 = some ⟨⟨1, 2⟩, []⟩ := by
    decide +kernel
  have hkind : (ahead.grammar.rule .aheadMark).kind.opensRegion = false := by decide +kernel
  obtain ⟨⟨tokens, next⟩, hgoes, hpos, hid, hnot, hblock⟩ := hstep
  have hreach : ahead.Reaches "xy" 0 ⟨0, (ahead.lines [] []).2, []⟩ next :=
    .single ⟨tokens, hgoes⟩
  have hin : next.pos ≤ 2 := Nat.le_succ_of_le hpos
  -- The mark is no region, and so is never passed over by the guard.
  have hkept : ¬ahead.grammar.ReopensAt next.frames "xy" 0 next.pos .aheadMark := by
    rintro ⟨found, -, hreopens⟩
    exact Bool.noConfusion (hkind.symm.trans (Grammar.reopens_iff.1 hreopens).2.1)
  refine ⟨Engine.looking_bounded, Engine.looking_leftmost, hlines, next, hreach, hin,
    hblock, ?_⟩
  exact (exists_event_le_iff Engine.looking_bounded Engine.looking_leftmost hlines hreach hin 1).2
    (.inl ⟨.aheadMark, hid, hkept, 1, hpos, Nat.le_refl _, _,
      ⟨by decide +kernel, rfl, hmatch⟩, hnot⟩)

/-- In a block that has been opened in front of the first `x` no event comes, though a block could
be opened in front of the second. -/
theorem match_hidden : Engine.looking.Bounded ∧ Engine.looking.Leftmost ∧
    Grammar.compile Engine.looking .ahead [] = .ok ahead.grammar ∧
    Text.lines "x x" = [⟨0, "x x"⟩] ∧
    ∃ scan, ahead.Reaches "x x" 0 ⟨0, [], []⟩ scan ∧ scan.pos = 0 ∧
      (∃ id ∈ ahead.grammar.candidates (ahead.grammar.innermost scan.frames),
        ahead.grammar.Admits scan.frames "x x" 0 2 id) ∧
      (ahead.grammar.nextEvent scan.frames "x x" 0 scan.pos scan.memo).1 = none := by
  have haccepted : Definition.ahead.IsAccepted Engine.looking := by decide +kernel
  have hlines : Text.lines "x x" = [⟨0, "x x"⟩] := by decide +kernel
  -- The first step opens a block without a byte, in which blocks are tried again.
  have hstep : ∃ x ∈ ahead.step? "x x" 0 ⟨0, [], []⟩, x.2.pos = 0 ∧
      RuleId.aheadBlock ∈ ahead.grammar.candidates (ahead.grammar.innermost x.2.frames) ∧
      ahead.grammar.reopens x.2.frames 0 .aheadBlock ⟨⟨2, 2⟩, []⟩ = false ∧
      (ahead.grammar.nextEvent x.2.frames "x x" 0 x.2.pos x.2.memo).1 = none := by
    decide +kernel
  -- From behind the blank the candidate has a match that opens no region a second time.
  have hmatch : ∃ opening ∈ (ahead.grammar.rule .aheadBlock).kind.opening?,
      opening.findAt "x x" 2 = some ⟨⟨2, 2⟩, []⟩ := by
    decide +kernel
  obtain ⟨⟨tokens, next⟩, hgoes, hpos, hid, hnot, hnone⟩ := hstep
  exact ⟨Engine.looking_bounded, Engine.looking_leftmost,
    Grammar.compile_eq_ok_iff.2 ⟨haccepted, rfl⟩, hlines, next,
    .single ⟨tokens, hgoes⟩, hpos,
    ⟨.aheadBlock, hid, _, ⟨by decide +kernel, rfl, hmatch⟩, hnot⟩, hnone⟩

end Tokenizer

end TextScopes
