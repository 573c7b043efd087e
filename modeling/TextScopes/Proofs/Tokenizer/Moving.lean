import Mathlib.Data.List.Forall2
import TextScopes.Proofs.Grammar.Words
import TextScopes.Proofs.Tokenizer.Inside

/-!
# A line that is moved

A line is read at two places, with as many regions open before it. The regions agree one by one in
all but where they start, and of their starts it is only asked that those in the line stay at their
places of it, and that no other comes to lie in it (`Frame.Agrees`). They may be moved one way and
another, so that no function of the offsets tells where they go.

Then both readings go step by step together (`Scan.Follows`). Starts are compared with places of the
line only: an empty match opens no region twice at one place (`Grammar.reopens_agrees`), and a
region that stops where it starts is passed by a character (`Tokenizer.readClosing_follows`). Of
engines it is assumed only that what they answer is a stretch of the line (`Engine.Inside`,
`Engine.InOrder`), so that a match starts and stops at places of it. The result is
`Tokenizer.line_moved`: the same events at the same places, tokens that correspond one to one, and
again regions that agree.
-/

namespace TextScopes

/-- A line of some length, with the offset where it starts in one text and that in another. -/
structure Move where
  base : Nat
  target : Nat
  length : Nat

/-- Two offsets are those of one place of the line. -/
def Move.SamePlace (m : Move) (a b : Nat) : Prop :=
  ∃ x ≤ m.length, a = m.base + x ∧ b = m.target + x

variable {E : Engine} {m : Move}

/-- A search from a place in a text answers a match that does not stop before it starts. -/
def Engine.InOrder (E : Engine) : Prop :=
  ∀ program text pos span others, pos ≤ text.utf8ByteSize →
    E.search program text pos = some (some span :: others) → span.start ≤ span.stop

/-- Plain text does not stop before it starts. -/
theorem Engine.literal_inOrder : Engine.literal.InOrder := by
  intro program text pos span others _ h
  rw [(Engine.span_of_literal_search h).2.1]
  exact Nat.le_add_right _ _

/-- A match is a stretch of a line of some length. -/
structure Match.Within (found : Match) (length : Nat) : Prop where
  start_le_stop : found.span.start ≤ found.span.stop
  stop_le : found.span.stop ≤ length

/-- A match starts in the line. -/
theorem Match.Within.start_le {found : Match} {length : Nat} (h : found.Within length) :
    found.span.start ≤ length := Nat.le_trans h.start_le_stop h.stop_le

/-- What is found from a place in a text is a stretch of it. -/
theorem Expression.within_of_findAt (hE : E.Inside) (hO : E.InOrder) {e : Expression E}
    {content : String} {pos : Nat} {found : Match} (hpos : pos ≤ content.utf8ByteSize)
    (h : e.findAt content pos = some found) : found.Within content.utf8ByteSize := by
  obtain ⟨program, -, hs⟩ := findAt_eq_some_iff.1 h
  exact ⟨hO _ _ _ _ _ hpos hs, hE _ _ _ _ _ hpos hs⟩

/-- Offsets of one place of the line are at the same places of it. -/
theorem Move.SamePlace.iff {a b : Nat} (h : m.SamePlace a b) (x : Nat) :
    a = m.base + x ↔ b = m.target + x := by
  obtain ⟨y, -, rfl, rfl⟩ := h
  omega

/-- Two open regions agree in all but where they start. If they start in the line then they start
at one place of it. -/
structure Frame.Agrees (m : Move) (frame frame' : Frame E) : Prop where
  rule_eq : frame.rule = frame'.rule
  name_eq : frame.name = frame'.name
  closing_eq : frame.closing = frame'.closing
  level_eq : frame.level = frame'.level
  start_iff : ∀ x ≤ m.length, frame.start = m.base + x ↔ frame'.start = m.target + x

/-- Open regions that agree, and were open before the line or start at one place of it. -/
structure Frame.Follows (m : Move) (opened : List (Frame E × Frame E)) (frame frame' : Frame E) :
    Prop
    extends Frame.Agrees m frame frame' where
  origin : (frame, frame') ∈ opened ∨ m.SamePlace frame.start frame'.start

/-- Two tokens have one name and level and stop at one place of the line. They start at one place of
it too, or are those of two regions that were open before the line, and start with these. -/
structure Token.Corresponds (m : Move) (opened : List (Frame E × Frame E)) (token token' : Token) :
    Prop where
  name_eq : token.name = token'.name
  level_eq : token.level = token'.level
  stop : m.SamePlace token.span.stop token'.span.stop
  start : m.SamePlace token.span.start token'.span.start ∨
    ∃ pair ∈ opened, pair.1.name = some token.name ∧ pair.1.level = token.level ∧
      pair.1.start = token.span.start ∧ pair.2.start = token'.span.start

/-- How far two readings of the line have come: to one place, with the same remembered, and with
open regions that follow one another. -/
structure Scan.Follows (m : Move) (opened : List (Frame E × Frame E)) (scan scan' : Scan E) :
    Prop where
  pos_eq : scan.pos = scan'.pos
  memo_eq : scan.memo = scan'.memo
  frames : List.Forall₂ (Frame.Follows m opened) scan.frames scan'.frames
  remembered : scan.memo.All fun found => found.Within m.length

variable {opened : List (Frame E × Frame E)}

namespace Token

/-- The tokens of a stretch of the line correspond. -/
theorem corresponds_shift {span : Span} (hstart : span.start ≤ m.length)
    (hstop : span.stop ≤ m.length) (name : String) (level : Nat) :
    Corresponds m opened ⟨name, span.shift m.base, level⟩
      ⟨name, span.shift m.target, level⟩ :=
  ⟨rfl, rfl, ⟨span.stop, hstop, Nat.add_comm _ _, Nat.add_comm _ _⟩,
    .inl ⟨span.start, hstart, Nat.add_comm _ _, Nat.add_comm _ _⟩⟩

/-- The tokens of a match, if it has a name, correspond. -/
theorem corresponds_ofName {found : Match} (h : found.Within m.length) (name : Option String)
    (level : Nat) :
    List.Forall₂ (Corresponds m opened) (ofName name (found.span.shift m.base) level)
      (ofName name (found.span.shift m.target) level) := by
  cases name with
  | none => exact .nil
  | some name => exact .cons (corresponds_shift h.start_le h.stop_le name level) .nil

end Token

/-- The tokens of a match's groups correspond. -/
theorem Captures.corresponds_tokens {found : Match} (h : found.Within m.length)
    (captures : Captures) (level : Nat) :
    List.Forall₂ (Token.Corresponds m opened) (captures.tokens found m.base level)
      (captures.tokens found m.target level) := by
  unfold Captures.tokens
  rw [List.forall₂_map_left_iff, List.forall₂_map_right_iff, List.forall₂_same]
  rintro ⟨depth, span, name⟩ hmem
  have hin := (nest_spec [] (pairwise_sorted (captures.clipped found))).mem _ hmem
  obtain ⟨-, hlt, hstop, -⟩ := mem_clipped (List.mem_mergeSort.1 hin)
  have hle : span.stop ≤ m.length := Nat.le_trans hstop h.stop_le
  exact Token.corresponds_shift (Nat.le_trans (Nat.le_of_lt hlt) hle) hle name _

namespace Frame

variable {frame frame' : Frame E}

/-- The level inside regions that agree is the same. -/
theorem Agrees.contentLevel_eq (h : Agrees m frame frame') :
    frame.contentLevel = frame'.contentLevel := by
  rw [contentLevel, contentLevel, h.level_eq, h.name_eq]

/-- The tokens of regions that are closed at one place of the line correspond. -/
theorem Follows.corresponds_close (h : Follows m opened frame frame') {stop stop' : Nat}
    (hstop : m.SamePlace stop stop') :
    List.Forall₂ (Token.Corresponds m opened) (frame.close stop) (frame'.close stop') := by
  unfold close
  rw [← h.name_eq, ← h.level_eq]
  cases hname : frame.name with
  | none => exact .nil
  | some name =>
    refine .cons ⟨rfl, rfl, hstop, ?_⟩ .nil
    -- The region was open before the line, or was opened at corresponding places.
    rcases h.origin with hmem | hplace
    · exact .inr ⟨_, hmem, hname, rfl, rfl, rfl⟩
    · exact .inl hplace

end Frame

namespace Frames

variable {frames frames' : Frames E}

/-- The level inside regions that agree one by one is the same. -/
theorem contentLevel_agrees (h : List.Forall₂ (Frame.Agrees m) frames frames') :
    contentLevel frames = contentLevel frames' := by
  cases h with
  | nil => rfl
  | cons hframe _ => exact hframe.contentLevel_eq

/-- Of regions that agree one by one some starts at a place of the line when some other does. -/
theorem startsAt_agrees (h : List.Forall₂ (Frame.Agrees m) frames frames') (id : RuleId) {x : Nat}
    (hx : x ≤ m.length) :
    startsAt frames id (m.base + x) = startsAt frames' id (m.target + x) := by
  unfold startsAt
  induction h with
  | nil => rfl
  | cons hframe _ ih =>
    rw [List.any_cons, List.any_cons, ih, hframe.rule_eq,
      decide_eq_decide.2 (hframe.start_iff x hx)]

end Frames

namespace Grammar

variable {frames frames' : Frames E} {content : String} {pos : Nat}

/-- A match reopens a region at both places or at none. -/
theorem reopens_agrees (grammar : Grammar E) (h : List.Forall₂ (Frame.Agrees m) frames frames')
    (id : RuleId) {found : Match} (hfound : found.Within m.length) :
    grammar.reopens frames m.base id found = grammar.reopens frames' m.target id found := by
  unfold reopens
  rw [Frames.startsAt_agrees h id hfound.start_le]

/-- A further rule is taken into account alike. -/
theorem consider_agrees (grammar : Grammar E) (h : List.Forall₂ (Frame.Agrees m) frames frames')
    (hfind : ∀ (e : Expression E) found, e.findAt content pos = some found →
      found.Within m.length)
    {state : Option (RuleId × Match) × Memo}
    (hmemo : state.2.All fun found => found.Within m.length) (id : RuleId) :
    grammar.consider frames content m.base pos state id =
      grammar.consider frames' content m.target pos state id := by
  unfold consider
  split
  · rfl
  · next opening _ =>
    -- What is found stays within the line, so that the guard says the same of it.
    have hanswer := (hmemo.search (hfind opening) id).1
    split
    · rfl
    · next found memo hsearch =>
      rw [hsearch] at hanswer
      rw [grammar.reopens_agrees h id (hanswer found rfl)]

/-- The same comes next in both readings. -/
theorem nextEvent_agrees (grammar : Grammar E) (h : List.Forall₂ (Frame.Agrees m) frames frames')
    (hfind : ∀ (e : Expression E) found, e.findAt content pos = some found →
      found.Within m.length)
    {memo : Memo} (hmemo : memo.All fun found => found.Within m.length) :
    grammar.nextEvent frames content m.base pos memo =
      grammar.nextEvent frames' content m.target pos memo := by
  -- The induction is on the rules that are left; what is remembered stays within the line.
  have hfold : ∀ (ids : List RuleId) (state : Option (RuleId × Match) × Memo),
      (∀ x ∈ state.1, x.2.Within m.length) →
      (state.2.All fun found => found.Within m.length) →
      ids.foldl (grammar.consider frames content m.base pos) state =
        ids.foldl (grammar.consider frames' content m.target pos) state := by
    intro ids
    induction ids with
    | nil => exact fun state _ _ => rfl
    | cons id ids ih =>
      intro state hbest hall
      obtain ⟨hbest', hall'⟩ := consider_all id hbest hall hfind
      rw [List.foldl_cons, List.foldl_cons, ← grammar.consider_agrees h hfind hall id]
      exact ih _ hbest' hall'
  unfold nextEvent firstOpening
  cases h with
  | nil =>
    dsimp only
    rw [hfold _ _ (by simp) hmemo]
  | cons hframe _ =>
    dsimp only
    rw [hfold _ _ (by simp) hmemo, hframe.rule_eq, hframe.closing_eq]

end Grammar

namespace Tokenizer

variable {t : Tokenizer E} {content : String} {scan scan' : Scan E}

/-- Two readings go on together: their tokens correspond, and they come equally far. -/
def Together (m : Move) (opened : List (Frame E × Frame E)) (x x' : List Token × Scan E) : Prop :=
  List.Forall₂ (Token.Corresponds m opened) x.1 x'.1 ∧ x.2.Follows m opened x'.2

/-- A match of a rule is read alike. -/
theorem readOpening_follows (h : scan.Follows m opened scan') (id : RuleId) {found : Match}
    (hfound : found.Within m.length) :
    Option.Rel (Together m opened) (t.readOpening content m.base scan id found)
      (t.readOpening content m.target scan' id found) := by
  have hagrees := h.frames.imp fun _ _ hframe => hframe.toAgrees
  unfold readOpening
  rw [← Frames.contentLevel_agrees hagrees, ← h.pos_eq]
  dsimp only
  cases (t.grammar.rule id).kind with
  -- A match has tokens, and changes no region.
  | matching _ captures =>
    refine .some ⟨?_, rfl, h.memo_eq, h.frames, h.remembered⟩
    exact List.rel_append (Token.corresponds_ofName hfound _ _)
      (captures.corresponds_tokens hfound _)
  -- A new region starts at corresponding places.
  | region _ _ captures _ _ =>
    have hplace : m.SamePlace (m.base + found.span.start) (m.target + found.span.start) :=
      ⟨found.span.start, hfound.start_le, rfl, rfl⟩
    refine .some ⟨captures.corresponds_tokens hfound _, rfl, h.memo_eq, .cons ?_ h.frames,
      h.remembered⟩
    exact ⟨⟨rfl, rfl, rfl, rfl, fun x _ => hplace.iff x⟩, .inr hplace⟩
  | container => exact .none
  | inert => exact .none

/-- The end of a region is read alike: it is empty at both places or at none. -/
theorem readClosing_follows (h : scan.Follows m opened scan') {found : Match}
    (hfound : found.Within m.length) :
    Option.Rel (Together m opened) (t.readClosing content m.base scan found)
      (t.readClosing content m.target scan' found) := by
  obtain ⟨pos, frames, memo⟩ := scan
  obtain ⟨pos', frames', memo'⟩ := scan'
  obtain ⟨rfl, rfl, hframes, hall⟩ := h
  unfold readClosing
  dsimp only at hframes ⊢
  cases hframes with
  | nil => exact .none
  | cons hframe houter =>
    have hplace : m.SamePlace (m.base + found.span.stop) (m.target + found.span.stop) :=
      ⟨found.span.stop, hfound.stop_le, rfl, rfl⟩
    refine .some ⟨?_, ?_, rfl, houter, hall⟩
    · -- The groups of the end and the token of the region.
      rw [← hframe.rule_eq, ← hframe.contentLevel_eq]
      exact List.rel_append (Captures.corresponds_tokens hfound _ _)
        (hframe.corresponds_close hplace)
    · -- Whether the region stops where it starts is asked of places in the line.
      exact if_congr (hframe.start_iff _ hfound.stop_le) rfl rfl

/-- What is found from the place that a reading of the line has come to is a stretch of the line. -/
theorem within_of_findAt (hE : E.Inside) (hO : E.InOrder) (hm : m.length = content.utf8ByteSize)
    (hpos : scan.pos ≤ content.utf8ByteSize) (e : Expression E) (found : Match)
    (h : e.findAt content scan.pos = some found) : found.Within m.length :=
  hm ▸ e.within_of_findAt hE hO hpos h

/-- Both readings come to one event, and remember the same then. -/
theorem nextEvent_follows (hE : E.Inside) (hO : E.InOrder) (hm : m.length = content.utf8ByteSize)
    (h : scan.Follows m opened scan') (hpos : scan.pos ≤ content.utf8ByteSize) :
    t.grammar.nextEvent scan.frames content m.base scan.pos scan.memo =
      t.grammar.nextEvent scan'.frames content m.target scan'.pos scan'.memo := by
  have hagrees := h.frames.imp fun _ _ hframe => hframe.toAgrees
  rw [← h.pos_eq, ← h.memo_eq]
  exact t.grammar.nextEvent_agrees hagrees (within_of_findAt hE hO hm hpos) h.remembered

/-- A step of one reading is a step of the other. -/
theorem step?_follows (hE : E.Inside) (hO : E.InOrder) (hm : m.length = content.utf8ByteSize)
    (h : scan.Follows m opened scan') :
    Option.Rel (Together m opened) (t.step? content m.base scan)
      (t.step? content m.target scan') := by
  unfold step?
  by_cases hpos : content.utf8ByteSize < scan.pos
  · rw [if_pos hpos, if_pos (h.pos_eq ▸ hpos)]
    exact .none
  rw [if_neg hpos, if_neg (h.pos_eq ▸ hpos)]
  have hle := Nat.le_of_not_lt hpos
  rw [← nextEvent_follows hE hO hm h hle]
  obtain ⟨hevent, hnext⟩ :=
    t.grammar.nextEvent_all scan.frames m.base h.remembered (within_of_findAt hE hO hm hle)
  cases hev : t.grammar.nextEvent scan.frames content m.base scan.pos scan.memo with
  | mk event memo =>
    rw [hev] at hevent hnext
    have hscan : Scan.Follows m opened { scan with memo := memo } { scan' with memo := memo } :=
      ⟨h.pos_eq, rfl, h.frames, hnext⟩
    cases event with
    | none => exact .none
    | some event =>
      cases event with
      -- The event is the same one, and what is made of it corresponds.
      | opening id found => exact readOpening_follows hscan id (hevent (.opening id found) rfl)
      | closing found => exact readClosing_follows hscan (hevent (.closing found) rfl)

/-- The events of a reading in at most `limit` steps, each with the place from which
it was searched for. -/
def events (t : Tokenizer E) (content : String) (offset : Nat) :
    Nat → Scan E → List (Nat × Event)
  | 0, _ => []
  | limit + 1, scan =>
    match t.step? content offset scan with
    | none => []
    | some (_, next) =>
      let event := (t.grammar.nextEvent scan.frames content offset scan.pos scan.memo).1
      (event.map fun event => (scan.pos, event)).toList ++ events t content offset limit next

/-- The readings of the line come to the same events, to tokens that correspond, and to regions that
follow. -/
theorem run_follows (hE : E.Inside) (hO : E.InOrder) (hm : m.length = content.utf8ByteSize)
    (limit : Nat) (h : scan.Follows m opened scan') :
    t.events content m.base limit scan = t.events content m.target limit scan' ∧
      List.Forall₂ (Token.Corresponds m opened) (t.run content m.base limit scan).1
        (t.run content m.target limit scan').1 ∧
      List.Forall₂ (Frame.Follows m opened) (t.run content m.base limit scan).2
        (t.run content m.target limit scan').2 := by
  induction limit generalizing scan scan' with
  | zero => exact ⟨rfl, .nil, h.frames⟩
  | succ limit ih =>
    have hstep := step?_follows (t := t) hE hO hm h
    unfold events run
    generalize t.step? content m.target scan' = other at hstep ⊢
    -- Where one loop stops or goes on the other does so, too.
    cases hone : t.step? content m.base scan with
    | none =>
      rw [hone] at hstep
      cases hstep
      exact ⟨rfl, .nil, h.frames⟩
    | some x =>
      rw [hone] at hstep
      obtain ⟨tokens, next⟩ := x
      cases hstep with
      | @some _ x' hfollow =>
        obtain ⟨tokens', next'⟩ := x'
        obtain ⟨htokens, hnext⟩ := hfollow
        obtain ⟨hevents, hrest, hframes⟩ := ih hnext
        have hevent := nextEvent_follows (t := t) hE hO hm h (le_length_of_step? hone)
        refine ⟨?_, List.rel_append htokens hrest, hframes⟩
        dsimp only
        rw [hevent, hevents, h.pos_eq]

/-- The events of a line in at most `limit` steps; one that is too long has none. -/
def lineEvents (t : Tokenizer E) (limit : Nat) (line : Text.Line) (frames : Frames E) :
    List (Nat × Event) :=
  if t.maxLineLength < line.content.utf8ByteSize then []
  else t.events line.content line.start limit ⟨0, frames, []⟩

/-- A line that is moved is read as it was, if the regions open before it agree one by one,
each in the two texts, in all but where they start, and start at one place of the line if they
start in it at all. -/
theorem line_moved (hE : E.Inside) (hO : E.InOrder) (t : Tokenizer E) (content : String)
    (base target : Nat) {frames frames' : Frames E}
    (hframes : List.Forall₂ (Frame.Agrees ⟨base, target, content.utf8ByteSize⟩) frames
      frames') :
    (∀ limit, t.lineEvents limit ⟨base, content⟩ frames =
      t.lineEvents limit ⟨target, content⟩ frames') ∧
      List.Forall₂
        (Token.Corresponds ⟨base, target, content.utf8ByteSize⟩ (frames.zip frames'))
        (t.line ⟨base, content⟩ frames).1 (t.line ⟨target, content⟩ frames').1 ∧
      List.Forall₂ (Frame.Agrees ⟨base, target, content.utf8ByteSize⟩)
        (t.line ⟨base, content⟩ frames).2 (t.line ⟨target, content⟩ frames').2 := by
  unfold lineEvents line
  -- A line that is too long is read by neither.
  by_cases hlong : t.maxLineLength < content.utf8ByteSize
  · simp only [if_pos hlong]
    exact ⟨fun _ => trivial, .nil, hframes⟩
  simp only [if_neg hlong]
  have hlimit : t.stepLimit content frames = t.stepLimit content frames' := by
    rw [stepLimit, stepLimit, hframes.length_eq]
  have hscan : Scan.Follows ⟨base, target, content.utf8ByteSize⟩ (frames.zip frames')
      ⟨0, frames, []⟩ ⟨0, frames', []⟩ :=
    ⟨rfl, rfl, List.forall₂_iff_zip.2 ⟨hframes.length_eq, fun hmem =>
      ⟨List.forall₂_zip hframes hmem, .inl hmem⟩⟩, Memo.all_nil⟩
  have hrun := fun limit => run_follows (t := t) hE hO rfl limit hscan
  refine ⟨fun limit => (hrun limit).1, hlimit ▸ (hrun _).2.1, hlimit ▸ ?_⟩
  exact (hrun _).2.2.imp fun _ _ hframe => hframe.toAgrees

/-- A region of `brackets` that starts at an offset. -/
def angleAt (start level : Nat) : Frame Engine.literal :=
  ⟨Grammar.wordRule 2, some "angle", .word ">", start, level⟩

/-- Regions of `brackets` that start before the line agree wherever they start. -/
theorem angleAt_agrees {start start' : Nat} (h : start < m.base) (h' : start' < m.target)
    (level : Nat) :
    Frame.Agrees m (angleAt start level) (angleAt start' level) := by
  refine ⟨rfl, rfl, rfl, rfl, fun x _ => ?_⟩
  have hstart : (angleAt start level).start = start := rfl
  have hstart' : (angleAt start' level).start = start' := rfl
  omega

/-- A line that closes one region and opens another, with regions around it whose starts are moved
one way and the other. -/
theorem line_moved_brackets :
    List.Forall₂ (Frame.Agrees ⟨10, 30, 3⟩) [angleAt 4 1, angleAt 2 0]
      [angleAt 7 1, angleAt 0 0] ∧
      line ⟨Grammar.brackets, 80⟩ ⟨10, ">x<"⟩ [angleAt 4 1, angleAt 2 0] =
        ([⟨"bracket", ⟨10, 11⟩, 2⟩, ⟨"angle", ⟨4, 11⟩, 1⟩,
          ⟨"mark", ⟨11, 12⟩, 1⟩, ⟨"bracket", ⟨12, 13⟩, 2⟩],
          [angleAt 12 1, angleAt 2 0]) ∧
      line ⟨Grammar.brackets, 80⟩ ⟨30, ">x<"⟩ [angleAt 7 1, angleAt 0 0] =
        ([⟨"bracket", ⟨30, 31⟩, 2⟩, ⟨"angle", ⟨7, 31⟩, 1⟩,
          ⟨"mark", ⟨31, 32⟩, 1⟩, ⟨"bracket", ⟨32, 33⟩, 2⟩],
          [angleAt 32 1, angleAt 0 0]) ∧
      List.Forall₂ (Token.Corresponds ⟨10, 30, 3⟩
        ([angleAt 4 1, angleAt 2 0].zip [angleAt 7 1, angleAt 0 0]))
        (line ⟨Grammar.brackets, 80⟩ ⟨10, ">x<"⟩ [angleAt 4 1, angleAt 2 0]).1
        (line ⟨Grammar.brackets, 80⟩ ⟨30, ">x<"⟩ [angleAt 7 1, angleAt 0 0]).1 := by
  have hframes : List.Forall₂ (Frame.Agrees ⟨10, 30, 3⟩) [angleAt 4 1, angleAt 2 0]
      [angleAt 7 1, angleAt 0 0] :=
    .cons (angleAt_agrees (by decide) (by decide) 1)
      (.cons (angleAt_agrees (by decide) (by decide) 0) .nil)
  exact ⟨hframes, by decide +kernel, by decide +kernel,
    (line_moved Engine.literal_inside Engine.literal_inOrder ⟨Grammar.brackets, 80⟩ ">x<" 10 30
      hframes).2.1⟩

end Tokenizer

end TextScopes
