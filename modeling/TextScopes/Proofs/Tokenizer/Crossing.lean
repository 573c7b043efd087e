import TextScopes.Proofs.Tokenizer.Block
import TextScopes.Proofs.Tokenizer.Stretch

/-!
# Regions that reach over a line start

What reading on from a line start does with the regions that were open there (`Reread`): it closes
some of them, from the innermost on, and leaves the others. The tokens that start before the place
are tokens of those that are closed, so that two readings which leave the same regions have such
tokens at the same places of the same levels (`Reread.early_eq`).

Two conditions on a grammar say that line starts are clean cuts. Under `Grammar.OpensInside` a
region that is open at a line start began before it, not at it, and under `Grammar.ClosesInside` no
region ends at the start of a line.
-/

namespace TextScopes

variable {E : Engine}

/-- A span is known from its ends. -/
theorem Span.eq_of_ends {span : Span} {start stop : Nat} (h1 : span.start = start)
    (h2 : span.stop = stop) : span = ⟨start, stop⟩ := by
  rw [← h1, ← h2]

/-- The place of a token in a store: its level, and where it starts. -/
def Token.place (token : Token) : Nat × Nat := (token.level, token.span.start)

/-- The place of a region's token in a store. -/
def Frame.place (frame : Frame E) : Nat × Nat := (frame.level, frame.start)

namespace Grammar

/-- No expression that opens a region has an empty match at the very end of a line with its
newline. -/
def OpensInside (grammar : Grammar E) : Prop :=
  ∀ id opening closing openingCaptures closingCaptures last,
    (grammar.rule id).kind = .region opening closing openingCaptures closingCaptures last →
    ∀ content pos found, Text.IsLine content → content.toList.getLast? = some '\n' →
      Text.isBoundary content pos = true → opening.findAt content pos = some found →
      found.span ≠ ⟨content.utf8ByteSize, content.utf8ByteSize⟩

/-- An expression that a region can carry to be closed by: that of a rule, filled with the groups of
a match that opens the rule in some line. -/
def CanClose (grammar : Grammar E) (e : Expression E) : Prop :=
  ∃ id opening closing openingCaptures closingCaptures last content pos found,
    (grammar.rule id).kind = .region opening closing openingCaptures closingCaptures last ∧
    Text.IsLine content ∧ Text.isBoundary content pos = true ∧
    opening.findAt content pos = some found ∧ e = closing.expand content found

/-- No expression that can close a region has an empty match at the first byte of a line. -/
def ClosesInside (grammar : Grammar E) : Prop :=
  ∀ e, grammar.CanClose e → ∀ content found, Text.IsLine content →
    e.findAt content 0 = some found → found.span ≠ ⟨0, 0⟩

end Grammar

/-- What reading on from `place`, with `before` open there, has come to: `count` regions of
those are closed, and the others are still open below those that were opened since. The tokens
that start before the place are those of closed ones that began before it, and stop at the
place or behind it. -/
structure Reread (place : Nat) (before : Frames E) (count : Nat) (tokens : List Token)
    (frames : Frames E) : Prop where
  count_le : count ≤ before.length
  left : ∃ opened : Frames E, frames = opened ++ before.drop count ∧
    ∀ frame ∈ opened, place ≤ frame.start
  early : (tokens.filter (·.span.start < place)).map Token.place =
    (((before.take count).filter (·.start < place)).filter (·.name.isSome)).map Frame.place
  stop : ∀ token ∈ tokens, token.span.start < place → place ≤ token.span.stop

namespace Reread

variable {place : Nat} {before frames outer : Frames E} {frame : Frame E} {tokens new : List Token}
  {count : Nat}

/-- At first nothing is read. -/
theorem start (place : Nat) (before : Frames E) : Reread place before 0 [] before :=
  ⟨Nat.zero_le _, ⟨[], rfl, by simp⟩, by simp, by simp⟩

/-- Tokens that start behind the place change nothing. -/
theorem add (h : Reread place before count tokens frames)
    (hnew : ∀ token ∈ new, place ≤ token.span.start) :
    Reread place before count (tokens ++ new) frames := by
  -- None of the new tokens starts before the place.
  have hlate : new.filter (·.span.start < place) = [] := by
    refine List.filter_eq_nil_iff.2 fun token ht => ?_
    have := hnew token ht
    simp only [decide_eq_true_eq]
    omega
  refine ⟨h.count_le, h.left, ?_, fun token ht hlt => ?_⟩
  · rw [List.filter_append, hlate, List.append_nil, h.early]
  · rcases List.mem_append.1 ht with ht | ht
    · exact h.stop token ht hlt
    · exact absurd hlt (Nat.not_lt_of_le (hnew token ht))

/-- A region is opened behind the place. -/
theorem push (frame : Frame E) (h : Reread place before count tokens frames)
    (hstart : place ≤ frame.start) :
    Reread place before count tokens (frame :: frames) := by
  obtain ⟨opened, rfl, hopened⟩ := h.left
  exact ⟨h.count_le, ⟨frame :: opened, rfl, List.forall_mem_cons.2 ⟨hstart, hopened⟩⟩,
    h.early, h.stop⟩

/-- The innermost region is closed behind the place: one that was opened since, or the next of those
that were open before. -/
theorem close (h : Reread place before count tokens (frame :: outer)) {stop : Nat}
    (hstop : place ≤ stop) :
    ∃ count', Reread place before count' (tokens ++ frame.close stop) outer := by
  obtain ⟨opened, heq, hopened⟩ := h.left
  -- The innermost region was opened since, or is the first of those before that are left.
  cases opened with
  | cons first opened =>
    obtain ⟨rfl, rfl⟩ := List.cons.inj heq
    obtain ⟨hfirst, hopened'⟩ := List.forall_mem_cons.1 hopened
    have hlate : ∀ token ∈ frame.close stop, place ≤ token.span.start := by
      intro token ht
      rw [Frame.span_of_mem_close ht]
      exact hfirst
    have hadd := h.add hlate
    exact ⟨count, hadd.count_le, ⟨opened, rfl, hopened'⟩, hadd.early, hadd.stop⟩
  | nil =>
    rw [List.nil_append] at heq
    -- A region of before is left that was not closed yet.
    have hlt : count < before.length := by
      by_contra hge
      rw [List.drop_eq_nil_of_le (Nat.le_of_not_lt hge)] at heq
      cases heq
    rw [List.drop_eq_getElem_cons hlt] at heq
    obtain ⟨hframe, rfl⟩ := List.cons.inj heq
    refine ⟨count + 1, hlt, ⟨[], rfl, by simp⟩, ?_, fun token ht htlt => ?_⟩
    · -- The token of the region, if it has a name, starts where the region did.
      have hown : ((frame.close stop).filter (·.span.start < place)).map Token.place =
          (([frame].filter (·.start < place)).filter (·.name.isSome)).map Frame.place := by
        unfold Frame.close Token.ofName
        by_cases hearly : frame.start < place
        · cases hname : frame.name with
          | none => simp [hname, hearly]
          | some name => simp [hname, hearly, Token.place, Frame.place]
        · cases hname : frame.name with
          | none => simp [hearly]
          | some name => simp [hearly]
      rw [List.filter_append, List.map_append, h.early, hown, List.take_succ_eq_append_getElem hlt,
        List.filter_append, List.filter_append, List.map_append, hframe]
    · rcases List.mem_append.1 ht with ht | ht
      · exact h.stop token ht htlt
      · rw [Frame.span_of_mem_close ht]
        exact hstop

/-- All regions are closed behind the place. -/
theorem closeAll (h : Reread place before count tokens frames) {stop : Nat}
    (hstop : place ≤ stop) :
    ∃ count', Reread place before count' (tokens ++ frames.close stop) [] := by
  induction frames generalizing tokens count with
  | nil =>
    refine ⟨count, ?_⟩
    simpa [Frames.close] using h
  | cons frame outer ih =>
    -- The innermost region is closed, and then the others.
    obtain ⟨count', h'⟩ := h.close hstop
    obtain ⟨count'', h''⟩ := ih h'
    rw [List.append_assoc] at h''
    exact ⟨count'', h''⟩

/-- The regions that are left say how many are closed of those that began before the place. -/
theorem countP_add (h : Reread place before count tokens frames) :
    (before.take count).countP (·.start < place) + frames.countP (·.start < place) =
      before.countP (·.start < place) := by
  obtain ⟨opened, rfl, hopened⟩ := h.left
  have hnone : opened.countP (·.start < place) = 0 := by
    refine List.countP_eq_zero.2 fun frame hf => ?_
    have := hopened frame hf
    simp only [decide_eq_true_eq]
    omega
  rw [List.countP_append, hnone, Nat.zero_add, ← List.countP_append, List.take_append_drop]

/-- Front parts of a list in which as many elements satisfy a condition have the same ones of
these. -/
theorem filter_take_eq {α : Type} {p : α → Bool} {xs : List α} {m n : Nat}
    (h : (xs.take m).countP p = (xs.take n).countP p) :
    (xs.take m).filter p = (xs.take n).filter p := by
  have htake : ∀ {m n : Nat}, m ≤ n → (xs.take m).filter p <+: (xs.take n).filter p :=
    fun hle => (List.take_prefix_take_left hle).filter p
  rw [List.countP_eq_length_filter, List.countP_eq_length_filter] at h
  rcases Nat.le_total m n with hle | hle
  · exact (htake hle).eq_of_length h
  · exact ((htake hle).eq_of_length h.symm).symm

/-- Readings that leave as many regions of those open before have tokens at the same places
before the line start. -/
theorem early_eq {frames' : Frames E} {tokens' : List Token} {count' : Nat}
    (h : Reread place before count tokens frames) (h' : Reread place before count' tokens' frames')
    (hsame : frames.countP (·.start < place) = frames'.countP (·.start < place)) :
    (tokens.filter (·.span.start < place)).map Token.place =
      (tokens'.filter (·.span.start < place)).map Token.place := by
  have h1 := h.countP_add
  have h2 := h'.countP_add
  have hclosed : (before.take count).filter (·.start < place) =
      (before.take count').filter (·.start < place) := filter_take_eq (by omega)
  rw [h.early, h'.early, hclosed]

/-- A token that shows something and stops at the place is that of a region which was open there. -/
theorem exists_frame_of_stop_le (h : Reread place before count tokens frames) {token : Token}
    (ht : token ∈ tokens) (hshown : token.Shown) (hstop : token.span.stop ≤ place) :
    token.span.stop = place ∧ ∃ frame ∈ before, frame.name.isSome = true ∧
      frame.place = token.place := by
  have hlt : token.span.start < place := Nat.lt_of_lt_of_le hshown hstop
  refine ⟨Nat.le_antisymm hstop (h.stop token ht hlt), ?_⟩
  -- What starts before the place is the token of a region that was open then.
  have hmem : token.place ∈ (tokens.filter (·.span.start < place)).map Token.place :=
    List.mem_map_of_mem (List.mem_filter.2 ⟨ht, by simpa using hlt⟩)
  rw [h.early] at hmem
  obtain ⟨frame, hframe, hplace⟩ := List.mem_map.1 hmem
  obtain ⟨hearly, hname⟩ := List.mem_filter.1 hframe
  exact ⟨frame, List.mem_of_mem_take (List.mem_filter.1 hearly).1, hname, hplace⟩

/-- A token that shows something does not stop before the place. -/
theorem le_stop (h : Reread place before count tokens frames) {token : Token}
    (ht : token ∈ tokens) (hshown : token.Shown) : place ≤ token.span.stop := by
  rcases Nat.lt_or_ge token.span.start place with hlt | hge
  · exact h.stop token ht hlt
  · exact Nat.le_trans hge (Nat.le_of_lt hshown)

end Reread

namespace Tokenizer

variable {t : Tokenizer E} {content : String} {offset place : Nat} {scan next : Scan E}
  {tokens new : List Token} {before : Frames E} {count : Nat}

/-- The tokens of a step other than that of a closed region start behind it. -/
theorem Step.reread (hoffset : place ≤ offset) (h : t.Step content offset scan new next)
    (hs : Reread place before count tokens scan.frames) :
    ∃ count', Reread place before count' (tokens ++ new) next.frames := by
  -- The groups of a match start in the line that is read, and so behind the place.
  have hinside : ∀ {base start stop : Nat} {tokens : List Token}, Block base start stop tokens →
      offset ≤ start → ∀ token ∈ tokens, place ≤ token.span.start := by
    intro base start stop tokens hblock hstart token ht
    have := (hblock.inside token ht).1
    omega
  cases h with
  | @matching id found _ captures _ inside kind finds =>
    exact ⟨count,
      hs.add (hinside (block_matching _ captures found offset _) (Nat.le_add_right _ _))⟩
  | @opening id found _ closing captures _ _ _ inside kind finds new =>
    have hpush := hs.push ⟨id, (t.grammar.rule id).name, closing.expand content found,
      offset + found.span.start, scan.frames.contentLevel⟩ (by dsimp only; omega)
    exact ⟨count,
      hpush.add (hinside (captures.block_tokens found offset _) (Nat.le_add_right _ _))⟩
  | @closing frame outer found _ inside frames finds =>
    rw [frames] at hs
    have hadd := hs.add (hinside ((t.closingCaptures frame.rule).block_tokens found offset
      frame.contentLevel) (Nat.le_add_right _ _))
    -- The end of the match lies behind the place, where the reading began.
    have hstop : place ≤ offset + found.span.stop := Nat.le_trans hoffset (Nat.le_add_right _ _)
    obtain ⟨count', hclose⟩ := hadd.close hstop
    rw [List.append_assoc] at hclose
    exact ⟨count', hclose⟩

/-- Reading on from a line start closes some of the regions that were open there. -/
theorem reread_stretch (hE : E.Bounded) (t : Tokenizer E) (place : Nat) (cs : List Char)
    (before : Frames E) :
    ∃ count, Reread place before count (t.stretch place cs before).1
      (t.stretch place cs before).2 := by
  have hkept : t.Kept (Text.placeLines place (Text.splitLines cs)) fun tokens frames _ =>
      ∃ count, Reread place before count tokens frames :=
    ⟨fun h _ => h, fun hline _ _ _ _ _ hstep ⟨_, hs⟩ =>
      hstep.reread (Text.of_mem_placeLines hline).1 hs⟩
  have h := hkept.stretch hE [] _ ⟨0, Reread.start place before⟩
  rwa [List.nil_append] at h

/-- Reading on from a line start to the end of a text closes all regions that were open there. -/
theorem reread_finish (hE : E.Bounded) (t : Tokenizer E) (place : Nat) (cs : List Char)
    (before : Frames E) :
    ∃ count, Reread place before count (t.finish place cs before) [] := by
  obtain ⟨count, h⟩ := t.reread_stretch hE place cs before
  exact h.closeAll (Nat.le_add_right _ _)

/-- Regions that are open behind lines with their newlines start before the end of these. -/
theorem start_lt_of_stretch (hE : E.Bounded) (hopen : t.grammar.OpensInside) {cs : List Char}
    (hcs : Text.Ended cs) :
    ∀ frame ∈ (t.stretch 0 cs []).2, frame.start < Text.byteCount cs := by
  have hkept : t.Kept (Text.placeLines 0 (Text.splitLines cs)) fun _ frames _ =>
      ∀ frame ∈ frames, frame.start < Text.byteCount cs := by
    refine ⟨fun h _ => h, @fun line hline scan next _ _ hb hstep hs => ?_⟩
    obtain ⟨-, hstop, hmem⟩ := Text.of_mem_placeLines hline
    have hline' : Text.IsLine line.content := Text.splitLines_of_mem hmem
    -- Only opening a region adds one, and its match is not empty at the end of the line.
    cases hstep with
    | matching => exact hs
    | @opening id found _ closing captures _ _ _ inside kind finds new =>
      have hahead := finds.ahead hE
      obtain ⟨-, from_, -, hbfrom, hfound⟩ := finds
      have hne := hopen _ _ _ _ _ _ kind line.content from_ found hline'
        (Text.getLast?_of_mem_splitLines hcs hmem) hbfrom hfound
      refine List.forall_mem_cons.2 ⟨?_, hs⟩
      have h1 := hahead.start_le_stop
      have h2 := hahead.stop_le
      have hlt : found.span.start < line.content.utf8ByteSize := by
        by_contra hge
        exact hne (Span.eq_of_ends (by omega) (by omega))
      rw [Text.Line.stop] at hstop
      dsimp only
      omega
    | @closing frame outer found _ inside frames finds =>
      rw [frames] at hs
      exact (List.forall_mem_cons.1 hs).2
  exact hkept.stretch hE [] _ (by simp)

/-- Regions are closed by expressions that can close a region. -/
theorem canClose_of_stretch (hE : E.Bounded) {offset : Nat} {cs : List Char} {frames : Frames E}
    (hframes : ∀ frame ∈ frames, t.grammar.CanClose frame.closing) :
    ∀ frame ∈ (t.stretch offset cs frames).2, t.grammar.CanClose frame.closing := by
  have hkept : t.Kept (Text.placeLines offset (Text.splitLines cs)) fun _ frames _ =>
      ∀ frame ∈ frames, t.grammar.CanClose frame.closing := by
    refine ⟨fun h _ => h, @fun line hline scan next _ _ hb hstep hs => ?_⟩
    have hline' : Text.IsLine line.content :=
      Text.splitLines_of_mem (Text.of_mem_placeLines hline).2.2
    -- Only an opening brings a frame, whose end comes from its match.
    cases hstep with
    | matching => exact hs
    | @opening id found _ closing captures _ _ _ inside kind finds new =>
      obtain ⟨-, from_, -, hbfrom, hfound⟩ := finds
      refine List.forall_mem_cons.2 ⟨?_, hs⟩
      exact ⟨_, _, _, _, _, _, line.content, from_, found, kind, hline', hbfrom, hfound, rfl⟩
    | @closing frame outer found _ inside frames finds =>
      rw [frames] at hs
      exact (List.forall_mem_cons.1 hs).2
  exact hkept.stretch hE [] _ hframes

/-- Reading on from a line start, no token with a byte stops at it or before. -/
theorem lt_stop_of_stretch (hE : E.Bounded) (hclose : t.grammar.ClosesInside) {place : Nat}
    {cs : List Char} {frames : Frames E}
    (hframes : ∀ frame ∈ frames, t.grammar.CanClose frame.closing) :
    ∀ token ∈ (t.stretch place cs frames).1, token.Shown → place < token.span.stop := by
  have hkept : t.Kept (Text.placeLines place (Text.splitLines cs)) fun tokens frames _ =>
      (∀ token ∈ tokens, token.Shown → place < token.span.stop) ∧
        ∀ frame ∈ frames, t.grammar.CanClose frame.closing := by
    refine ⟨fun h _ => h, @fun line hline scan next tokens _ hb hstep ⟨htokens, hcan⟩ => ?_⟩
    obtain ⟨hstart, -, hmem⟩ := Text.of_mem_placeLines hline
    have hline' : Text.IsLine line.content := Text.splitLines_of_mem hmem
    -- The groups of a match start in the line, and those with a byte stop behind its start.
    have hblock : ∀ {base start stop : Nat} {tokens : List Token},
        Block base start stop tokens →
        line.start ≤ start → ∀ token ∈ tokens, token.Shown → place < token.span.stop := by
      intro base start stop tokens hblock hle token ht hshown
      have := (hblock.inside token ht).1
      unfold Token.Shown at hshown
      omega
    cases hstep with
    | @matching id found _ captures _ inside kind finds =>
      exact ⟨List.forall_mem_append.2
        ⟨htokens, hblock (block_matching _ captures found line.start _)
        (Nat.le_add_right _ _)⟩, hcan⟩
    | @opening id found _ closing captures _ _ _ inside kind finds new =>
      obtain ⟨-, from_, -, hbfrom, hfound⟩ := finds
      refine ⟨List.forall_mem_append.2
        ⟨htokens, hblock (captures.block_tokens found line.start _)
        (Nat.le_add_right _ _)⟩, List.forall_mem_cons.2 ⟨?_, hcan⟩⟩
      exact ⟨_, _, _, _, _, _, line.content, from_, found, kind, hline', hbfrom, hfound, rfl⟩
    | @closing frame outer found _ inside frames finds =>
      rw [frames] at hcan
      obtain ⟨hframe, houter⟩ := List.forall_mem_cons.1 hcan
      refine ⟨List.forall_mem_append.2 ⟨htokens, List.forall_mem_append.2
        ⟨hblock (Captures.block_tokens _ found line.start _) (Nat.le_add_right _ _),
          fun token ht _ => ?_⟩⟩, houter⟩
      rw [Frame.span_of_mem_close ht]
      -- A region that ends at the start of a line is closed by an empty match there.
      have hahead := Expression.ahead_of_findAt hE hb finds
      have h1 := hahead.le_start
      have h2 := hahead.start_le_stop
      have hpos : found.span.stop ≠ 0 := by
        intro h0
        have hpos : scan.pos = 0 := by omega
        rw [hpos] at finds
        exact hclose _ hframe line.content found hline' finds
          (Span.eq_of_ends (by omega) (by omega))
      dsimp only
      omega
  have h := hkept.stretch hE [] _ ⟨by simp, hframes⟩
  rw [List.nil_append] at h
  exact h.1

/-- Reading some last characters of a text, no token with a byte stops before them or at their
start. -/
theorem lt_stop_of_finish (hE : E.Bounded) (hclose : t.grammar.ClosesInside) {place : Nat}
    {cs : List Char} (hcs : cs ≠ []) {frames : Frames E}
    (hframes : ∀ frame ∈ frames, t.grammar.CanClose frame.closing) :
    ∀ token ∈ t.finish place cs frames, token.Shown → place < token.span.stop := by
  refine List.forall_mem_append.2 ⟨lt_stop_of_stretch hE hclose hframes, fun token ht _ => ?_⟩
  have hstop := Frames.stop_of_mem_close ht
  have hbyte : Text.byteCount cs ≠ 0 := mt Text.eq_nil_of_byteCount hcs
  omega

end Tokenizer

end TextScopes
