import TextScopes.Proofs.Grammar.Words
import TextScopes.Proofs.Store.Forest
import TextScopes.Proofs.Tokenizer.Block
import TextScopes.Proofs.Tokenizer.Stretch

/-!
# The scopes of a text are a forest

Tokens carry the level on which their scope belongs, counted from the regions that are open and the
groups around. `Tokenizer.scopes_isForest` shows that this level is free whenever a scope is put
there: the store of a text holds the scope of every token on just its level, and is a forest.

The invariant is `Settled`. A region's own token comes only when the region is closed, behind all
that lies inside, so that a token may lack the one around it as long as an open region stands for
that. On the other hand the levels up to that of an open region are clear behind its start, where
its token will be put. A step adds the groups of one match as a block behind all that was reached,
and opens or closes one region.
-/

namespace TextScopes

variable {E : Engine}

namespace Frames

/-- Open regions are stacked: none starts behind the one inside it or behind an offset, and each
stands on the level right inside the one around it. -/
def Stacked : Frames E → Nat → Prop
  | [], _ => True
  | frame :: outer, reached =>
    frame.start ≤ reached ∧ frame.level = Frames.contentLevel outer ∧
    Stacked outer frame.start

variable {frames : Frames E} {reached : Nat}

/-- Regions that are stacked up to an offset are stacked up to a later one. -/
theorem Stacked.mono (h : frames.Stacked reached) {later : Nat} (hle : reached ≤ later) :
    frames.Stacked later := by
  cases frames with
  | nil => trivial
  | cons frame outer => exact ⟨Nat.le_trans h.1 hle, h.2⟩

/-- No stacked region starts behind the offset. -/
theorem Stacked.start_le (h : frames.Stacked reached) :
    ∀ frame ∈ frames, frame.start ≤ reached := by
  induction frames generalizing reached with
  | nil => simp
  | cons first outer ih =>
    obtain ⟨hstart, -, houter⟩ := h
    refine List.forall_mem_cons.2 ⟨hstart, fun frame hf => ?_⟩
    exact Nat.le_trans (ih houter frame hf) hstart

/-- What is inside stacked regions stands above those that have a name. -/
theorem Stacked.level_lt (h : frames.Stacked reached) :
    ∀ frame ∈ frames, frame.name.isSome = true → frame.level < frames.contentLevel := by
  induction frames generalizing reached with
  | nil => simp
  | cons first outer ih =>
    obtain ⟨-, hlevel, houter⟩ := h
    refine List.forall_mem_cons.2 ⟨fun hname => ?_, fun frame hf hname => ?_⟩
    · -- A named region brings its content one level higher.
      simp [contentLevel, Frame.contentLevel, nameDepth, hname]
    · -- The regions further out are below the level of this one.
      have := ih houter frame hf hname
      have hle : first.level ≤ first.contentLevel := Nat.le_add_right _ _
      rw [hlevel] at hle
      exact Nat.lt_of_lt_of_le this hle

/-- Below the level inside stacked regions stands one of them that has a name. -/
theorem Stacked.exists_named (h : frames.Stacked reached) {n : Nat}
    (hn : frames.contentLevel = n + 1) :
    ∃ frame ∈ frames, frame.name.isSome = true ∧ frame.level = n := by
  induction frames generalizing reached with
  | nil => cases hn
  | cons first outer ih =>
    obtain ⟨-, hlevel, houter⟩ := h
    cases hname : first.name.isSome with
    -- The innermost region has a name, and stands right below.
    | true =>
      refine ⟨first, List.mem_cons_self, hname, ?_⟩
      have : first.level + 1 = n + 1 := by
        simpa [contentLevel, Frame.contentLevel, nameDepth, hname] using hn
      omega
    -- Without a name it leaves the level as it is.
    | false =>
      have hsame : Frames.contentLevel outer = n + 1 := by
        rw [← hlevel]
        simpa [contentLevel, Frame.contentLevel, nameDepth, hname] using hn
      obtain ⟨frame, hf, hnamed, hl⟩ := ih houter hsame
      exact ⟨frame, List.mem_cons_of_mem _ hf, hnamed, hl⟩

end Frames

/-- An open region that will lie around a token, on the level right below. -/
def Frame.Holds (frame : Frame E) (token : Token) : Prop :=
  frame.name.isSome = true ∧ frame.level + 1 = token.level ∧ frame.start ≤ token.span.start

/-- What holds of the tokens found so far, the open regions and the offset that is reached: no token
reaches further, no two ask for the same bytes of one level, each above level 0 has one around it or
an open region that will be, and where the token of an open region will be put there is none. -/
structure Settled (tokens : List Token) (frames : Frames E) (reached : Nat) : Prop where
  stacked : frames.Stacked reached
  behind : ∀ token ∈ tokens, token.span.stop ≤ reached
  fits : tokens.Pairwise Token.Fits
  held : ∀ token ∈ tokens, token.Shown → 0 < token.level →
    (∃ outer ∈ tokens, outer.Encloses token) ∨ ∃ frame ∈ frames, frame.Holds token
  clear : ∀ frame ∈ frames, frame.name.isSome = true → ∀ token ∈ tokens, token.Shown →
    token.level ≤ frame.level → token.span.stop ≤ frame.start

namespace Settled

variable {tokens new : List Token} {frames outer : Frames E} {frame : Frame E} {reached stop : Nat}

/-- Before a text nothing is found and nothing is open. -/
theorem nil : Settled [] ([] : Frames E) 0 := by
  constructor <;> simp [Frames.Stacked]

/-- What is settled at an offset is settled further on. -/
theorem mono (h : Settled tokens frames reached) {later : Nat} (hle : reached ≤ later) :
    Settled tokens frames later :=
  ⟨h.stacked.mono hle, fun token ht => Nat.le_trans (h.behind token ht) hle, h.fits,
    h.held, h.clear⟩

/-- The tokens of a match that lies ahead are added on the level inside the open regions. -/
theorem add {start : Nat} (h : Settled tokens frames reached)
    (hblock : Block frames.contentLevel start stop new) (hstart : reached ≤ start)
    (hstop : start ≤ stop) : Settled (tokens ++ new) frames stop := by
  refine ⟨h.stacked.mono (Nat.le_trans hstart hstop), fun token ht => ?_, ?_,
    fun token ht hs hl => ?_, fun frame hf hname token ht hs hl => ?_⟩
  · rcases List.mem_append.1 ht with ht | ht
    · exact Nat.le_trans (h.behind token ht) (Nat.le_trans hstart hstop)
    · exact (hblock.inside token ht).2
  · -- The new tokens lie behind all that was reached.
    refine List.pairwise_append.2 ⟨h.fits, hblock.fits, fun a ha b hb _ _ _ => .inl ?_⟩
    exact Nat.le_trans (h.behind a ha) (Nat.le_trans hstart (hblock.inside b hb).1)
  · rcases List.mem_append.1 ht with ht | ht
    · rcases h.held token ht hs hl with ⟨outer, ho, he⟩ | hframe
      · exact .inl ⟨outer, List.mem_append_left _ ho, he⟩
      · exact .inr hframe
    · obtain heq | hlt := Nat.eq_or_lt_of_le (hblock.base_le token ht)
      · -- Right inside the open regions the innermost named one stands for what is around.
        obtain ⟨n, hn⟩ := Nat.exists_eq_succ_of_ne_zero (Nat.ne_of_gt hl)
        obtain ⟨frame, hf, hname, hlevel⟩ := h.stacked.exists_named (heq.trans hn)
        refine .inr ⟨frame, hf, hname, by omega, ?_⟩
        have := h.stacked.start_le frame hf
        have := (hblock.inside token ht).1
        omega
      · obtain ⟨outer, ho, he⟩ := hblock.enclosed token ht hs hlt
        exact .inl ⟨outer, List.mem_append_right _ ho, he⟩
  · rcases List.mem_append.1 ht with ht | ht
    · exact h.clear frame hf hname token ht hs hl
    · -- The new tokens stand above every open region that has a name.
      have := hblock.base_le token ht
      have := h.stacked.level_lt frame hf hname
      omega

/-- A region is opened behind all that was reached, on the level inside the regions that are
open. -/
theorem push (frame : Frame E) (h : Settled tokens frames reached)
    (hstart : reached ≤ frame.start) (hlevel : frame.level = frames.contentLevel) :
    Settled tokens (frame :: frames) frame.start := by
  refine ⟨⟨Nat.le_refl _, hlevel, h.stacked.mono hstart⟩,
    fun token ht => Nat.le_trans (h.behind token ht) hstart, h.fits, fun token ht hs hl => ?_,
    List.forall_mem_cons.2 ⟨fun _ token ht _ _ => Nat.le_trans (h.behind token ht) hstart,
      h.clear⟩⟩
  rcases h.held token ht hs hl with houter | ⟨other, ho, hholds⟩
  · exact .inl houter
  · exact .inr ⟨other, List.mem_cons_of_mem _ ho, hholds⟩

/-- A region without a name is closed; nothing rests on it. -/
theorem pop (h : Settled tokens (frame :: outer) reached) (hname : frame.name = none) :
    Settled tokens outer reached := by
  obtain ⟨hstart, -, houter⟩ := h.stacked
  refine ⟨houter.mono hstart, h.behind, h.fits, fun token ht hs hl => ?_,
    (List.forall_mem_cons.1 h.clear).2⟩
  rcases h.held token ht hs hl with hin | ⟨other, ho, hholds⟩
  · exact .inl hin
  · -- A region without a name holds nothing.
    rcases List.mem_cons.1 ho with rfl | ho
    · have := hholds.1
      rw [hname] at this
      cases this
    · exact .inr ⟨other, ho, hholds⟩

/-- A region with a name is closed at the offset that is reached; its token lies around those that
rested on it. -/
theorem popNamed {own : Token} (h : Settled tokens (frame :: outer) reached)
    (hname : frame.name.isSome = true) (hlevel : own.level = frame.level)
    (hspan : own.span = ⟨frame.start, reached⟩) : Settled (tokens ++ [own]) outer reached := by
  obtain ⟨hstart, hinner, houter⟩ := h.stacked
  have hclear := List.forall_mem_cons.1 h.clear
  refine ⟨houter.mono hstart, fun token ht => ?_, ?_, fun token ht hs hl => ?_,
    fun other ho hother token ht hs hl => ?_⟩
  · rcases List.mem_append.1 ht with ht | ht
    · exact h.behind token ht
    · rw [List.mem_singleton.1 ht, hspan]
  · -- The levels up to that of the region are clear behind its start.
    refine List.pairwise_append.2 ⟨h.fits, List.pairwise_singleton _ _,
      fun a ha b hb hl hs _ => .inl ?_⟩
    rw [List.mem_singleton.1 hb] at hl ⊢
    rw [hspan]
    exact hclear.1 hname a ha hs (by omega)
  · rcases List.mem_append.1 ht with ht | ht
    · rcases h.held token ht hs hl with ⟨around, ha, he⟩ | ⟨other, ho, hholds⟩
      · exact .inl ⟨around, List.mem_append_left _ ha, he⟩
      · rcases List.mem_cons.1 ho with rfl | ho
        · -- What rested on the region lies inside its token.
          refine .inl ⟨own, List.mem_append_right _ List.mem_cons_self, ?_, ?_⟩
          · rw [hlevel]
            exact hholds.2.1
          · rw [hspan]
            exact (Span.contains_iff _ _).2 ⟨hholds.2.2, h.behind token ht⟩
        · exact .inr ⟨other, ho, hholds⟩
    · -- The token of the region itself rests on a region further out.
      obtain rfl := List.mem_singleton.1 ht
      obtain ⟨n, hn⟩ := Nat.exists_eq_succ_of_ne_zero (Nat.ne_of_gt hl)
      obtain ⟨other, ho, hother, hn'⟩ := houter.exists_named (n := n) (by omega)
      refine .inr ⟨other, ho, hother, by omega, ?_⟩
      rw [hspan]
      exact houter.start_le other ho
  · -- Regions further out stay clear, also of the token of this one.
    rcases List.mem_append.1 ht with ht | ht
    · exact hclear.2 other ho hother token ht hs hl
    · obtain rfl := List.mem_singleton.1 ht
      have := houter.level_lt other ho hother
      omega

/-- The innermost region is closed at the offset that is reached, and its token is added. -/
theorem close (h : Settled tokens (frame :: outer) reached) :
    Settled (tokens ++ frame.close reached) outer reached := by
  unfold Frame.close Token.ofName
  cases hname : frame.name with
  | none =>
    rw [Option.map_none, Option.toList_none, List.append_nil]
    exact h.pop hname
  | some name => exact h.popNamed (by rw [hname]; rfl) rfl rfl

/-- At the end of a text all regions are closed. -/
theorem closeAll (h : Settled tokens frames reached) :
    Settled (tokens ++ frames.close reached) ([] : Frames E) reached := by
  induction frames generalizing tokens with
  | nil => simpa [Frames.close] using h
  | cons frame outer ih =>
    have := ih h.close
    rwa [List.append_assoc] at this

end Settled

/-- All offsets of the tokens and open regions are boundaries of the text. -/
structure Aligned (text : String) (tokens : List Token) (frames : Frames E) : Prop where
  tokens : ∀ token ∈ tokens, Text.isBoundary text token.span.start = true ∧
    Text.isBoundary text token.span.stop = true
  frames : ∀ frame ∈ frames, Text.isBoundary text frame.start = true

namespace Aligned

variable {text : String} {tokens new : List Token} {frames outer : Frames E} {frame : Frame E}

/-- More tokens between boundaries are added. -/
theorem add (h : Aligned text tokens frames)
    (hnew : ∀ token ∈ new, Text.isBoundary text token.span.start = true ∧
      Text.isBoundary text token.span.stop = true) : Aligned text (tokens ++ new) frames :=
  ⟨List.forall_mem_append.2 ⟨h.tokens, hnew⟩, h.frames⟩

/-- The innermost region is closed at a boundary. -/
theorem close (h : Aligned text tokens (frame :: outer)) {stop : Nat}
    (hstop : Text.isBoundary text stop = true) :
    Aligned text (tokens ++ frame.close stop) outer := by
  obtain ⟨hstart, houter⟩ := List.forall_mem_cons.1 h.frames
  refine ⟨List.forall_mem_append.2 ⟨h.tokens, fun token ht => ?_⟩, houter⟩
  rw [Frame.span_of_mem_close ht]
  exact ⟨hstart, hstop⟩

/-- At the end of a text all regions are closed. -/
theorem closeAll (h : Aligned text tokens frames) {stop : Nat}
    (hstop : Text.isBoundary text stop = true) :
    Aligned text (tokens ++ frames.close stop) ([] : Frames E) := by
  induction frames generalizing tokens with
  | nil => simpa [Frames.close] using h
  | cons frame outer ih =>
    have := ih (h.close hstop)
    rwa [List.append_assoc] at this

end Aligned

namespace Tokenizer

variable {t : Tokenizer E} {content text : String} {offset : Nat} {scan next : Scan E}
  {tokens new : List Token}

/-- A step adds a block on the level inside the open regions and opens or closes one of them. -/
theorem Step.settled (hE : E.Bounded) (hb : Text.isBoundary content scan.pos = true)
    (h : t.Step content offset scan new next)
    (hs : Settled tokens scan.frames (offset + scan.pos)) :
    Settled (tokens ++ new) next.frames (offset + min next.pos content.utf8ByteSize) := by
  cases h with
  | @matching id found _ captures _ inside kind finds =>
    -- The groups of the match lie between its ends.
    have hahead := finds.ahead hE
    have h1 := hahead.le_start
    have h2 := hahead.start_le_stop
    have h3 := hahead.stop_le
    have h4 := stop_le_advance content found scan.pos h3
    have hblock := block_matching (t.grammar.rule id).name captures found offset
      scan.frames.contentLevel
    refine (hs.add hblock (by omega) (by omega)).mono ?_
    dsimp only
    omega
  | @opening id found _ closing captures _ _ _ inside kind finds new =>
    have hahead := finds.ahead hE
    have h1 := hahead.le_start
    have h2 := hahead.start_le_stop
    -- The region starts where its match does, and the groups of the match lie inside it.
    rw [Nat.min_eq_left hahead.stop_le]
    have hpush := hs.push ⟨id, (t.grammar.rule id).name, closing.expand content found,
      offset + found.span.start, scan.frames.contentLevel⟩ (by dsimp only; omega) rfl
    exact hpush.add (captures.block_tokens found offset _) (Nat.le_refl _) (by omega)
  | @closing frame outer found _ inside frames finds =>
    have hahead := Expression.ahead_of_findAt hE hb finds
    have h1 := hahead.le_start
    have h2 := hahead.start_le_stop
    have h3 := hahead.stop_le
    have h4 := stop_le_advance content found scan.pos h3
    rw [frames] at hs
    -- The groups of the end pattern lie inside the region that it closes.
    have hadd :=
      hs.add ((t.closingCaptures frame.rule).block_tokens found offset frame.contentLevel)
      (by omega) (by omega)
    rw [← List.append_assoc]
    refine hadd.close.mono ?_
    dsimp only
    split <;> omega

/-- A step finds tokens and opens regions at boundaries of the text. -/
theorem Step.aligned (hE : E.Bounded) (hG : E.GroupsBounded) {line : Text.Line}
    (hline : line ∈ Text.lines text) (hb : Text.isBoundary line.content scan.pos = true)
    (h : t.Step line.content line.start scan new next) (hs : Aligned text tokens scan.frames) :
    Aligned text (tokens ++ new) next.frames := by
  -- What lies between boundaries of the line does so in the text.
  have hshift : ∀ token : Token, (∃ span : Span, token.span = span.shift line.start ∧
      Text.isBoundary line.content span.start = true ∧
      Text.isBoundary line.content span.stop = true) →
      Text.isBoundary text token.span.start = true ∧
      Text.isBoundary text token.span.stop = true := by
    rintro token ⟨span, hspan, h1, h2⟩
    rw [hspan, Span.shift, Nat.add_comm span.start, Nat.add_comm span.stop]
    exact ⟨Text.isBoundary_of_mem_lines hline h1, Text.isBoundary_of_mem_lines hline h2⟩
  -- So the groups of a match do.
  have hgroups : ∀ {e : Expression E} {pos : Nat} {found : Match},
      Text.isBoundary line.content pos = true → e.findAt line.content pos = some found →
      ∀ (captures : Captures) (level : Nat), ∀ token ∈ captures.tokens found line.start level,
        Text.isBoundary text token.span.start = true ∧
          Text.isBoundary text token.span.stop = true := by
    intro e pos found hpos hfound captures level token ht
    have hahead := Expression.ahead_of_findAt hE hpos hfound
    exact hshift token (Captures.boundaries_of_mem_tokens hG hpos hfound hahead ht)
  cases h with
  | @matching id found _ captures _ inside kind finds =>
    have hahead := finds.ahead hE
    obtain ⟨-, from_, -, hbfrom, hfound⟩ := finds
    refine hs.add
      (List.forall_mem_append.2 ⟨fun token ht => ?_, hgroups hbfrom hfound captures _⟩)
    exact hshift token ⟨found.span, Token.span_of_mem_ofName ht, hahead.boundary_start,
      hahead.boundary_stop⟩
  | @opening id found _ closing captures _ _ _ inside kind finds _ =>
    have hahead := finds.ahead hE
    obtain ⟨-, from_, -, hbfrom, hfound⟩ := finds
    have hadd := hs.add (hgroups hbfrom hfound captures
      (scan.frames.contentLevel + nameDepth (t.grammar.rule id).name))
    refine ⟨hadd.tokens, List.forall_mem_cons.2 ⟨?_, hadd.frames⟩⟩
    exact Text.isBoundary_of_mem_lines hline hahead.boundary_start
  | @closing frame outer found _ inside frames finds =>
    have hahead := Expression.ahead_of_findAt hE hb finds
    have hadd := hs.add (hgroups hb finds (t.closingCaptures frame.rule) frame.contentLevel)
    rw [frames] at hadd
    rw [← List.append_assoc]
    exact hadd.close (Text.isBoundary_of_mem_lines hline hahead.boundary_stop)

/-- The tokens of the first characters of a text are settled behind them. -/
theorem settled_stretch (hE : E.Bounded) (t : Tokenizer E) (cs : List Char) :
    Settled (t.stretch 0 cs []).1 (t.stretch 0 cs []).2 (Text.byteCount cs) := by
  have hkept : t.Kept (Text.placeLines 0 (Text.splitLines cs)) Settled :=
    ⟨fun h hle => h.mono hle, fun _ _ _ _ _ hb hstep hs => hstep.settled hE hb hs⟩
  have h := hkept.stretch hE [] [] Settled.nil
  rwa [List.nil_append, Nat.zero_add] at h

/-- The tokens of a text are settled at its end. -/
theorem settled_tokens (hE : E.Bounded) (t : Tokenizer E) (text : String) :
    Settled (t.tokens text) ([] : Frames E) text.utf8ByteSize := by
  rw [← String.ofList_toList (s := text), tokens_ofList, Text.utf8ByteSize_ofList, finish,
    Nat.zero_add]
  exact (t.settled_stretch hE text.toList).closeAll

/-- The tokens of a text start and stop at its boundaries. -/
theorem aligned_tokens (hE : E.Bounded) (hG : E.GroupsBounded) (t : Tokenizer E) (text : String) :
    Aligned text (t.tokens text) ([] : Frames E) := by
  have hkept : t.Kept (Text.lines text) fun tokens frames _ => Aligned text tokens frames :=
    ⟨fun h _ => h, fun hline _ _ _ _ hb hstep hs => hstep.aligned hE hG hline hb hs⟩
  have h := hkept.lines hE [] [] (Text.consecutive_lines text) ⟨by simp, by simp⟩
  rw [List.nil_append] at h
  exact h.closeAll (Text.isBoundary_length text)

/-- The store of a text holds the scope of every token on the token's level. -/
theorem holds_scopes (hE : E.Bounded) (t : Tokenizer E) (text : String) :
    (t.scopes text).Holds text (Token.entries (t.tokens text)) := by
  have h := (Store.Holds.ofText text).addTokens (t.settled_tokens hE text).fits (by simp)
  rwa [List.append_nil] at h

/-- The store of a text that is cut where a line starts holds what is found in front and
what is found behind. -/
theorem holds_scopes_append (hE : E.Bounded) (t : Tokenizer E) {front : List Char}
    (h : Text.Ended front) (back : List Char) :
    (t.scopes (String.ofList (front ++ back))).Holds (String.ofList (front ++ back))
      (Token.entries (t.stretch 0 front []).1 ++
        Token.entries (t.finish (Text.byteCount front) back (t.stretch 0 front []).2)) := by
  have hholds := t.holds_scopes hE (String.ofList (front ++ back))
  rwa [t.tokens_append h, Token.entries_append] at hholds

/-- The scopes of a text are a forest. -/
theorem isForest_scopes (hE : E.Bounded) (t : Tokenizer E) (text : String) :
    (t.scopes text).IsForest := by
  have hsettled := t.settled_tokens hE text
  refine (t.holds_scopes hE text).isForest (fun x hx => ?_) fun n scope hs => ?_
  · -- A token lies in what was read.
    obtain ⟨token, ht, -, rfl⟩ := Token.mem_entries.1 hx
    exact hsettled.behind token ht
  · obtain ⟨token, ht, hshown, heq⟩ := Token.mem_entries.1 hs
    obtain ⟨hlevel, rfl⟩ := Prod.mk.inj heq
    -- At the end no region is open, so that a token lies around.
    rcases hsettled.held token ht hshown (by omega) with ⟨outer, ho, he⟩ | ⟨frame, hf, -⟩
    · refine ⟨outer.scope, Token.mem_entries.2 ⟨outer, ho, he.shown hshown, ?_⟩, he.2⟩
      have := he.1
      exact Prod.ext (by dsimp only [Token.entry]; omega) rfl
    · cases hf

/-- The store of a text is a forest, in which `check` finds no flaw. It holds the scopes of the
tokens that show something, each on its level and as often as it was found, and all of them start
and stop at boundaries of the text. -/
theorem scopes_isForest (hE : E.Bounded) (hG : E.GroupsBounded) (t : Tokenizer E) (text : String) :
    (t.scopes text).text = text ∧ (t.scopes text).IsForest ∧ (t.scopes text).check = none ∧
      (t.scopes text).toList.Perm (Token.entries (t.tokens text)) ∧
      ∀ x ∈ (t.scopes text).toList, Text.isBoundary text x.2.span.start = true ∧
        Text.isBoundary text x.2.span.stop = true := by
  have hholds := t.holds_scopes hE text
  have hforest := t.isForest_scopes hE text
  refine ⟨hholds.text_eq, hforest, Store.check_eq_none_iff.2 hforest, hholds.perm,
    fun x hx => ?_⟩
  obtain ⟨token, ht, -, rfl⟩ := Token.mem_entries.1 (hholds.perm.mem_iff.1 hx)
  exact (t.aligned_tokens hE hG text).tokens token ht

/-- Regions inside one another and marks in them are a forest of three levels. -/
theorem scopes_isForest_brackets :
    Engine.literal.Bounded ∧ Engine.literal.GroupsBounded ∧
      (scopes ⟨Grammar.brackets, 80⟩ "<x\n<x>>").check = none ∧
      (scopes ⟨Grammar.brackets, 80⟩ "<x\n<x>>").toList.Perm
        [(1, .plain "bracket" ⟨0, 1⟩), (1, .plain "mark" ⟨1, 2⟩),
          (2, .plain "bracket" ⟨3, 4⟩), (2, .plain "mark" ⟨4, 5⟩),
          (2, .plain "bracket" ⟨5, 6⟩), (1, .plain "angle" ⟨3, 6⟩),
          (1, .plain "bracket" ⟨6, 7⟩), (0, .plain "angle" ⟨0, 7⟩)] := by
  obtain ⟨-, -, hcheck, hperm, -⟩ := scopes_isForest Engine.literal_bounded
    Engine.literal_groupsBounded ⟨Grammar.brackets, 80⟩ "<x\n<x>>"
  have htokens : tokens ⟨Grammar.brackets, 80⟩ "<x\n<x>>" =
      [⟨"bracket", ⟨0, 1⟩, 1⟩, ⟨"mark", ⟨1, 2⟩, 1⟩, ⟨"bracket", ⟨3, 4⟩, 2⟩,
        ⟨"mark", ⟨4, 5⟩, 2⟩,
        ⟨"bracket", ⟨5, 6⟩, 2⟩, ⟨"angle", ⟨3, 6⟩, 1⟩,
          ⟨"bracket", ⟨6, 7⟩, 1⟩, ⟨"angle", ⟨0, 7⟩, 0⟩] := by
    decide +kernel
  rw [htokens] at hperm
  exact ⟨Engine.literal_bounded, Engine.literal_groupsBounded, hcheck, hperm⟩

end Tokenizer

end TextScopes
