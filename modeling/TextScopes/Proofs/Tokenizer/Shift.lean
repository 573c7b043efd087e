import TextScopes.Tokenizer.Basic

/-!
# Reading the same lines elsewhere

What a tokenizer does with a line depends on where the line lies only through the starts of the open
regions, and of these only on which of them lie at which place of the line. So lines that are moved
to another place of a text come to the same tokens and regions, moved with them, if the starts of
the regions that were open before are moved so that none of them comes to lie in the lines which did
not (`Carries`). This is shown for a step (`Tokenizer.step?_shift`), and from it for lines that
follow one another (`Tokenizer.lines_shift`).
-/

namespace TextScopes

/-- The offsets from `base` on move to those from `target` on, and no others do. -/
def Carries (shift : Nat → Nat) (base target : Nat) : Prop :=
  ∀ x i, shift x = target + i ↔ x = base + i

/-- The token in a text whose offsets are carried over by `shift`. -/
def Token.shift (shift : Nat → Nat) (token : Token) : Token :=
  { token with span := ⟨shift token.span.start, shift token.span.stop⟩ }

/-- The scan in a text whose offsets are carried over by `shift`. -/
def Scan.shift {E : Engine} (shift : Nat → Nat) (scan : Scan E) : Scan E :=
  { scan with frames := scan.frames.map (Frame.shift shift) }

variable {E : Engine} {shift : Nat → Nat} {base target : Nat}

namespace Carries

/-- An offset behind the base moves with it. -/
theorem apply (h : Carries shift base target) (i : Nat) : shift (base + i) = target + i :=
  (h (base + i) i).2 rfl

/-- What is carried from a base on is carried from further on. -/
theorem add (h : Carries shift base target) (n : Nat) : Carries shift (base + n) (target + n) := by
  intro x i
  rw [Nat.add_assoc, Nat.add_assoc]
  exact h x (n + i)

end Carries

/-- A token of a stretch of a line moves with the line. -/
theorem Token.shift_span (h : Carries shift base target) (name : String) (span : Span)
    (level : Nat) :
    Token.shift shift ⟨name, span.shift base, level⟩ =
      ⟨name, span.shift target, level⟩ := by
  simp only [Token.shift, Span.shift]
  rw [Nat.add_comm _ base, Nat.add_comm _ base, h.apply, h.apply, Nat.add_comm target,
    Nat.add_comm target]

/-- The token of what has a name moves with the line. -/
theorem Token.map_shift_ofName (h : Carries shift base target) (name : Option String) (span : Span)
    (level : Nat) : (Token.ofName name (span.shift base) level).map (Token.shift shift) =
      Token.ofName name (span.shift target) level := by
  cases name with
  | none => rfl
  | some name => exact congrArg (· :: []) (Token.shift_span h name span level)

/-- The tokens of a match's groups move with the line. -/
theorem Captures.map_shift_tokens (h : Carries shift base target) (captures : Captures)
    (found : Match) (level : Nat) :
    (captures.tokens found base level).map (Token.shift shift) =
      captures.tokens found target level := by
  unfold Captures.tokens
  rw [List.map_map]
  exact List.map_congr_left fun x _ => Token.shift_span h _ _ _

namespace Frames

/-- Moving open regions leaves the level inside them as it is. -/
theorem contentLevel_map_shift (shift : Nat → Nat) (frames : Frames E) :
    contentLevel (frames.map (Frame.shift shift)) = frames.contentLevel := by
  cases frames <;> rfl

/-- A region starts at a place of the moved line exactly when it did at that of the line. -/
theorem startsAt_map_shift (h : Carries shift base target) (frames : Frames E) (id : RuleId)
    (i : Nat) :
    startsAt (frames.map (Frame.shift shift)) id (target + i) = frames.startsAt id (base + i) := by
  unfold startsAt
  rw [List.any_map]
  congr 1
  funext frame
  have hstart : decide (shift frame.start = target + i) = decide (frame.start = base + i) :=
    decide_eq_decide.2 (h frame.start i)
  exact congrArg (decide (frame.rule = id) && ·) hstart

end Frames

/-- The token of a region that is closed in the line moves with the line. -/
theorem Frame.map_shift_close (h : Carries shift base target) (frame : Frame E) (i : Nat) :
    (frame.close (base + i)).map (Token.shift shift) = (frame.shift shift).close (target + i) := by
  unfold Frame.close Token.ofName
  cases hname : frame.name with
  | none => simp [Frame.shift, hname]
  | some name => simp [Frame.shift, Token.shift, hname, h.apply]

/-- The tokens of regions that are closed at one place move with it. -/
theorem Frames.map_shift_close (h : Carries shift base target) (frames : Frames E) (i : Nat) :
    (frames.close (base + i)).map (Token.shift shift) =
      Frames.close (frames.map (Frame.shift shift)) (target + i) := by
  induction frames with
  | nil => rfl
  | cons frame outer ih =>
    have hcons : Frames.close (frame :: outer) (base + i) =
        frame.close (base + i) ++ Frames.close outer (base + i) := rfl
    rw [hcons, List.map_append, ih, Frame.map_shift_close h]
    rfl

namespace Grammar

variable (grammar : Grammar E) (frames : Frames E) (content : String)

/-- A match reopens a region in the moved line exactly when it does in the line. -/
theorem reopens_shift (h : Carries shift base target) (id : RuleId) (found : Match) :
    grammar.reopens (frames.map (Frame.shift shift)) target id found =
      grammar.reopens frames base id found := by
  unfold reopens
  rw [Frames.startsAt_map_shift h]

/-- What comes next in the moved line is what comes next in the line. -/
theorem nextEvent_shift (h : Carries shift base target) (pos : Nat) (memo : Memo) :
    grammar.nextEvent (frames.map (Frame.shift shift)) content target pos memo =
      grammar.nextEvent frames content base pos memo := by
  have hconsider : grammar.consider (frames.map (Frame.shift shift)) content target pos =
      grammar.consider frames content base pos := by
    funext state id
    unfold consider
    simp only [grammar.reopens_shift frames h]
  unfold nextEvent firstOpening
  rw [hconsider]
  cases frames <;> rfl

end Grammar

namespace Tokenizer

variable (t : Tokenizer E) (content : String)

/-- A match is read in the moved line as in the line. -/
theorem readOpening_shift (h : Carries shift base target) (scan : Scan E) (id : RuleId)
    (found : Match) :
    t.readOpening content target (scan.shift shift) id found =
      (t.readOpening content base scan id found).map fun (tokens, next) =>
        (tokens.map (Token.shift shift), next.shift shift) := by
  unfold readOpening
  cases hkind : (t.grammar.rule id).kind with
  -- Levels depend on the open regions' names alone, and places are shifted.
  | matching opening captures =>
    simp only [hkind, Option.map_some, List.map_append, Token.map_shift_ofName h,
      Captures.map_shift_tokens h, Scan.shift, Frames.contentLevel_map_shift]
  | region opening closing openingCaptures closingCaptures last =>
    simp only [hkind, Option.map_some, Captures.map_shift_tokens h, Scan.shift,
      Frames.contentLevel_map_shift, List.map_cons, Frame.shift, h.apply]
    rfl
  | container => simp only [hkind, Option.map_none]
  | inert => simp only [hkind, Option.map_none]

/-- The end of a region is read in the moved line as in the line. -/
theorem readClosing_shift (h : Carries shift base target) (scan : Scan E) (found : Match) :
    t.readClosing content target (scan.shift shift) found =
      (t.readClosing content base scan found).map fun (tokens, next) =>
        (tokens.map (Token.shift shift), next.shift shift) := by
  obtain ⟨pos, frames, memo⟩ := scan
  cases frames with
  | nil => rfl
  | cons frame outer =>
    -- Whether the region stops where it starts is the same at both places.
    have hstart : shift frame.start = target + found.span.stop ↔
        frame.start = base + found.span.stop := h frame.start found.span.stop
    simp only [readClosing, Scan.shift, List.map_cons, Option.map_some, List.map_append,
      Captures.map_shift_tokens h, Frame.map_shift_close h]
    simp only [Frame.shift, hstart]
    rfl

/-- A step in the moved line is the step in the line. -/
theorem step?_shift (h : Carries shift base target) (scan : Scan E) :
    t.step? content target (scan.shift shift) =
      (t.step? content base scan).map fun (tokens, next) =>
        (tokens.map (Token.shift shift), next.shift shift) := by
  obtain ⟨pos, frames, memo⟩ := scan
  simp only [step?, Scan.shift, t.grammar.nextEvent_shift frames content h]
  -- The event is the same one at both places.
  split
  · rfl
  · split
    · rfl
    · next id found memo' _ =>
        exact t.readOpening_shift content h ⟨pos, frames, memo'⟩ id found
    · next found memo' _ => exact t.readClosing_shift content h ⟨pos, frames, memo'⟩ found

/-- The moved line is read as the line is. -/
theorem run_shift (h : Carries shift base target) (limit : Nat) (scan : Scan E) :
    t.run content target limit (scan.shift shift) =
      ((t.run content base limit scan).1.map (Token.shift shift),
        (t.run content base limit scan).2.map (Frame.shift shift)) := by
  induction limit generalizing scan with
  | zero => rfl
  | succ limit ih =>
    unfold run
    rw [t.step?_shift content h]
    -- One loop stops or goes on with the other.
    cases t.step? content base scan with
    | none => rfl
    | some x =>
      obtain ⟨tokens, next⟩ := x
      simp only [Option.map_some, ih, List.map_append]

/-- Lines that are moved are read as they were. -/
theorem lines_shift (h : Carries shift base target) (css : List (List Char)) (frames : Frames E) :
    t.lines (Text.placeLines target css) (frames.map (Frame.shift shift)) =
      ((t.lines (Text.placeLines base css) frames).1.map (Token.shift shift),
        (t.lines (Text.placeLines base css) frames).2.map (Frame.shift shift)) := by
  induction css generalizing base target frames with
  | nil => rfl
  | cons cs css ih =>
    have hline : t.line ⟨target, String.ofList cs⟩ (frames.map (Frame.shift shift)) =
        ((t.line ⟨base, String.ofList cs⟩ frames).1.map (Token.shift shift),
          (t.line ⟨base, String.ofList cs⟩ frames).2.map (Frame.shift shift)) := by
      unfold line
      split
      · rfl
      · -- The bound on the steps depends on how many regions are open, not on where they start.
        have hlimit : t.stepLimit (String.ofList cs) (frames.map (Frame.shift shift)) =
            t.stepLimit (String.ofList cs) frames := by
          unfold stepLimit
          rw [List.length_map]
        dsimp only
        rw [hlimit]
        exact t.run_shift _ h _ ⟨0, frames, []⟩
    -- The lines behind are carried from further on.
    have hrest := ih (h.add (String.ofList cs).utf8ByteSize)
      (t.line ⟨base, String.ofList cs⟩ frames).2
    simp only [Text.placeLines, Tokenizer.lines, Text.Line.stop, hline, hrest, List.map_append]

end Tokenizer

end TextScopes
