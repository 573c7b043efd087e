import TextScopes.Proofs.Text.Cuts
import TextScopes.Proofs.Token
import TextScopes.Proofs.Tokenizer.Run
import TextScopes.Proofs.Tokenizer.Shift

/-!
# Reading a part of a text

`Tokenizer.stretch` reads some characters line by line, at the offset where they lie in a text, when
some regions are open before them, and `Tokenizer.finish` reads them as the last ones of the text. A
text that is cut where a line starts is read part by part (`Tokenizer.stretch_append`,
`Tokenizer.finish_append`), a part that is moved is read as it was (`Tokenizer.stretch_shift`), and
what steps keep is kept over a part (`Tokenizer.Kept.stretch`).
-/

namespace TextScopes

variable {E : Engine}

/-- The token of a region that is closed lies between its start and where it is closed. -/
theorem Frame.span_of_mem_close {frame : Frame E} {stop : Nat} {token : Token}
    (h : token ∈ frame.close stop) : token.span = ⟨frame.start, stop⟩ :=
  Token.span_of_mem_ofName h

/-- The tokens of regions that are closed at one place stop there. -/
theorem Frames.stop_of_mem_close {frames : Frames E} {stop : Nat} {token : Token}
    (h : token ∈ frames.close stop) : token.span.stop = stop := by
  obtain ⟨frame, -, hclose⟩ := List.mem_flatMap.1 h
  rw [Frame.span_of_mem_close hclose]

namespace Tokenizer

/-- The tokens of characters that start at an offset of a text, when some regions are open before
them, and the regions open behind them. -/
def stretch (t : Tokenizer E) (offset : Nat) (cs : List Char) (frames : Frames E) :
    List Token × Frames E :=
  t.lines (Text.placeLines offset (Text.splitLines cs)) frames

/-- The tokens of the last characters of a text, those of the regions open behind them included. -/
def finish (t : Tokenizer E) (offset : Nat) (cs : List Char) (frames : Frames E) : List Token :=
  (t.stretch offset cs frames).1 ++
    Frames.close (t.stretch offset cs frames).2 (offset + Text.byteCount cs)

variable (t : Tokenizer E)

/-- Lines are read one part after the other. -/
theorem lines_append (front back : List Text.Line) (frames : Frames E) :
    t.lines (front ++ back) frames =
      ((t.lines front frames).1 ++ (t.lines back (t.lines front frames).2).1,
        (t.lines back (t.lines front frames).2).2) := by
  induction front generalizing frames with
  | nil => rfl
  | cons line front ih => simp only [List.cons_append, lines, ih, List.append_assoc]

/-- Characters are read one part after the other when the first part stops where a line does. -/
theorem stretch_append {front : List Char} (h : Text.Ended front) (offset : Nat) (back : List Char)
    (frames : Frames E) :
    t.stretch offset (front ++ back) frames =
      ((t.stretch offset front frames).1 ++
          (t.stretch (offset + Text.byteCount front) back (t.stretch offset front frames).2).1,
        (t.stretch (offset + Text.byteCount front) back (t.stretch offset front frames).2).2) := by
  unfold stretch
  rw [Text.splitLines_append back h, Text.placeLines_append, Text.flatten_splitLines, lines_append]

/-- The last characters are read one part after the other. -/
theorem finish_append {front : List Char} (h : Text.Ended front) (offset : Nat) (back : List Char)
    (frames : Frames E) :
    t.finish offset (front ++ back) frames = (t.stretch offset front frames).1 ++
      t.finish (offset + Text.byteCount front) back (t.stretch offset front frames).2 := by
  unfold finish
  rw [t.stretch_append h, Text.byteCount_append, List.append_assoc, Nat.add_assoc]

/-- The tokens of a text are those of its characters. -/
theorem tokens_ofList (cs : List Char) : t.tokens (String.ofList cs) = t.finish 0 cs [] := by
  unfold tokens finish stretch
  rw [Text.lines_eq, String.toList_ofList, Text.utf8ByteSize_ofList, Nat.zero_add]

/-- A text is read up to a place where a line starts, and then on to its end. -/
theorem tokens_append {front : List Char} (h : Text.Ended front) (back : List Char) :
    t.tokens (String.ofList (front ++ back)) = (t.stretch 0 front []).1 ++
      t.finish (Text.byteCount front) back (t.stretch 0 front []).2 := by
  rw [t.tokens_ofList, t.finish_append h, Nat.zero_add]

variable {shift : Nat → Nat} {base target : Nat}

/-- Characters that are moved are read as they were. -/
theorem stretch_shift (h : Carries shift base target) (cs : List Char) (frames : Frames E) :
    t.stretch target cs (frames.map (Frame.shift shift)) =
      ((t.stretch base cs frames).1.map (Token.shift shift),
        (t.stretch base cs frames).2.map (Frame.shift shift)) :=
  t.lines_shift h (Text.splitLines cs) frames

/-- The last characters of a text are read as they were when they are moved. -/
theorem finish_shift (h : Carries shift base target) (cs : List Char) (frames : Frames E) :
    t.finish target cs (frames.map (Frame.shift shift)) =
      (t.finish base cs frames).map (Token.shift shift) := by
  unfold finish
  rw [t.stretch_shift h, List.map_append, Frames.map_shift_close h]

variable {t}

/-- Reading some characters keeps what steps keep. -/
theorem Kept.stretch (hE : E.Bounded) {offset : Nat} {cs : List Char}
    {holds : List Token → Frames E → Nat → Prop}
    (h : t.Kept (Text.placeLines offset (Text.splitLines cs)) holds) (tokens : List Token)
    (frames : Frames E) (hstart : holds tokens frames offset) :
    holds (tokens ++ (t.stretch offset cs frames).1) (t.stretch offset cs frames).2
      (offset + Text.byteCount cs) := by
  have hlines := Text.consecutive_placeLines offset (Text.splitLines cs)
  rw [Text.flatten_splitLines] at hlines
  exact h.lines hE tokens frames hlines hstart

end Tokenizer

end TextScopes
