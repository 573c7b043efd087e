import TextScopes.Proofs.Text.Lines
import TextScopes.Proofs.Tokenizer.Step

/-!
# What reading lines keeps

A property of the tokens found so far, the open regions and the offset that is reached holds behind
lines that follow one another if it held before them, every step keeps it, and it is not lost
further on (`Tokenizer.Kept`). That is the induction over the steps of a line, over the lines, and
over those that are passed over, made once.
-/

namespace TextScopes

namespace Tokenizer

variable {E : Engine} {t : Tokenizer E} {tokens : List Token}

/-- Every step on one of the lines keeps the property, when the offset reached goes to where the
step goes on, and it holds further on where it holds. -/
structure Kept (t : Tokenizer E) (lines : List Text.Line)
    (holds : List Token → Frames E → Nat → Prop) : Prop where
  further : ∀ {tokens frames reached later}, holds tokens frames reached → reached ≤ later →
    holds tokens frames later
  step : ∀ {line}, line ∈ lines → ∀ {scan next tokens new},
    Text.isBoundary line.content scan.pos = true →
    t.Step line.content line.start scan new next →
    holds tokens scan.frames (line.start + scan.pos) →
    holds (tokens ++ new) next.frames (line.start + min next.pos line.content.utf8ByteSize)

namespace Kept

variable {all : List Text.Line} {holds : List Token → Frames E → Nat → Prop}

/-- Some of the lines keep what all of them keep. -/
theorem mono (h : t.Kept all holds) {some : List Text.Line}
    (hsub : ∀ line ∈ some, line ∈ all) :
    t.Kept some holds :=
  ⟨h.further, fun hline => h.step (hsub _ hline)⟩

/-- Reading on in a line keeps the property. -/
theorem run (hE : E.Bounded) (h : t.Kept all holds) {line : Text.Line} (hline : line ∈ all)
    {limit : Nat} {scan : Scan E} (hs : scan.Sound t.grammar line.content)
    (hscan : holds tokens scan.frames (line.start + min scan.pos line.content.utf8ByteSize)) :
    holds (tokens ++ (t.run line.content line.start limit scan).1)
      (t.run line.content line.start limit scan).2 line.stop := by
  -- Where reading stops, the rest of the line is passed over.
  have hdone : holds (tokens ++ []) scan.frames line.stop := by
    rw [List.append_nil]
    exact h.further hscan (Nat.add_le_add_left (Nat.min_le_right _ _) _)
  induction limit generalizing scan tokens with
  | zero => exact hdone
  | succ limit ih =>
    unfold Tokenizer.run
    cases hstep : t.step? line.content line.start scan with
    | none => exact hdone
    | some x =>
      -- What holds is taken over the step, and then along the rest of the steps.
      obtain ⟨new, next⟩ := x
      have hin := le_length_of_step? hstep
      obtain ⟨hkind, -, hnext⟩ := hs.step hE hstep
      rw [Nat.min_eq_left hin] at hscan
      have hafter := h.step hline (hs.boundary hin) hkind hscan
      dsimp only
      rw [← List.append_assoc]
      refine ih hnext hafter ?_
      rw [List.append_nil]
      exact h.further hafter (Nat.add_le_add_left (Nat.min_le_right _ _) _)

/-- Reading a line keeps the property. -/
theorem line (hE : E.Bounded) (h : t.Kept all holds) {line : Text.Line} (hline : line ∈ all)
    {frames : Frames E} (hstart : holds tokens frames line.start) :
    holds (tokens ++ (t.line line frames).1) (t.line line frames).2 line.stop := by
  unfold Tokenizer.line
  split
  · rw [List.append_nil]
    exact h.further hstart (Nat.le_add_right _ _)
  · refine h.run hE hline (Scan.Sound.start t.grammar line.content frames) ?_
    rw [Nat.zero_min, Nat.add_zero]
    exact hstart

/-- Reading lines that follow one another keeps the property. -/
theorem lines (hE : E.Bounded) (h : t.Kept all holds) {start stop : Nat} (tokens : List Token)
    (frames : Frames E) (hlines : Text.Consecutive start all stop)
    (hstart : holds tokens frames start) :
    holds (tokens ++ (t.lines all frames).1) (t.lines all frames).2 stop := by
  induction all generalizing start tokens frames with
  | nil =>
    obtain rfl : start = stop := hlines
    rw [Tokenizer.lines, List.append_nil]
    exact hstart
  | cons line rest ih =>
    obtain ⟨rfl, hrest⟩ := hlines
    rw [Tokenizer.lines, ← List.append_assoc]
    -- A line is read from where the one before it stops.
    refine ih (h.mono fun _ hl => List.mem_cons_of_mem _ hl) _ _ hrest ?_
    exact h.line hE List.mem_cons_self hstart

end Kept

end Tokenizer

end TextScopes
