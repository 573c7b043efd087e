import TextScopes.Proofs.Text.Boundary

/-!
# Where the lines of a text lie

The lines of a text follow one another without a gap (`consecutive_lines`): each is the stretch of
the text that its start and stop name (`slice?_of_mem_lines`), no line is empty, and a boundary of a
line is a boundary of the text (`isBoundary_of_mem_lines`).
-/

namespace TextScopes.Text

/-- Lines that follow one another without a gap, from one offset to another. -/
def Consecutive : Nat → List Line → Nat → Prop
  | start, [], stop => start = stop
  | start, line :: rest, stop => line.start = start ∧ Consecutive line.stop rest stop

/-- Placed lines follow one another, as far as they have bytes. -/
theorem consecutive_placeLines (start : Nat) (css : List (List Char)) :
    Consecutive start (placeLines start css) (start + byteCount css.flatten) := by
  induction css generalizing start with
  | nil => simp [placeLines, Consecutive, byteCount]
  | cons cs css ih =>
    refine ⟨rfl, ?_⟩
    have hstop : (⟨start, String.ofList cs⟩ : Line).stop = start + byteCount cs := by
      simp [Line.stop]
    have hrest := ih (start + byteCount cs)
    rw [List.flatten_cons, byteCount_append, ← Nat.add_assoc, ← hstop] at *
    exact hrest

/-- The lines of a text follow one another from its start to its end. -/
theorem consecutive_lines (text : String) : Consecutive 0 (lines text) text.utf8ByteSize := by
  have htext : drop text 0 = text := by simp [drop, split?]
  have h := consecutive_placeLines 0 (splitLines text.toList)
  rw [flatten_splitLines, Nat.zero_add, ← utf8ByteSize_eq] at h
  rwa [lines, linesFrom, htext]

/-- The lines in front of one of them stop where it starts. -/
theorem Consecutive.front {start stop : Nat} {front back : List Line} {line : Line}
    (h : Consecutive start (front ++ line :: back) stop) : Consecutive start front line.start := by
  induction front generalizing start with
  | nil => exact h.1.symm
  | cons first front ih => exact ⟨h.1, ih h.2⟩

/-- A line starts behind all the lines before it. -/
theorem exists_of_mem_placeLines {start : Nat} {css : List (List Char)} {line : Line}
    (h : line ∈ placeLines start css) :
    ∃ before cs after, css = before ++ cs :: after ∧
      line = ⟨start + byteCount before.flatten, String.ofList cs⟩ := by
  induction css generalizing start with
  | nil => simp [placeLines] at h
  | cons cs css ih =>
    rcases List.mem_cons.1 h with rfl | h
    · exact ⟨[], cs, css, rfl, by simp [byteCount]⟩
    · -- A later line starts behind the first, whose bytes are counted with those before it.
      obtain ⟨before, ds, after, rfl, rfl⟩ := ih h
      refine ⟨cs :: before, ds, after, rfl, ?_⟩
      simp [Line.stop, Nat.add_assoc]

/-- A line of a text is a part of it, and starts behind what comes before. -/
theorem exists_of_mem_lines {text : String} {line : Line} (h : line ∈ lines text) :
    ∃ before cs after, text = String.ofList (before ++ cs ++ after) ∧
      line = ⟨byteCount before, String.ofList cs⟩ ∧ cs ∈ splitLines text.toList := by
  have htext : drop text 0 = text := by simp [drop, split?]
  rw [lines, linesFrom, htext] at h
  obtain ⟨before, cs, after, hcss, rfl⟩ := exists_of_mem_placeLines h
  refine ⟨before.flatten, cs, after.flatten, ?_, by simp, by simp [hcss]⟩
  rw [← String.ofList_toList (s := text), ← flatten_splitLines text.toList, hcss]
  simp

/-- No line is empty. -/
theorem ne_nil_of_mem_splitLines {cs line : List Char} (h : line ∈ splitLines cs) :
    line ≠ [] := by
  induction cs generalizing line with
  | nil => simp [splitLines] at h
  | cons c cs ih =>
    -- Every line is made with a character: a newline, or one that is put before a line.
    unfold splitLines at h
    split at h
    · rcases List.mem_cons.1 h with rfl | h
      · simp
      · exact ih h
    · split at h
      · simp_all
      · next first rest hrest =>
        rcases List.mem_cons.1 h with rfl | h
        · simp
        · exact ih (hrest ▸ List.mem_cons_of_mem _ h)

/-- A line is the stretch of the text between its start and its stop. -/
theorem slice?_of_mem_lines {text : String} {line : Line} (h : line ∈ lines text) :
    slice? text ⟨line.start, line.stop⟩ = some line.content := by
  obtain ⟨before, cs, after, rfl, rfl, -⟩ := exists_of_mem_lines h
  have hfirst : split? (String.ofList (before ++ cs ++ after)).toList (byteCount before) =
      some (before, cs ++ after) := by
    rw [String.toList_ofList, List.append_assoc]
    exact split?_byteCount before (cs ++ after)
  have hstop : byteCount before + byteCount cs - byteCount before = byteCount cs := by omega
  simp only [slice?, Line.stop, utf8ByteSize_ofList, hfirst, hstop]
  rw [if_neg (by omega)]
  simp [split?_byteCount]

/-- A boundary of a line is a boundary of the text, behind the line's start. -/
theorem isBoundary_of_mem_lines {text : String} {line : Line} (h : line ∈ lines text)
    {offset : Nat} (hb : isBoundary line.content offset = true) :
    isBoundary text (line.start + offset) = true := by
  obtain ⟨before, cs, after, rfl, rfl, -⟩ := exists_of_mem_lines h
  exact isBoundary_ofList_append hb

end TextScopes.Text
