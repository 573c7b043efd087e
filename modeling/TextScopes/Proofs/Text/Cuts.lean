import TextScopes.Proofs.Text.Lines

/-!
# Texts cut where a line starts

Characters that stop where a line does (`Ended`) can be taken from the front of a text: the lines of
the text are those of the two parts (`splitLines_append`). On the other hand lines that are cut into
two parts are the lines of two parts of the text (`of_splitLines_eq_append`), and the line that
holds an offset starts at such a cut (`lineStart_byteCount`).
-/

namespace TextScopes.Text

/-- The characters stop where a line does: there are none, or the last is a newline. -/
def Ended (cs : List Char) : Prop := cs = [] ∨ cs.getLast? = some '\n'

/-- A text that is one line. -/
def IsLine (content : String) : Prop := splitLines content.toList = [content.toList]

/-- What is behind the first of some characters that stop where a line does stops there as well. -/
theorem Ended.tail {c : Char} {cs : List Char} (h : Ended (c :: cs)) : Ended cs := by
  rcases h with h | h
  · cases h
  · cases cs with
    | nil => exact .inl rfl
    | cons d cs => exact .inr (by rwa [List.getLast?_cons_cons] at h)

/-- Characters whose last is a newline stop where a line does. -/
theorem ended_append (front : List Char) {cs : List Char} (h : cs.getLast? = some '\n') :
    Ended (front ++ cs) := by
  right
  rw [List.getLast?_append, h]
  rfl

/-- Where characters that stop where a line does have a last part, its last is a newline. -/
theorem Ended.getLast? {front cs : List Char} (h : Ended (front ++ cs)) (hne : cs ≠ []) :
    cs.getLast? = some '\n' := by
  rcases h with h | h
  · exact absurd (List.append_eq_nil_iff.1 h).2 hne
  · rw [List.getLast?_append] at h
    simpa [List.getLast?_eq_some_getLast hne] using h

/-- Some characters make some lines. -/
theorem splitLines_eq_nil_iff {cs : List Char} : splitLines cs = [] ↔ cs = [] := by
  refine ⟨fun h => ?_, fun h => by rw [h]; rfl⟩
  rw [← flatten_splitLines cs, h]
  rfl

/-- Behind characters that stop where a line does the lines begin anew. -/
theorem splitLines_append {as : List Char} (bs : List Char) (h : Ended as) :
    splitLines (as ++ bs) = splitLines as ++ splitLines bs := by
  induction as with
  | nil => rfl
  | cons c as ih =>
    have hrest := ih h.tail
    rw [List.cons_append]
    by_cases hc : c = '\n'
    · rw [splitLines, splitLines, if_pos hc, if_pos hc, hrest, List.cons_append]
    · -- The first line goes on, since the characters do not stop before a newline.
      have hne : as ≠ [] := by
        rintro rfl
        rcases h with h | h
        · cases h
        · exact hc (Option.some.inj h)
      obtain ⟨line, lines, hlines⟩ : ∃ line lines, splitLines as = line :: lines :=
        List.exists_cons_of_ne_nil (mt splitLines_eq_nil_iff.1 hne)
      rw [splitLines, splitLines, if_neg hc, if_neg hc, hrest, hlines]
      rfl

/-- The first line is a line, the others are the lines of what is behind it, and it has its newline
if there are any. -/
theorem of_splitLines_eq_cons {cs line : List Char} {rest : List (List Char)}
    (h : splitLines cs = line :: rest) :
    splitLines line = [line] ∧ splitLines rest.flatten = rest ∧
      (rest ≠ [] → line.getLast? = some '\n') := by
  induction cs generalizing line with
  | nil => simp [splitLines] at h
  | cons c cs ih =>
    rw [splitLines] at h
    split at h
    · -- A newline is a line of its own here, and the others stay.
      next hc =>
      obtain ⟨rfl, rfl⟩ := List.cons.inj h
      rw [flatten_splitLines]
      subst hc
      exact ⟨rfl, rfl, fun _ => rfl⟩
    · next hc =>
      split at h
      · obtain ⟨rfl, rfl⟩ := List.cons.inj h
        exact ⟨by simp [splitLines, hc], rfl, fun hne => absurd rfl hne⟩
      · -- The character joins the first line.
        next first lines hlines =>
        obtain ⟨rfl, rfl⟩ := List.cons.inj h
        obtain ⟨hfirst, hrest, hlast⟩ := ih hlines
        refine ⟨by rw [splitLines, if_neg hc, hfirst], hrest, fun hne => ?_⟩
        obtain ⟨d, ds, rfl⟩ := List.exists_cons_of_ne_nil
          (ne_nil_of_mem_splitLines (hlines ▸ List.mem_cons_self))
        rw [List.getLast?_cons_cons]
        exact hlast hne

/-- Lines that are cut into two parts are the lines of the parts. -/
theorem of_splitLines_eq_append {cs : List Char} {front back : List (List Char)}
    (h : splitLines cs = front ++ back) :
    splitLines front.flatten = front ∧ splitLines back.flatten = back ∧
      (back ≠ [] → Ended front.flatten) := by
  induction front generalizing cs with
  | nil =>
    rw [List.nil_append] at h
    refine ⟨rfl, ?_, fun _ => .inl rfl⟩
    rw [← h, flatten_splitLines]
  | cons line front ih =>
    obtain ⟨hline, hrest, hlast⟩ := of_splitLines_eq_cons h
    obtain ⟨hfront, hback, hended⟩ := ih hrest
    refine ⟨?_, hback, fun hb => ?_⟩
    · -- The lines in front are told anew, since the first of them ends in a newline.
      rw [List.flatten_cons]
      cases front with
      | nil => simpa using hline
      | cons next front => rw [splitLines_append _ (.inr (hlast (by simp))), hline, hfront]; rfl
    · -- Whatever stops the lines in front stops them with the first one before them.
      rw [List.flatten_cons]
      rcases hended hb with hnil | hnl
      · rw [hnil, List.append_nil]
        exact .inr (hlast (by simp [hb]))
      · exact ended_append line hnl

/-- Every line of a text is a line. -/
theorem splitLines_of_mem {cs line : List Char} (h : line ∈ splitLines cs) :
    splitLines line = [line] := by
  obtain ⟨front, back, heq⟩ := List.append_of_mem h
  have hback := (of_splitLines_eq_append heq).2.1
  exact (of_splitLines_eq_cons hback).1

/-- A line of characters that stop where a line does has its newline. -/
theorem getLast?_of_mem_splitLines {cs line : List Char} (hcs : Ended cs)
    (h : line ∈ splitLines cs) : line.getLast? = some '\n' := by
  obtain ⟨front, back, heq⟩ := List.append_of_mem h
  have hback := (of_splitLines_eq_append heq).2.1
  obtain ⟨hline, -, hlast⟩ := of_splitLines_eq_cons hback
  cases back with
  | cons next back => exact hlast (by simp)
  | nil =>
    -- The last line stops where the characters do.
    have hne := ne_nil_of_mem_splitLines h
    rw [← flatten_splitLines cs, heq, List.flatten_append, List.flatten_singleton] at hcs
    exact hcs.getLast? hne

/-- Lines are placed one part after the other. -/
theorem placeLines_append (start : Nat) (front back : List (List Char)) :
    placeLines start (front ++ back) =
      placeLines start front ++ placeLines (start + byteCount front.flatten) back := by
  induction front generalizing start with
  | nil => simp [placeLines, byteCount]
  | cons cs front ih =>
    have hstop : (⟨start, String.ofList cs⟩ : Line).stop = start + byteCount cs := by
      simp [Line.stop]
    simp only [List.cons_append, placeLines, hstop, ih, List.flatten_cons, byteCount_append,
      Nat.add_assoc]

/-- Lines placed from an offset on lie behind it, as far as the characters reach, and each is a
line. -/
theorem of_mem_placeLines {start : Nat} {cs : List Char} {line : Line}
    (h : line ∈ placeLines start (splitLines cs)) :
    start ≤ line.start ∧ line.stop ≤ start + byteCount cs ∧
    line.content.toList ∈ splitLines cs := by
  obtain ⟨front, ds, back, heq, rfl⟩ := exists_of_mem_placeLines h
  have hcs := flatten_splitLines cs
  rw [heq, List.flatten_append, List.flatten_cons] at hcs
  have hcount := congrArg byteCount hcs
  rw [byteCount_append, byteCount_append] at hcount
  refine ⟨Nat.le_add_right _ _, ?_, ?_⟩
  · rw [Line.stop, utf8ByteSize_ofList]
    dsimp only
    omega
  · rw [heq, String.toList_ofList]
    exact List.mem_append_right _ List.mem_cons_self

/-- The lines from a line start on are those of the characters behind it. -/
theorem linesFrom_byteCount (before after : List Char) :
    linesFrom (String.ofList (before ++ after)) (byteCount before) =
      placeLines (byteCount before) (splitLines after) := by
  have hsplit := split?_byteCount before after
  simp [linesFrom, drop, hsplit]

/-- The lines from an offset on stop inside the text. -/
theorem stop_le_of_mem_linesFrom {text : String} {offset : Nat} {line : Line}
    (h : line ∈ linesFrom text offset) : line.stop ≤ text.utf8ByteSize := by
  unfold linesFrom drop at h
  cases hsplit : split? text.toList offset with
  -- Behind an offset inside a character there are no lines.
  | none =>
    rw [hsplit] at h
    cases h
  | some parts =>
    obtain ⟨before, after⟩ := parts
    obtain ⟨happ, hcount⟩ := split?_eq_some_iff.1 hsplit
    rw [hsplit, String.toList_ofList] at h
    rw [utf8ByteSize_eq, ← happ, byteCount_append, hcount]
    exact (of_mem_placeLines h).2.1

/-- The lines of a text are those of its characters. -/
theorem lines_eq (text : String) : lines text = placeLines 0 (splitLines text.toList) := by
  have h := linesFrom_byteCount [] text.toList
  rwa [List.nil_append, String.ofList_toList] at h

/-- The line that holds an offset starts behind the last newline before it. -/
theorem lineStart_byteCount (before after : List Char) :
    ∃ front back, before = front ++ back ∧ Ended front ∧
      lineStart (String.ofList (before ++ after)) (byteCount before) = byteCount front := by
  have hsplit := split?_byteCount before after
  refine ⟨(before.reverse.dropWhile (· != '\n')).reverse,
    (before.reverse.takeWhile (· != '\n')).reverse, ?_, ?_, ?_⟩
  · rw [← List.reverse_append, List.takeWhile_append_dropWhile, List.reverse_reverse]
  · -- Of the reversed characters the part behind the run starts with a newline.
    cases hdrop : before.reverse.dropWhile (· != '\n') with
    | nil => exact .inl rfl
    | cons c cs =>
      right
      have hc := List.head?_dropWhile_not (· != '\n') before.reverse
      rw [hdrop] at hc
      simpa using hc
  · simp only [lineStart, String.toList_ofList, hsplit, lastLineStart]
    exact byteCount_reverse _ |>.symm

end TextScopes.Text
