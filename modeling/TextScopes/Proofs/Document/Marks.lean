import TextScopes.Document
import TextScopes.Proofs.Edit
import TextScopes.Proofs.Table
import TextScopes.Proofs.Tokenizer.Stretch

/-!
# The regions that are noted at line starts

A document notes at line starts which regions are open there. What is noted is right when reading
all that is before comes to these regions (`Document.OpenAt`). Reading a text notes nothing else
(`Document.of_markLines`), and `Document.rescanFrom_ends` says how reading again ends: at the end
of the text, or at a line start where the regions are open that are noted there. Of what was
noted before it leaves only what lies outside the lines that are read (`Document.rescan_reads`,
by induction over them).
-/

namespace TextScopes

namespace Document

/-! ### Line starts and edits -/

section LineStarts

variable {edit : Edit} {old new : Nat}

/-- A line start that comes to lie before an edit has not moved. -/
theorem eq_of_moveLine? (hle : edit.start ≤ edit.stopBefore) (h : moveLine? edit old = some new)
    (hnew : new ≤ edit.start) : old = new := by
  -- By arithmetic, for the two kinds of edits: only what lies behind an edit moves.
  cases edit with
  | insert pos text =>
    have hnew : new ≤ pos := hnew
    simp only [moveLine?, Option.some.injEq] at h
    split at h <;> omega
  | delete span =>
    have hnew : new ≤ span.start := hnew
    have hle : span.start ≤ span.stop := hle
    simp only [moveLine?, Span.length] at h
    split at h
    · have := Option.some.inj h
      omega
    · split at h
      · cases h
      · exact Option.some.inj h

/-- A line start that comes to lie behind an edit has moved with the text. -/
theorem stopBefore_lt_of_moveLine? (hle : edit.start ≤ edit.stopBefore)
    (h : moveLine? edit old = some new) (hnew : edit.stopAfter < new) :
    edit.stopBefore < old ∧ edit.shift old = new := by
  -- Of the line starts that end up behind the edit none lies inside it.
  cases edit with
  | insert pos text =>
    have hnew : pos + text.utf8ByteSize < new := hnew
    simp only [moveLine?, Option.some.injEq] at h
    simp only [Edit.stopBefore, Edit.shift]
    split at h
    · rw [if_pos (by omega)]
      omega
    · omega
  | delete span =>
    have hnew : span.start < new := hnew
    have hle : span.start ≤ span.stop := hle
    simp only [moveLine?] at h
    simp only [Edit.stopBefore, Edit.shift]
    split at h
    · next hlt =>
      rw [if_pos (Nat.le_of_lt hlt)]
      exact ⟨hlt, Option.some.inj h⟩
    · split at h
      · cases h
      · have := Option.some.inj h
        omega

end LineStarts

variable {E : Engine}

/-- What is noted of an edited text comes from what was noted of the text before. -/
theorem of_moveMarks {edit : Edit} {marks : Table Nat (Frames E)} {offset : Nat} {frames : Frames E}
    (h : (moveMarks edit marks).find? offset = some frames) :
    ∃ old found, marks.find? old = some found ∧ moveLine? edit old = some offset ∧
      frames = found.map (Frame.shift edit.shift) := by
  have hmem := Table.mem_of_find?_ofList h
  obtain ⟨⟨old, found⟩, hentry, hmove⟩ := List.mem_filterMap.1 hmem
  obtain ⟨new, hnew, heq⟩ := Option.map_eq_some_iff.1 hmove
  obtain ⟨rfl, rfl⟩ := Prod.mk.inj heq
  exact ⟨old, found, Table.find?_of_mem hentry, hnew, rfl⟩

/-! ### What is noted right -/

/-- Reading from the start to an offset where a line starts or the characters end comes to these
regions. -/
def OpenAt (t : Tokenizer E) (cs : List Char) (offset : Nat) (frames : Frames E) : Prop :=
  ∃ front back, cs = front ++ back ∧ (Text.Ended front ∨ back = []) ∧
    Text.byteCount front = offset ∧
    (t.stretch 0 front []).2 = frames

/-- Behind whole lines the regions are open to which reading these lines comes. -/
theorem openAt_of_ended (t : Tokenizer E) {front : List Char} (h : Text.Ended front)
    (back : List Char) :
    OpenAt t (front ++ back) (Text.byteCount front) (t.stretch 0 front []).2 :=
  ⟨front, back, rfl, .inl h, rfl, rfl⟩

/-- All that is noted is right. -/
def Noted (t : Tokenizer E) (cs : List Char) (marks : Table Nat (Frames E)) : Prop :=
  ∀ offset frames, marks.find? offset = some frames → OpenAt t cs offset frames

variable {t : Tokenizer E} {front : List Char} {css : List (List Char)}

/-- Characters that are one line are read as a line. -/
theorem stretch_line (t : Tokenizer E) (offset : Nat) {cs : List Char}
    (h : Text.splitLines cs = [cs]) (frames : Frames E) :
    t.stretch offset cs frames = t.line ⟨offset, String.ofList cs⟩ frames := by
  unfold Tokenizer.stretch
  rw [h]
  simp [Text.placeLines, Tokenizer.lines]

/-- Reading on by a line behind characters that stop where a line does. -/
theorem stretch_append_line (t : Tokenizer E) (hfront : Text.Ended front) {cs : List Char}
    (h : Text.splitLines cs = [cs]) :
    (t.stretch 0 (front ++ cs) []).2 =
      (t.line ⟨Text.byteCount front, String.ofList cs⟩ (t.stretch 0 front []).2).2 := by
  rw [t.stretch_append hfront, Nat.zero_add, stretch_line t _ h]

/-- The regions that are noted while lines are read are open there. -/
theorem of_markLines {marks : Table Nat (Frames E)} (hcss : Text.splitLines css.flatten = css)
    (hfront : css ≠ [] → Text.Ended front) {offset : Nat} {frames : Frames E}
    (h : (markLines t (Text.byteCount (front ++ css.flatten)) marks
      (Text.placeLines (Text.byteCount front) css) (t.stretch 0 front []).2).find? offset =
        some frames) :
    OpenAt t (front ++ css.flatten) offset frames ∨ marks.find? offset = some frames := by
  -- On the lines, read one after the other with the regions open at each.
  induction css generalizing front marks with
  | nil =>
    rw [Text.placeLines, markLines, Table.find?_insert] at h
    split at h
    · next heq => exact .inl ⟨_, [], rfl, .inr rfl, by simpa using heq, Option.some.inj h⟩
    · exact .inr h
  | cons cs css ih =>
    have hended := hfront (List.cons_ne_nil _ _)
    obtain ⟨hline, hrest, hlast⟩ := Text.of_splitLines_eq_cons hcss
    have hstop : (⟨Text.byteCount front, String.ofList cs⟩ : Text.Line).stop =
        Text.byteCount (front ++ cs) := by
      simp [Text.Line.stop, Text.byteCount_append]
    rw [Text.placeLines, markLines, hstop, List.flatten_cons, ← List.append_assoc,
      ← stretch_append_line t hended hline] at h
    rw [List.flatten_cons, ← List.append_assoc]
    -- A later line overwrites what is noted here with what is open there.
    rcases ih hrest (fun hne => Text.ended_append front (hlast hne)) h with hopen | hmark
    · exact .inl hopen
    · rw [Table.find?_insert] at hmark
      split at hmark
      · next heq =>
        exact .inl ⟨front, cs ++ css.flatten, List.append_assoc _ _ _, .inl hended, heq,
          Option.some.inj hmark⟩
      · exact .inr hmark

/-! ### Reading again -/

/-- What reading again has come to where `front` is before: the lines of `mid` are read, and
those of `back` are not. -/
structure Reads (t : Tokenizer E) (settled : Nat) (marks : Table Nat (Frames E))
    (front mid back : List Char) (read : Rescan E) : Prop where
  tokens : read.tokens =
    (t.stretch (Text.byteCount front) mid (t.stretch 0 front []).2).1
  frames : read.frames = (t.stretch 0 (front ++ mid) []).2
  stop : read.stop = none ∧ back = [] ∨
    read.stop = some (Text.byteCount (front ++ mid)) ∧ back ≠ [] ∧
    Text.Ended (front ++ mid) ∧
      settled < Text.byteCount (front ++ mid) ∧
      marks.find? (Text.byteCount (front ++ mid)) = some read.frames
  noted : ∀ offset frames, read.marks.find? offset = some frames →
    OpenAt t (front ++ mid ++ back) offset frames ∨
      marks.find? offset = some frames ∧
        (offset < Text.byteCount front ∨ Text.byteCount (front ++ mid) ≤ offset)

variable {settled : Nat} {marks : Table Nat (Frames E)} {mid back cs : List Char} {read : Rescan E}

/-- A line is read before the others. -/
theorem Reads.cons (hfront : Text.Ended front) (hline : Text.splitLines cs = [cs])
    (hmid : mid ≠ [] → Text.Ended cs)
    (h : Reads t settled
      ((marks.insert (Text.byteCount front) (t.stretch 0 front []).2).filter fun offset =>
        !(Text.byteCount front < offset && offset < Text.byteCount (front ++ cs)))
      (front ++ cs) mid back read) :
    Reads t settled marks front (cs ++ mid) back
      { read with tokens :=
          (t.line ⟨Text.byteCount front, String.ofList cs⟩ (t.stretch 0 front []).2).1 ++
            read.tokens } := by
  -- A line has a byte, so that what lies behind it does not lie at its start.
  have hbyte : 0 < Text.byteCount cs := by
    refine Nat.pos_of_ne_zero fun h0 => ?_
    obtain rfl := Text.eq_nil_of_byteCount h0
    cases hline
  have hcount := Text.byteCount_append front cs
  have hcount' := Text.byteCount_append (front ++ cs) mid
  -- The tokens, the regions, the stop, and the notes.
  refine ⟨?_, ?_, ?_, fun offset frames hnoted => ?_⟩
  · dsimp only
    rw [h.tokens, stretch_append_line t hfront hline, Text.byteCount_append,
      ← stretch_line t _ hline]
    by_cases hnil : mid = []
    · rw [hnil, List.append_nil]
      exact List.append_nil _
    · rw [t.stretch_append (hmid hnil)]
  · rw [← List.append_assoc]
    exact h.frames
  · rw [← List.append_assoc]
    rcases h.stop with hend | ⟨hstop, hback, hended, hsettled, hmark⟩
    · exact .inl hend
    · rw [Table.find?_filter, Table.find?_insert, if_pos (by simp), if_neg (by omega)] at hmark
      exact .inr ⟨hstop, hback, hended, hsettled, hmark⟩
  · -- What is left of the notes was left by the lines behind, and lies outside this one or at
    -- its start.
    rw [← List.append_assoc]
    rcases h.noted offset frames hnoted with hopen | ⟨hmark, hplace⟩
    · exact .inl hopen
    · rw [Table.find?_filter, Table.find?_insert] at hmark
      split at hmark
      · next hkeep =>
        split at hmark
        · next heq =>
          left
          exact ⟨front, cs ++ mid ++ back, by simp only [List.append_assoc], .inl hfront, heq,
            Option.some.inj hmark⟩
        · next hne =>
          right
          have houter : offset ≤ Text.byteCount front ∨
              Text.byteCount (front ++ cs) ≤ offset := by
            simpa using hkeep
          exact ⟨hmark, by omega⟩
      · cases hmark

/-- Reading lines again reads some of them, up to where it stops. -/
theorem rescan_reads (t : Tokenizer E) (settled : Nat) (hcss : Text.splitLines css.flatten = css)
    (hfront : css ≠ [] → Text.Ended front) (marks : Table Nat (Frames E)) :
    ∃ mid back, css.flatten = mid ++ back ∧
      Reads t settled marks front mid back (rescan t settled
        (Text.placeLines (Text.byteCount front) css) (t.stretch 0 front []).2 marks) := by
  -- On the lines: reading stops before the first, or reads it and goes on.
  induction css generalizing front marks with
  | nil =>
    refine ⟨[], [], rfl, rfl, ?_, .inl ⟨rfl, rfl⟩,
      fun offset frames hnoted => .inr ⟨hnoted, ?_⟩⟩
    · rw [List.append_nil]
      rfl
    · rw [List.append_nil]
      exact Nat.lt_or_ge _ _
  | cons cs css ih =>
    have hended := hfront (List.cons_ne_nil _ _)
    obtain ⟨hline, hrest, hlast⟩ := Text.of_splitLines_eq_cons hcss
    have hstop : (⟨Text.byteCount front, String.ofList cs⟩ : Text.Line).stop =
        Text.byteCount (front ++ cs) := by
      simp [Text.Line.stop, Text.byteCount_append]
    rw [Text.placeLines, rescan]
    split
    · -- Reading stops before the line.
      next hsettled =>
      refine ⟨[], _, rfl, rfl, ?_, ?_, fun offset frames hnoted => .inr ⟨hnoted, ?_⟩⟩
      · rw [List.append_nil]
      · rw [List.append_nil]
        refine .inr ⟨rfl, fun hnil => ?_, hended, hsettled⟩
        obtain ⟨rfl, -⟩ := List.append_eq_nil_iff.1 hnil
        cases hline
      · rw [List.append_nil]
        exact Nat.lt_or_ge _ _
    · -- The line is read, and the others behind it.
      obtain ⟨mid, back, hcut, hreads⟩ := ih hrest
        (fun hne => Text.ended_append front (hlast hne))
        ((marks.insert (Text.byteCount front) (t.stretch 0 front []).2).filter fun offset =>
          !(Text.byteCount front < offset && offset < Text.byteCount (front ++ cs)))
      refine ⟨cs ++ mid, back, by rw [List.flatten_cons, hcut, List.append_assoc], ?_⟩
      rw [stretch_append_line t hended hline] at hreads
      dsimp only
      rw [hstop]
      refine hreads.cons hended hline fun hmid => ?_
      have hne : css ≠ [] := by
        rintro rfl
        exact hmid (List.append_eq_nil_iff.1 hcut.symm).1
      exact .inr (hlast hne)

/-- How reading again behind `front` ends: at the end of the text, or before that at a line start
where the regions are open that are noted there. -/
inductive Ends (t : Tokenizer E) (settled : Nat) (marks : Table Nat (Frames E))
    (front : List Char) :
    List Char → Rescan E → Prop
  | late {mid : List Char} {read : Rescan E} (stop : read.stop = none)
    (tokens : read.tokens = t.finish (Text.byteCount front) mid (t.stretch 0 front []).2)
    (noted : ∀ offset frames, read.marks.find? offset = some frames →
      OpenAt t (front ++ mid) offset frames ∨
        marks.find? offset = some frames ∧ offset < Text.byteCount front) :
    Ends t settled marks front mid read
  | early {mid back : List Char} {read : Rescan E} (rest : back ≠ [])
    (ended : Text.Ended (front ++ mid)) (behind : settled < Text.byteCount (front ++ mid))
    (stop : read.stop = some (Text.byteCount (front ++ mid)))
    (mark : marks.find? (Text.byteCount (front ++ mid)) = some (t.stretch 0 (front ++ mid) []).2)
    (tokens : read.tokens = (t.stretch (Text.byteCount front) mid (t.stretch 0 front []).2).1)
    (noted : ∀ offset frames, read.marks.find? offset = some frames →
      OpenAt t (front ++ mid ++ back) offset frames ∨ marks.find? offset = some frames ∧
        (offset < Text.byteCount front ∨ Text.byteCount (front ++ mid) ≤ offset)) :
    Ends t settled marks front (mid ++ back) read

/-- Reading a text again from a line start on ends in one of the two ways. -/
theorem rescanFrom_ends (t : Tokenizer E) (settled : Nat) (hfront : Text.Ended front)
    (cs : List Char) (marks : Table Nat (Frames E)) :
    Ends t settled marks front cs (rescanFrom t (String.ofList (front ++ cs)) settled
      (Text.byteCount front) (t.stretch 0 front []).2 marks) := by
  have hcss : Text.splitLines (Text.splitLines cs).flatten = Text.splitLines cs := by
    rw [Text.flatten_splitLines]
  obtain ⟨mid, back, hcut, hreads⟩ := rescan_reads t settled hcss (fun _ => hfront) marks
  rw [Text.flatten_splitLines] at hcut
  subst hcut
  unfold rescanFrom
  rw [Text.linesFrom_byteCount]
  generalize rescan t settled (Text.placeLines (Text.byteCount front)
    (Text.splitLines (mid ++ back))) (t.stretch 0 front []).2 marks = read at hreads
  obtain ⟨tokens, stop, frames, readMarks⟩ := read
  obtain ⟨htokens, hframes, hstop, hnoted⟩ := hreads
  dsimp only at htokens hframes hstop hnoted
  subst hframes
  -- All lines were read, or reading stopped before one.
  rcases hstop with ⟨rfl, rfl⟩ | ⟨rfl, hback, hended, hsettled, hmark⟩
  · rw [List.append_nil, Text.utf8ByteSize_ofList]
    rw [List.append_nil] at hnoted
    have hfinish : tokens ++ Frames.close (t.stretch 0 (front ++ mid) []).2
        (Text.byteCount (front ++ mid)) =
        t.finish (Text.byteCount front) mid (t.stretch 0 front []).2 := by
      unfold Tokenizer.finish
      rw [htokens, t.stretch_append hfront, Nat.zero_add, Text.byteCount_append]
    refine .late rfl hfinish fun offset frames hfind => ?_
    dsimp only at hfind
    rw [Table.find?_insert] at hfind
    split at hfind
    · next heq =>
      exact .inl ⟨front ++ mid, [], (List.append_nil _).symm, .inr rfl, heq,
        Option.some.inj hfind⟩
    · rw [Table.find?_filter] at hfind
      split at hfind
      · next hlt =>
        -- Nothing is left that was noted where lines were read.
        have hlt := of_decide_eq_true hlt
        rcases hnoted offset frames hfind with hopen | hmark
        · exact .inl hopen
        · exact .inr ⟨hmark.1, by omega⟩
      · cases hfind
  · exact .early hback hended hsettled rfl hmark htokens hnoted

/-- What reading the edited text again comes to, from the line of the edit on; nothing where it is
not noted which regions are open there. -/
def reread? (document : Document E) (edit : Edit) : Option (Rescan E) :=
  let text := (document.store.apply edit).text
  let marks := moveMarks edit document.marks
  (marks.find? (Text.lineStart text edit.start)).map fun frames =>
    rescanFrom document.tokenizer text edit.stopAfter (Text.lineStart text edit.start) frames marks

/-- The part of the edited text that is read again. -/
def window (document : Document E) (edit : Edit) (read : Rescan E) : Span :=
  ⟨Text.lineStart (document.store.apply edit).text edit.start,
    read.stop.getD (document.store.apply edit).length⟩

/-- An edit merges what is read again into the scopes that the edit of the text leaves. -/
theorem edit_of_reread? {document : Document E} {edit : Edit} {read : Rescan E}
    (h : document.reread? edit = some read) :
    document.edit edit =
      let merged := merge (document.store.apply edit) (document.window edit read)
        ⟨edit.start, edit.stopAfter⟩ read.tokens
      (merged.2, ⟨document.tokenizer, merged.1, read.marks⟩) := by
  obtain ⟨frames, hfind, rfl⟩ := Option.map_eq_some_iff.1 h
  unfold Document.edit
  dsimp only
  rw [hfind]
  rfl

/-- Where it is not noted which regions are open at the line of the edit, the edited text is
read from its start. -/
theorem edit_of_reread?_eq_none {document : Document E} {edit : Edit}
    (h : document.reread? edit = none) :
    document.edit edit = ((ofText document.tokenizer (document.store.apply edit).text).wholeSpan,
      ofText document.tokenizer (document.store.apply edit).text) := by
  have hfind := Option.map_eq_none_iff.1 h
  unfold Document.edit
  dsimp only
  rw [hfind]

end Document

end TextScopes
