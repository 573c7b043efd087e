import TextScopes.Proofs.Document.Incremental
import TextScopes.Proofs.Text.Edges

/-!
# Where regions are noted

A document notes regions at the edges of its text and nowhere else: at the starts of its lines, and
at its end (`Document.marks_at_edges`). So what is open at the line of an edit is always known, and
the text is never read from its start for want of it. Nothing is asked of the grammar or the engine
for that: which regions are noted does not matter, only where.

The invariant is `Document.Lined`. An edit carries what is noted over to the edited text: in front
of the edit an offset is an edge of both texts or of neither (`Text.isEdge_before`), and so is
behind it an offset and the one to which it moves (`Text.isEdge_behind`). In between, reading the
lines again notes something at each line start and forgets what was noted inside the lines
(`Document.rescan_places`, by induction over the lines).
-/

namespace TextScopes.Document

variable {E : Engine} {t : Tokenizer E} {edit : Edit} {marks : Table Nat (Frames E)}
  {front old new tail : List Char} {offset : Nat}

/-! ### Carrying over what is noted -/

/-- Where something is noted of the edited text comes from where something was noted. -/
theorem isSome_moveMarks :
    ((moveMarks edit marks).find? offset).isSome = true ↔
      ∃ before, (marks.find? before).isSome = true ∧ moveLine? edit before = some offset := by
  unfold moveMarks
  rw [Table.isSome_find?_ofList, List.mem_map]
  constructor
  · -- An entry that moved there comes from one that was noted.
    rintro ⟨⟨_, frames⟩, hmem, rfl⟩
    obtain ⟨⟨before, found⟩, hentry, hmove⟩ := List.mem_filterMap.1 hmem
    obtain ⟨after, hafter, heq⟩ := Option.map_eq_some_iff.1 hmove
    obtain ⟨rfl, -⟩ := Prod.mk.inj heq
    exact ⟨before, Table.mem_keys.1 (List.mem_map_of_mem hentry), hafter⟩
  · rintro ⟨before, hbefore, hmove⟩
    obtain ⟨⟨_, found⟩, hentry, rfl⟩ := List.mem_map.1 (Table.mem_keys.2 hbefore)
    refine ⟨(offset, found.map (Frame.shift edit.shift)),
      List.mem_filterMap.2 ⟨_, hentry, ?_⟩, rfl⟩
    dsimp only at hmove ⊢
    rw [hmove]
    rfl

/-- A line start at or before an edit stays. -/
theorem moveLine?_before (hle : edit.start ≤ edit.stopBefore) (h : offset ≤ edit.start) :
    moveLine? edit offset = some offset := by
  cases edit with
  | insert pos text =>
    have h : offset ≤ pos := h
    rw [moveLine?, if_neg (Nat.not_lt.2 h)]
  | delete span =>
    have h : offset ≤ span.start := h
    have hle : span.start ≤ span.stop := hle
    rw [moveLine?, if_neg (by omega), if_neg (by omega)]

/-- A line start behind an edit moves with the text. -/
theorem moveLine?_behind (h : edit.stopBefore < offset) :
    moveLine? edit offset = some (edit.shift offset) := by
  cases edit with
  | insert pos text =>
    have h : pos < offset := h
    rw [moveLine?, if_pos h, Edit.shift, if_pos (Nat.le_of_lt h)]
  | delete span =>
    have h : span.stop < offset := h
    rw [moveLine?, if_pos h, Edit.shift, if_pos (Nat.le_of_lt h)]

/-- Something is noted exactly at the edges of the characters. -/
def AtEdges (marks : Table Nat (Frames E)) (cs : List Char) : Prop :=
  ∀ offset, (marks.find? offset).isSome = true ↔ Text.IsEdge cs offset

/-- In front of an edit something is noted at the edges of the edited text. -/
theorem AtEdges.before (h : AtEdges marks (front ++ old ++ tail))
    (hedit : edit.Replaces front old new)
    (hle : offset ≤ Text.byteCount front) (back : List Char) :
    ((moveMarks edit marks).find? offset).isSome = true ↔ Text.IsEdge (front ++ back) offset := by
  have hplace := Nat.le_trans hle hedit.le_start
  rw [isSome_moveMarks, Text.isEdge_before hedit.ended hle back (old ++ tail),
    ← List.append_assoc, ← h]
  constructor
  · rintro ⟨before, hbefore, hmove⟩
    -- What comes to lie before the edit has not moved.
    rwa [eq_of_moveLine? hedit.start_le hmove hplace] at hbefore
  · intro hnoted
    exact ⟨offset, hnoted, moveLine?_before hedit.start_le hplace⟩

/-- Behind an edit something is noted at the edges of the edited text. -/
theorem AtEdges.behind (h : AtEdges marks (front ++ old ++ tail))
    (hedit : edit.Replaces front old new) (hlt : edit.stopAfter < offset) :
    ((moveMarks edit marks).find? offset).isSome = true ↔
      Text.IsEdge (front ++ new ++ tail) offset := by
  obtain ⟨count, rfl⟩ := Nat.exists_eq_add_of_lt hlt
  have hbehind : edit.stopBefore < Text.byteCount (front ++ old) + (count + 1) := by
    rw [hedit.stopBefore]
    omega
  have hshift := Edit.shift_behind hedit.start_le hbehind
  rw [isSome_moveMarks, hedit.stopAfter, Nat.add_assoc,
    Text.isEdge_behind (front ++ new) (front ++ old) tail (Nat.succ_pos count), ← h]
  rw [hedit.stopAfter] at hlt hshift
  rw [hedit.stopBefore] at hshift
  constructor
  · rintro ⟨before, hbefore, hmove⟩
    -- Only one offset moves there.
    obtain ⟨hbefore', hmoved⟩ := stopBefore_lt_of_moveLine? hedit.start_le hmove
      (by rw [hedit.stopAfter]; omega)
    have hshift' := Edit.shift_behind hedit.start_le hbefore'
    rw [hedit.stopBefore, hedit.stopAfter] at hshift'
    obtain rfl : before = Text.byteCount (front ++ old) + (count + 1) := by omega
    exact hbefore
  · intro hnoted
    refine ⟨_, hnoted, ?_⟩
    rw [moveLine?_behind hbehind]
    exact congrArg some (by omega)

/-! ### Noting while lines are read -/

/-- While lines are read something is noted at their starts and where they stop. -/
theorem isSome_markLines (t : Tokenizer E) (stop : Nat) (lines : List Text.Line)
    (frames : Frames E) :
    ((markLines t stop marks lines frames).find? offset).isSome = true ↔
      offset ∈ lines.map (·.start) ++ [stop] ∨ (marks.find? offset).isSome = true := by
  -- On the lines: each notes its start, and the last one the end of the text.
  induction lines generalizing marks frames with
  | nil =>
    rw [markLines, Table.find?_insert, List.map_nil, List.nil_append, List.mem_singleton,
      eq_comm (a := offset)]
    split
    · next heq => simp [heq]
    · next hne => simp [hne]
  | cons line rest ih =>
    rw [markLines, ih, Table.find?_insert, List.map_cons, List.cons_append, List.mem_cons,
      eq_comm (a := offset)]
    split
    · next heq => simp [heq]
    · next hne => simp [hne]

/-- A text that was read from its start has something noted at its edges. -/
theorem atEdges_ofText (t : Tokenizer E) (text : String) :
    AtEdges (ofText t text).marks text.toList := by
  intro offset
  rw [ofText, isSome_markLines, ← Text.mem_edges]
  exact or_iff_left (by simp [Table.empty, Table.find?])

/-- Where characters were read again something is noted at their edges, and outside them where
something was noted before. -/
def Relined (front mid back : List Char) (marks noted : Table Nat (Frames E)) : Prop :=
  ∀ offset, (noted.find? offset).isSome = true ↔
    (Text.byteCount front ≤ offset ∧ offset < Text.byteCount (front ++ mid) ∧
        Text.IsEdge (front ++ mid ++ back) offset) ∨
      (marks.find? offset).isSome = true ∧
        (offset < Text.byteCount front ∨ Text.byteCount (front ++ mid) ≤ offset)

/-- Where nothing was read something is noted where it was. -/
theorem Relined.nil (front back : List Char) (marks : Table Nat (Frames E)) :
    Relined front [] back marks marks := by
  intro offset
  rw [List.append_nil, or_iff_right (by omega), and_iff_left (Nat.lt_or_ge _ _)]

/-- A line is read before other characters: something is noted at its start and nothing inside
it. -/
theorem Relined.cons {mid back cs : List Char} {noted : Table Nat (Frames E)}
    (hended : Text.Ended front) (hline : Text.splitLines cs = [cs]) {frames : Frames E}
    (h : Relined (front ++ cs) mid back
      ((marks.insert (Text.byteCount front) frames).filter fun offset =>
        !(Text.byteCount front < offset && offset < Text.byteCount (front ++ cs))) noted) :
    Relined front (cs ++ mid) back marks noted := by
  intro offset
  have hcount := Text.byteCount_append front cs
  have hcount' := Text.byteCount_append (front ++ cs) mid
  have hbyte : Text.byteCount cs ≠ 0 := by
    intro h0
    obtain rfl := Text.eq_nil_of_byteCount h0
    cases hline
  rw [h, Table.find?_filter, Table.find?_insert, ← List.append_assoc]
  -- Where the line starts there is an edge, and none inside it.
  have hedge : Text.IsEdge (front ++ cs ++ mid ++ back) (Text.byteCount front) := by
    rw [List.append_assoc, List.append_assoc]
    exact Text.isEdge_of_ended hended _
  have hinside : Text.byteCount front < offset → offset < Text.byteCount (front ++ cs) →
      ¬ Text.IsEdge (front ++ cs ++ mid ++ back) offset := by
    intro h1 h2
    rw [List.append_assoc _ mid]
    exact Text.not_isEdge_inside hline h1 h2 _
  -- The rest is arithmetic over the places: in front, at the start, inside and behind.
  grind

/-- Reading lines again reads some of them: all, or those in front of a place behind `settled`. -/
theorem rescan_places (t : Tokenizer E) (settled : Nat) {css : List (List Char)}
    (hcss : Text.splitLines css.flatten = css) (hfront : css ≠ [] → Text.Ended front)
    (frames : Frames E) (marks : Table Nat (Frames E)) :
    ∃ mid back, css.flatten = mid ++ back ∧
      ((rescan t settled (Text.placeLines (Text.byteCount front) css) frames marks).stop = none ∧
          back = [] ∨
        (rescan t settled (Text.placeLines (Text.byteCount front) css) frames marks).stop =
            some (Text.byteCount (front ++ mid)) ∧ settled < Text.byteCount (front ++ mid)) ∧
      Relined front mid back marks
        (rescan t settled (Text.placeLines (Text.byteCount front) css) frames marks).marks := by
  induction css generalizing front frames marks with
  | nil => exact ⟨[], [], rfl, .inl ⟨rfl, rfl⟩, .nil front [] marks⟩
  | cons cs css ih =>
    obtain ⟨hline, hrest, hlast⟩ := Text.of_splitLines_eq_cons hcss
    have hstop : (⟨Text.byteCount front, String.ofList cs⟩ : Text.Line).stop =
        Text.byteCount (front ++ cs) := by
      simp [Text.Line.stop, Text.byteCount_append]
    rw [Text.placeLines, rescan]
    split
    · -- Reading stops before the line.
      next hsettled =>
      exact ⟨[], _, rfl,
        .inr ⟨by rw [List.append_nil], by rw [List.append_nil]; exact hsettled.1⟩,
        .nil front _ marks⟩
    · -- The line is read, and the others behind it.
      dsimp only
      rw [hstop]
      have hended : css ≠ [] → Text.Ended (front ++ cs) :=
        fun hne => Text.ended_append front (hlast hne)
      obtain ⟨mid, back, hcut, hend, hplaces⟩ := ih hrest hended
        (t.line ⟨Text.byteCount front, String.ofList cs⟩ frames).2
        ((marks.insert (Text.byteCount front) frames).filter fun offset =>
          !(Text.byteCount front < offset && offset < Text.byteCount (front ++ cs)))
      exact ⟨cs ++ mid, back, by rw [List.flatten_cons, hcut, List.append_assoc],
        by rw [← List.append_assoc]; exact hend,
        hplaces.cons (hfront (List.cons_ne_nil _ _)) hline⟩

/-- Reading an edited text again from the line of the edit on has something noted at its edges. -/
theorem atEdges_rescanFrom (h : AtEdges marks (front ++ old ++ tail))
    (hedit : edit.Replaces front old new) (t : Tokenizer E) (frames : Frames E) :
    AtEdges
      (rescanFrom t (String.ofList (front ++ new ++ tail)) edit.stopAfter (Text.byteCount front)
      frames (moveMarks edit marks)).marks (front ++ new ++ tail) := by
  intro offset
  have hcss : Text.splitLines (Text.splitLines (new ++ tail)).flatten =
      Text.splitLines (new ++ tail) := by
    rw [Text.flatten_splitLines]
  obtain ⟨mid, back, hcut, hend, hplaces⟩ := rescan_places t edit.stopAfter hcss
    (fun _ => hedit.ended) frames (moveMarks edit marks)
  rw [Text.flatten_splitLines] at hcut
  have hwhole : front ++ new ++ tail = front ++ mid ++ back := by
    rw [List.append_assoc, hcut, List.append_assoc]
  -- In front of what is read again the edges have not changed.
  have hbefore : offset < Text.byteCount front →
      (((moveMarks edit marks).find? offset).isSome = true ↔
        Text.IsEdge (front ++ new ++ tail) offset) := by
    intro hlt
    rw [List.append_assoc]
    exact h.before hedit (Nat.le_of_lt hlt) _
  have hle : Text.byteCount front ≤ Text.byteCount (front ++ mid) := by
    rw [Text.byteCount_append]
    exact Nat.le_add_right _ _
  unfold rescanFrom
  rw [List.append_assoc front new, Text.linesFrom_byteCount, ← List.append_assoc]
  generalize rescan t edit.stopAfter (Text.placeLines (Text.byteCount front)
    (Text.splitLines (new ++ tail))) frames (moveMarks edit marks) = read at hend hplaces
  obtain ⟨tokens, stop, opened, noted⟩ := read
  dsimp only at hend hplaces
  rcases hend with ⟨rfl, rfl⟩ | ⟨rfl, hsettled⟩
  · -- All lines are read, and the text stops at an edge.
    have hlength := Text.isEdge_length (front ++ new ++ tail)
    have hlast : Text.IsEdge (front ++ new ++ tail) offset →
        offset ≤ Text.byteCount (front ++ new ++ tail) := Text.IsEdge.le
    dsimp only
    rw [Table.find?_insert, Table.find?_filter, Text.utf8ByteSize_ofList]
    rw [List.append_nil] at hwhole
    have hnoted := hplaces offset
    rw [List.append_nil, ← hwhole] at hnoted
    grind
  · -- Behind the lines that are read the edges are those of the text before.
    have hbehind : Text.byteCount (front ++ mid) ≤ offset →
        (((moveMarks edit marks).find? offset).isSome = true ↔
          Text.IsEdge (front ++ new ++ tail) offset) :=
      fun hge => h.behind hedit (Nat.lt_of_lt_of_le hsettled hge)
    dsimp only
    rw [hplaces offset, ← hwhole]
    grind

/-! ### Runs of edits -/

/-- Adding tokens leaves the text as it is. -/
theorem text_foldl_addToken (tokens : List Token) (store : Store) :
    (tokens.foldl Store.addToken store).text = store.text := by
  induction tokens generalizing store with
  | nil => rfl
  | cons token tokens ih =>
    rw [List.foldl_cons, ih, Store.addToken, Store.add]
    split <;> rfl

/-- A text that was just read has its scopes. -/
theorem store_ofText (t : Tokenizer E) (text : String) : (ofText t text).store = t.scopes text := by
  rw [ofText]

/-- A text that was just read is the document's text. -/
theorem text_ofText (t : Tokenizer E) (text : String) : (ofText t text).text = text := by
  rw [Document.text, store_ofText]
  exact text_foldl_addToken _ _

/-- Taking out the scopes of regions that began before leaves the text as it is. -/
theorem text_foldl_dropOld (start : Nat) (tokens : List Token) (state : Store × Span) :
    (tokens.foldl (dropOld start) state).1.text = state.1.text := by
  -- Taking a scope out leaves the text.
  induction tokens generalizing state with
  | nil => rfl
  | cons token tokens ih =>
    rw [List.foldl_cons, ih]
    unfold dropOld
    split
    · split
      · next hremove =>
        obtain ⟨_, _, -, -, rfl⟩ := Store.removeAt?_eq_some_iff.1 hremove
        rfl
      · rfl
    · rfl

/-- Merging leaves the text as it is. -/
theorem text_merge (store : Store) (window changed : Span) (tokens : List Token) :
    (merge store window changed tokens).1.text = store.text := by
  unfold merge
  dsimp only
  generalize List.foldl (fun span scope => cover span scope.span) changed
    (store.removeScopes window).1 =
    widened
  have hdrop := text_foldl_dropOld window.start tokens ((store.removeScopes window).2, widened)
  generalize tokens.foldl (dropOld window.start) ((store.removeScopes window).2, widened) =
    state at hdrop
  obtain ⟨left, covered⟩ := state
  rw [foldl_addNew_fst, text_foldl_addToken]
  exact hdrop

/-- The document holds a text, and something is noted exactly at its edges. -/
structure Lined (document : Document E) (text : String) : Prop where
  text_eq : document.text = text
  marks : AtEdges document.marks text.toList

/-- A text that was just read has something noted at its edges. -/
theorem lined_ofText (t : Tokenizer E) (text : String) : (ofText t text).Lined text :=
  ⟨text_ofText t text, atEdges_ofText t text⟩

/-- After an edit reading begins anew at the line of the edit, and something is noted at the edges
of the edited text. -/
theorem Lined.after {document : Document E} {text : String} (h : document.Lined text)
    (hfits : edit.fits text = true) :
    (∃ read, document.reread? edit = some read ∧ (document.edit edit).2.marks = read.marks) ∧
      (document.edit edit).2.Lined (edit.apply text) := by
  obtain ⟨front, old, new, tail, rfl, happly, hline, hedit⟩ := Edit.exists_replaces hfits
  have htext : (document.store.apply edit).text = String.ofList (front ++ new ++ tail) := by
    rw [← happly, ← h.text_eq]
    exact document.store.text_apply edit
  have hmarks := h.marks
  rw [String.toList_ofList] at hmarks
  -- The line of the edit starts at an edge of the text before.
  have hnoted : ((moveMarks edit document.marks).find? (Text.byteCount front)).isSome = true := by
    rw [hmarks.before hedit (Nat.le_refl _) []]
    exact Text.isEdge_of_ended hedit.ended []
  obtain ⟨frames, hfind⟩ := Option.isSome_iff_exists.1 hnoted
  have hread : document.reread? edit = some (rescanFrom document.tokenizer
      (String.ofList (front ++ new ++ tail)) edit.stopAfter (Text.byteCount front) frames
      (moveMarks edit document.marks)) := by
    rw [happly] at hline
    unfold reread?
    dsimp only
    rw [htext, hline, hfind]
    rfl
  have hedited := edit_of_reread? hread
  rw [happly, hedited]
  refine ⟨⟨_, hread, rfl⟩, ?_, ?_⟩
  · exact (text_merge _ _ _ _).trans htext
  · rw [String.toList_ofList]
    exact atEdges_rescanFrom hmarks hedit document.tokenizer frames

/-- However a document was edited, something is noted exactly at the edges of its text. -/
theorem Reached.lined {document : Document E} {text : String} (h : Reached t document text) :
    document.Lined text := by
  induction h with
  | ofText text => exact lined_ofText t text
  | edit _ fits ih => exact (ih.after fits).2
  | replace _ other _ => exact lined_ofText _ other

/-- However a document was edited, it notes regions at the starts of the lines of its text and at
its end, once each and nowhere else. So an edit that fits finds noted what is open at its line, and
reading goes on from there. -/
theorem marks_at_edges {document : Document E} {text : String} (h : Reached t document text) :
    document.text = text ∧ document.marks.entries.map (·.1) = Text.edges text ∧
      ∀ edit : Edit, edit.fits text = true →
        ∃ read, document.reread? edit = some read ∧
          (document.edit edit).2.marks = read.marks := by
  have hlined := h.lined
  refine ⟨hlined.text_eq, ?_, fun edit hfits => (hlined.after hfits).1⟩
  -- Both lists ascend, and they have the same members.
  have hkeys : (document.marks.entries.map (·.1)).Pairwise (· < ·) :=
    List.pairwise_map.2 document.marks.ascending
  have hedges := Text.pairwise_edges text
  refine List.Perm.eq_of_pairwise (fun a b _ _ hab hba => ?_) hkeys hedges ?_
  · -- Two offsets that are each before the other cannot be.
    omega
  · refine (List.perm_ext_iff_of_nodup (hkeys.imp Nat.ne_of_lt) (hedges.imp Nat.ne_of_lt)).2
      fun offset => ?_
    rw [Table.mem_keys, hlined.marks, Text.mem_edges]

/-- Two lines are joined, the last of which has no newline, and then one is put in at the
start of the other. -/
theorem marks_at_edges_brackets :
    Reached ⟨Grammar.brackets, 80⟩ (((ofText ⟨Grammar.brackets, 80⟩ "<x\n<x>\n>x").edit
        (.delete ⟨6, 7⟩)).2.edit (.insert 3 ">\n")).2 "<x\n>\n<x>>x" ∧
      (((ofText ⟨Grammar.brackets, 80⟩ "<x\n<x>\n>x").edit (.delete ⟨6, 7⟩)).2.edit
        (.insert 3 ">\n")).2.marks.entries.map (·.1) = [0, 3, 5, 10] ∧
      Edit.fits (.delete ⟨2, 10⟩) "<x\n>\n<x>>x" = true ∧
      ((((ofText ⟨Grammar.brackets, 80⟩ "<x\n<x>\n>x").edit (.delete ⟨6, 7⟩)).2.edit
        (.insert 3 ">\n")).2.reread? (.delete ⟨2, 10⟩)).isSome = true := by
  have happly : Edit.apply (.insert 3 ">\n") (Edit.apply (.delete ⟨6, 7⟩) "<x\n<x>\n>x") =
      "<x\n>\n<x>>x" := by
    decide +kernel
  have hreached : Reached ⟨Grammar.brackets, 80⟩
      (((ofText ⟨Grammar.brackets, 80⟩ "<x\n<x>\n>x").edit
      (.delete ⟨6, 7⟩)).2.edit (.insert 3 ">\n")).2
      (Edit.apply (.insert 3 ">\n") (Edit.apply (.delete ⟨6, 7⟩) "<x\n<x>\n>x")) :=
    ((Reached.ofText _).edit (by decide +kernel)).edit (by decide +kernel)
  rw [happly] at hreached
  have hfits : Edit.fits (.delete ⟨2, 10⟩) "<x\n>\n<x>>x" = true := by decide +kernel
  obtain ⟨-, hkeys, hread⟩ := marks_at_edges hreached
  obtain ⟨read, hread, -⟩ := hread _ hfits
  refine ⟨hreached, hkeys.trans (by decide +kernel), hfits, ?_⟩
  rw [hread]
  rfl

end TextScopes.Document
