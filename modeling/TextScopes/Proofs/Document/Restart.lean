import TextScopes.Proofs.Document.Places
import TextScopes.Proofs.Document.Stopping

/-!
# Insertions at the start of a line

What is noted at line starts says where the open regions began, and an insertion moves these
offsets. A region can begin at the very start of a line and be noted there as open before the line:
it was opened by a match without a byte at the end of the line before. An insertion at that start
leaves the line start in front of what is inserted, but moves the region behind it. So of the
regions that are open there just those that began before are noted as before
(`Document.noted_iff_of_insert`), and if all did then the scopes of these regions are those of the
edited text. A region that began at the line start is noted wrong, and its scope is not that of the
edited text (`Document.region_moved`).
-/

namespace TextScopes

variable {E : Engine} {t : Tokenizer E}

/-- An insertion leaves an offset that does not lie behind it, unless the offset lies at it and
something is inserted. -/
theorem Edit.shift_insert_eq_iff {pos offset : Nat} {inserted : String} (h : offset ≤ pos) :
    Edit.shift (.insert pos inserted) offset = offset ↔ (offset = pos → inserted = "") := by
  rw [← String.utf8ByteSize_eq_zero_iff]
  simp only [Edit.shift]
  split <;> omega

namespace Document

/-- What is noted in front of lines stays noted while they are read. -/
theorem find?_rescan_of_lt (t : Tokenizer E) (settled : Nat) {offset : Nat} {lines : List Text.Line}
    (hlines : ∀ line ∈ lines, offset < line.start) (frames : Frames E)
    (marks : Table Nat (Frames E)) :
    (rescan t settled lines frames marks).marks.find? offset = marks.find? offset := by
  -- Each line that is read writes at its own start, behind the offset.
  induction lines generalizing frames marks with
  | nil => rfl
  | cons line rest ih =>
    obtain ⟨hline, hrest⟩ := List.forall_mem_cons.1 hlines
    unfold rescan
    split
    · rfl
    · dsimp only
      rw [ih hrest, Table.find?_filter, Table.find?_insert, if_pos (by simp; omega),
        if_neg (by omega)]

/-- At the start of the first line that is read it is noted with which regions reading begins. -/
theorem find?_rescan (t : Tokenizer E) {place settled : Nat} (hsettled : place ≤ settled)
    {cs : List Char} (hne : cs ≠ []) (frames : Frames E) (marks : Table Nat (Frames E)) :
    (rescan t settled (Text.placeLines place (Text.splitLines cs)) frames marks).marks.find? place =
      some frames := by
  obtain ⟨first, rest, hlines⟩ :=
    List.exists_cons_of_ne_nil (mt Text.splitLines_eq_nil_iff.1 hne)
  have hbyte : Text.byteCount first ≠ 0 :=
    mt Text.eq_nil_of_byteCount (Text.ne_nil_of_mem_splitLines (hlines ▸ List.mem_cons_self))
  obtain ⟨-, hrest, -⟩ := Text.of_splitLines_eq_cons hlines
  -- The other lines start behind the first, so that reading them leaves what is noted there.
  have hbehind : ∀ line ∈ Text.placeLines (place + Text.byteCount first) rest,
      place < line.start := by
    intro line hline
    rw [← hrest] at hline
    have := (Text.of_mem_placeLines hline).1
    omega
  rw [hlines, Text.placeLines, rescan, if_neg (fun h => Nat.not_lt_of_le hsettled h.1),
    Text.Line.stop, Text.utf8ByteSize_ofList]
  dsimp only
  rw [find?_rescan_of_lt t settled hbehind, Table.find?_filter, Table.find?_insert, if_pos rfl,
    if_pos (by simp)]

/-- Where reading again begins it is noted with which regions it begins. -/
theorem find?_rescanFrom (t : Tokenizer E) {front : List Char} (back : List Char) {settled : Nat}
    (hsettled : Text.byteCount front ≤ settled) (frames : Frames E)
    (marks : Table Nat (Frames E)) :
    (rescanFrom t (String.ofList (front ++ back)) settled (Text.byteCount front) frames
      marks).marks.find?
      (Text.byteCount front) = some frames := by
  unfold rescanFrom
  rw [Text.linesFrom_byteCount, Text.utf8ByteSize_ofList, Text.byteCount_append]
  by_cases hback : back = []
  · -- Nothing is read, and the regions are noted at the end of the text.
    subst hback
    exact (Table.find?_insert _ _ _ _).trans (if_pos rfl)
  · -- The first line notes the regions, and its stop lies behind the place.
    have hnoted := find?_rescan t hsettled hback frames marks
    have hbyte : Text.byteCount back ≠ 0 := mt Text.eq_nil_of_byteCount hback
    dsimp only
    split
    · exact hnoted
    · rw [Table.find?_insert, if_neg (by omega), Table.find?_filter, if_pos (by simp; omega)]
      exact hnoted

/-- At the line of an edit it is noted which regions are open there, moved as the edit moves
offsets. -/
theorem Faithful.find?_reread (hE : E.Bounded) {document : Document E} {text : String}
    (h : document.Faithful t text) {edit : Edit} (hfits : edit.fits text = true) {before : Frames E}
    (hbefore : OpenAt t (edit.apply text).toList
      (Text.lineStart (edit.apply text) edit.start) before)
    {read : Rescan E} (hread : document.reread? edit = some read) :
    read.marks.find? (Text.lineStart (edit.apply text) edit.start) =
      some (before.map (Frame.shift edit.shift)) := by
  obtain ⟨frames, hfind, rfl⟩ := Option.map_eq_some_iff.1 hread
  rw [h.text_apply hE] at hfind ⊢
  obtain ⟨front, old, new, tail, rfl, happly, hline, hedit⟩ := Edit.exists_replaces hfits
  rw [happly] at hline hbefore hfind ⊢
  rw [hline] at hbefore hfind ⊢
  rw [String.toList_ofList, List.append_assoc] at hbefore
  -- The regions that are open at the line, and those that were noted there before the edit.
  obtain rfl := hbefore.unique (openAt_of_ended t hedit.ended _)
  have hmarks := h.marks
  rw [String.toList_ofList] at hmarks
  obtain rfl := eq_of_moveMarks_at hedit hmarks hfind
  have hsettled : Text.byteCount front ≤ edit.stopAfter := by
    rw [hedit.stopAfter, Text.byteCount_append]
    exact Nat.le_add_right _ _
  rw [List.append_assoc]
  exact find?_rescanFrom _ _ hsettled _ _

/-- After an insertion at the start of a line it is noted there which regions are open, unless one
of them began right there and something is inserted. If all of them began before, then the store has
the scopes of these regions that the edited text has. -/
theorem noted_iff_of_insert (hE : E.Bounded) {document : Document E} {text : String}
    (h : document.Faithful t text) (hlined : document.Lined text) {pos : Nat} {inserted : String}
    (hfits : Edit.fits (.insert pos inserted) text = true)
    (hline : Text.lineStart (Edit.apply (.insert pos inserted) text) pos = pos) {opened : Frames E}
    (hopened : OpenAt t (Edit.apply (.insert pos inserted) text).toList pos opened) :
    ((document.edit (.insert pos inserted)).2.marks.find? pos = some opened ↔
        ∀ frame ∈ opened, frame.start = pos → inserted = "") ∧
      ((∀ frame ∈ opened, frame.start < pos) →
        ∀ x ∈ (t.scopes (Edit.apply (.insert pos inserted) text)).toList,
          (∃ frame ∈ opened, frame.place = Scope.place x) →
            x ∈ (document.edit (.insert pos inserted)).2.store.toList) := by
  obtain ⟨⟨read, hread, hmarks⟩, -⟩ := hlined.after hfits
  have hopen' : OpenAt t (Edit.apply (.insert pos inserted) text).toList
      (Text.lineStart (Edit.apply (.insert pos inserted) text) pos) opened := by rwa [hline]
  constructor
  · -- A region that starts at the insertion moves with what is inserted, and no other does.
    have hstarts : ∀ frame ∈ opened, frame.start ≤ pos := by
      obtain ⟨front, -, -, -, rfl, rfl⟩ := hopened
      exact (t.settled_stretch hE front).stacked.start_le
    have hnoted := h.find?_reread hE hfits hopen' hread
    rw [Edit.start, hline] at hnoted
    rw [hmarks, hnoted, Option.some.injEq, Frames.map_shift_eq_iff]
    exact forall₂_congr fun frame hframe => Edit.shift_insert_eq_iff (hstarts frame hframe)
  · -- No region moves, so that only what lies in the window can be lost.
    intro hbefore x hx hof
    have hstill : ∀ frame ∈ opened,
        Edit.shift (.insert pos inserted) frame.start = frame.start :=
      fun frame hframe => Edit.shift_before (hbefore frame hframe)
    rcases h.edited hE hfits hopen' hstill hread with
      ⟨-, hstore⟩ | ⟨stop, opened', -, -, hmem⟩
    · rwa [hstore]
    · refine (hmem x).2 ⟨hx, fun hlost => ?_⟩
      -- The region began in front of the lines that are read again.
      obtain ⟨frame, hframe, hplace⟩ := hof
      have hstart : frame.start = x.2.span.start := congrArg Prod.snd hplace
      have hwindow : pos ≤ x.2.span.start := hline ▸ hlost.1
      have := hbefore frame hframe
      omega

/-- A region that began in the first line stays as it was when something is put in at the start of
the second, where it is open. -/
theorem noted_iff_of_insert_blocks :
    Engine.looking.Bounded ∧ (ofText blocks "<\na>\n").Faithful blocks "<\na>\n" ∧
      (ofText blocks "<\na>\n").Lined "<\na>\n" ∧ Edit.fits (.insert 2 "x") "<\na>\n" = true ∧
      Text.lineStart (Edit.apply (.insert 2 "x") "<\na>\n") 2 = 2 ∧
      (∃ opened, OpenAt blocks (Edit.apply (.insert 2 "x") "<\na>\n").toList 2 opened ∧
        opened.map (·.start) = [0] ∧
        ((ofText blocks "<\na>\n").edit (.insert 2 "x")).2.marks.find? 2 = some opened) ∧
      (0, .plain "block" ⟨0, 4⟩) ∈
        ((ofText blocks "<\na>\n").edit (.insert 2 "x")).2.store.toList := by
  have hfaithful := faithful_ofText blocks "<\na>\n"
  have hlined := lined_ofText blocks "<\na>\n"
  have hfits : Edit.fits (.insert 2 "x") "<\na>\n" = true := by decide_cbv
  have hline : Text.lineStart (Edit.apply (.insert 2 "x") "<\na>\n") 2 = 2 := by decide_cbv
  have hopened : OpenAt blocks (Edit.apply (.insert 2 "x") "<\na>\n").toList 2
      (blocks.stretch 0 "<\n".toList []).2 :=
    ⟨"<\n".toList, "xa>\n".toList, by decide_cbv,
      .inl (.inr (by decide_cbv)), by decide_cbv, rfl⟩
  have hplaces : (blocks.stretch 0 "<\n".toList []).2.map (·.place) = [(0, 0)] := by decide_cbv
  have hstarts : (blocks.stretch 0 "<\n".toList []).2.map (·.start) = [0] := by decide_cbv
  have hbefore : ∀ frame ∈ (blocks.stretch 0 "<\n".toList []).2, frame.start < 2 := by
    intro frame hframe
    have hmem : frame.start ∈ [0] := hstarts ▸ List.mem_map_of_mem hframe
    rw [List.mem_singleton.1 hmem]
    omega
  have hfull : (0, .plain "block" ⟨0, 4⟩) ∈
      (blocks.scopes (Edit.apply (.insert 2 "x") "<\na>\n")).toList := by decide_cbv
  obtain ⟨hnoted, hkept⟩ :=
    noted_iff_of_insert Engine.looking_bounded hfaithful hlined hfits hline hopened
  refine ⟨Engine.looking_bounded, hfaithful, hlined, hfits, hline,
    ⟨_, hopened, hstarts, hnoted.2 ?_⟩, hkept hbefore _ hfull ?_⟩
  · intro frame hframe hstart
    have := hbefore frame hframe
    omega
  · have hmem : (0, 0) ∈ (blocks.stretch 0 "<\n".toList []).2.map (·.place) := by
      rw [hplaces]
      exact List.mem_singleton.2 rfl
    exact List.mem_map.1 hmem

/-- Regions that begin behind a line that stops with `:`, and stop in front of `;`. -/
def bodies : Tokenizer Engine.looking := ⟨Grammar.ofRegion "body" "(?<=:\n)" "(?=;)", 80⟩

/-- A region that begins at the start of the second line is moved by an insertion there, though in
the edited text it begins at that start as before. -/
theorem region_moved :
    Engine.looking.Bounded ∧ (ofText bodies "a:\nb;\n").Faithful bodies "a:\nb;\n" ∧
      (ofText bodies "a:\nb;\n").store.toList = [(0, .plain "body" ⟨3, 4⟩)] ∧
      Edit.fits (.insert 3 "x") "a:\nb;\n" = true ∧
      Edit.apply (.insert 3 "x") "a:\nb;\n" = "a:\nxb;\n" ∧ Text.lineStart "a:\nxb;\n" 3 = 3 ∧
      (∃ frame, OpenAt bodies "a:\nxb;\n".toList 3 [frame] ∧ frame.name = some "body" ∧
        frame.level = 0 ∧ frame.start = 3) ∧
      (bodies.scopes "a:\nxb;\n").toList = [(0, .plain "body" ⟨3, 5⟩)] ∧
      ((ofText bodies "a:\nb;\n").edit (.insert 3 "x")).2.store.toList =
        [(0, .plain "body" ⟨4, 5⟩)] := by
  refine ⟨Engine.looking_bounded,
    faithful_ofText _ _, by decide_cbv, by decide_cbv, by decide_cbv,
    by decide_cbv, ?_, by decide_cbv, by decide_cbv⟩
  -- The frame that is open at 3, and the cut of the text at which it is.
  refine ⟨⟨⟨"source.regions", 1⟩, some "body", .look "(?=;)", 3, 0⟩,
    ⟨"a:\n".toList, "xb;\n".toList, by decide_cbv,
    .inl (.inr (by decide_cbv)), by decide_cbv, ?_⟩, rfl, rfl, rfl⟩
  cbv

end Document

end TextScopes
