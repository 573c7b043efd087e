import TextScopes.Proofs.Document.Marks
import TextScopes.Proofs.Tokenizer.Crossing
import TextScopes.Proofs.Tokenizer.Forest

/-!
# What an edit leaves of what is noted

An edit puts characters in the place of others behind some whole lines (`Edit.Replaces`). What is
noted up to the end of these lines are the regions that are open there, moved as the edit moves
offsets (`Document.of_moveMarks_before`). In front of that end no region is moved, and what is noted
is right of the edited text (`Document.openAt_of_moveMarks_before`); at the end itself a region may
have begun where the edit puts characters in, and is moved then. What comes to lie behind the edit
names the regions that were open at the same place of the text before
(`Document.of_moveMarks_behind`): it is right of the edited text from a place on if it is right at
that place (`Document.openAt_of_moveMarks_behind`).
-/

namespace TextScopes

namespace Edit

/-- The edit puts `new` in the place of `old` behind whole lines. -/
structure Replaces (edit : Edit) (front old new : List Char) : Prop where
  ended : Text.Ended front
  le_start : Text.byteCount front ≤ edit.start
  start_le : edit.start ≤ edit.stopBefore
  stopBefore : edit.stopBefore = Text.byteCount (front ++ old)
  stopAfter : edit.stopAfter = Text.byteCount (front ++ new)

variable {edit : Edit} {front old new tail mid : List Char}

/-- An edit that fits a text replaces some characters of it behind the start of the line of the
edit. -/
theorem exists_replaces {text : String} (h : edit.fits text = true) :
    ∃ front old new tail, text = String.ofList (front ++ old ++ tail) ∧
      edit.apply text = String.ofList (front ++ new ++ tail) ∧
      Text.lineStart (edit.apply text) edit.start = Text.byteCount front ∧
      edit.Replaces front old new := by
  obtain ⟨before, taken, put, after, htext, happly, hstart, hbefore, hafter⟩ := exists_parts h
  obtain ⟨front, head, rfl, hended, hline⟩ := Text.lineStart_byteCount before (put ++ after)
  -- The whole lines in front of the edit, and what follows them before it and behind.
  refine ⟨front, head ++ taken, head ++ put, after, ?_, ?_, ?_, hended, ?_,
    start_le_stopBefore h, ?_, ?_⟩
  · rw [htext, List.append_assoc front]
  · rw [happly, List.append_assoc front]
  · rw [happly, hstart, List.append_assoc (front ++ head), hline]
  · rw [hstart, Text.byteCount_append]
    exact Nat.le_add_right _ _
  · rw [hbefore, List.append_assoc]
  · rw [hafter, List.append_assoc]

namespace Replaces

/-- Behind an edit the text moves as a whole. -/
theorem carries (h : edit.Replaces front old new) (hmid : mid ≠ []) :
    Carries edit.shift (Text.byteCount (front ++ old ++ mid))
      (Text.byteCount (front ++ new ++ mid)) := by
  have hbyte : Text.byteCount mid ≠ 0 := mt Text.eq_nil_of_byteCount hmid
  have hbefore := h.stopBefore
  have hafter := h.stopAfter
  have h1 := Text.byteCount_append (front ++ old) mid
  have h2 := Text.byteCount_append (front ++ new) mid
  have hbehind : edit.stopBefore < Text.byteCount (front ++ old ++ mid) := by omega
  -- What moves behind the edit moves by the bytes that it adds or takes.
  have hmoved := shift_behind h.start_le hbehind
  have htarget : edit.shift (Text.byteCount (front ++ old ++ mid)) =
      Text.byteCount (front ++ new ++ mid) := by omega
  rw [← htarget]
  exact shift_eq_iff h.start_le hbehind

/-- What stops in a text stops in the edited text. -/
theorem shiftStop_le (h : edit.Replaces front old new) (tail : List Char) :
    edit.shiftStop (Text.byteCount (front ++ old ++ tail)) ≤
      Text.byteCount (front ++ new ++ tail) :=
  shiftStop_append_le h.start_le h.stopBefore h.stopAfter tail

end Replaces

end Edit

variable {E : Engine} {t : Tokenizer E} {edit : Edit} {front old new tail mid : List Char}

/-- Moving regions leaves them as they are just if it leaves the start of each. -/
theorem Frames.map_shift_eq_iff {shift : Nat → Nat} {frames : Frames E} :
    frames.map (Frame.shift shift) = frames ↔
    ∀ frame ∈ frames, shift frame.start = frame.start := by
  induction frames with
  | nil => simp
  | cons frame outer ih =>
    rw [List.map_cons, List.cons.injEq, ih, List.forall_mem_cons]
    refine and_congr_left fun _ => ⟨congrArg Frame.start, fun h => ?_⟩
    rw [Frame.shift, h]

/-- An edit behind a place leaves as many regions that started before it. -/
theorem Frames.countP_map_shift {place : Nat} (hplace : place ≤ edit.start) (frames : Frames E) :
    (frames.map (Frame.shift edit.shift)).countP (·.start < place) =
      frames.countP (·.start < place) := by
  rw [List.countP_map]
  refine List.countP_congr fun frame _ => ?_
  -- No region is carried over the place.
  have hiff : edit.shift frame.start < place ↔ frame.start < place := by
    rcases Nat.lt_or_ge frame.start place with hlt | hge
    · rw [Edit.shift_before (by omega)]
    · have := Edit.le_shift hplace hge
      omega
  rw [Function.comp_apply, decide_eq_true_iff, decide_eq_true_iff]
  exact hiff

namespace Document

variable {marks : Table Nat (Frames E)} {offset : Nat} {frames : Frames E}

/-- What is noted of the edited text up to the start of the line of the edit are the regions that
are open there, moved as the edit moves offsets. -/
theorem of_moveMarks_before (hedit : edit.Replaces front old new)
    (hmarks : Noted t (front ++ old ++ tail) marks)
    (h : (moveMarks edit marks).find? offset = some frames)
    (hle : offset ≤ Text.byteCount front) :
    ∃ first more, front = first ++ more ∧ Text.Ended first ∧ Text.byteCount first = offset ∧
      frames = (t.stretch 0 first []).2.map (Frame.shift edit.shift) := by
  obtain ⟨before, found, hfind, hmove, rfl⟩ := of_moveMarks h
  obtain rfl := eq_of_moveLine? hedit.start_le hmove (Nat.le_trans hle hedit.le_start)
  -- The note does not move, and was right about the text before.
  obtain ⟨first, rest, hcut, hended, rfl, rfl⟩ := hmarks _ _ hfind
  rw [List.append_assoc] at hcut
  obtain ⟨more, rfl, rfl⟩ := Text.exists_append_of_le hcut.symm hle
  -- A note at the end of the text lies where the whole lines end, if it lies among them.
  have hfirst : Text.Ended first := by
    rcases hended with hended | hnil
    · exact hended
    · obtain ⟨rfl, -⟩ := List.append_eq_nil_iff.1 hnil
      rw [← List.append_nil first]
      exact hedit.ended
  exact ⟨first, more, rfl, hfirst, rfl, rfl⟩

/-- What is noted of the edited text behind the edit are the regions that were open at the same
place of the text before. -/
theorem of_moveMarks_behind (hedit : edit.Replaces front old new)
    (hmarks : Noted t (front ++ old ++ tail) marks)
    (h : (moveMarks edit marks).find? offset = some frames) (hlt : edit.stopAfter < offset) :
    ∃ mid rest, tail = mid ++ rest ∧ mid ≠ [] ∧ (mid.getLast? = some '\n' ∨ rest = []) ∧
      offset = Text.byteCount (front ++ new ++ mid) ∧
      frames = (t.stretch 0 (front ++ old ++ mid) []).2.map (Frame.shift edit.shift) := by
  obtain ⟨before, found, hfind, hmove, rfl⟩ := of_moveMarks h
  obtain ⟨hbehind, rfl⟩ := stopBefore_lt_of_moveLine? hedit.start_le hmove hlt
  -- The note moves with the text behind the edit, which is the same as before.
  obtain ⟨first, rest, hcut, hended, rfl, rfl⟩ := hmarks _ _ hfind
  rw [hedit.stopBefore] at hbehind
  obtain ⟨mid, rfl, rfl⟩ := Text.exists_append_of_le hcut (Nat.le_of_lt hbehind)
  have hmid : mid ≠ [] := by
    rintro rfl
    rw [List.append_nil] at hbehind
    exact Nat.lt_irrefl _ hbehind
  exact ⟨mid, rest, rfl, hmid, hended.imp_left (·.getLast? hmid),
    (hedit.carries hmid).apply 0, rfl⟩

/-- What is noted of the edited text at the start of the line of the edit are the regions that are
open there, moved as the edit moves offsets. -/
theorem eq_of_moveMarks_at (hedit : edit.Replaces front old new)
    (hmarks : Noted t (front ++ old ++ tail) marks)
    (h : (moveMarks edit marks).find? (Text.byteCount front) = some frames) :
    frames = (t.stretch 0 front []).2.map (Frame.shift edit.shift) := by
  obtain ⟨first, more, hfront, -, hcount, rfl⟩ :=
    of_moveMarks_before hedit hmarks h (Nat.le_refl _)
  obtain ⟨rfl, -⟩ := Text.append_inj_of_count ((List.append_nil front).trans hfront) hcount.symm
  rfl

/-- What is noted of the edited text in front of the line of the edit is right. -/
theorem openAt_of_moveMarks_before (hE : E.Bounded) (hedit : edit.Replaces front old new)
    (hmarks : Noted t (front ++ old ++ tail) marks)
    (h : (moveMarks edit marks).find? offset = some frames) (hlt : offset < Text.byteCount front)
    (rest : List Char) : OpenAt t (front ++ rest) offset frames := by
  obtain ⟨first, more, rfl, hended, rfl, rfl⟩ :=
    of_moveMarks_before hedit hmarks h (Nat.le_of_lt hlt)
  refine ⟨first, more ++ rest, List.append_assoc _ _ _, .inl hended, rfl, ?_⟩
  -- The regions that are open there started there at the latest, and so before the edit.
  refine (Frames.map_shift_eq_iff.2 fun frame hf => Edit.shift_before ?_).symm
  have := (t.settled_stretch hE first).stacked.start_le frame hf
  have := hedit.le_start
  omega

/-- Where something is noted behind the edit, the characters in front are those that were put in and
some of those behind, and what is noted are the regions that were open there before. -/
theorem exists_mid (hedit : edit.Replaces front old new)
    (hmarks : Noted t (front ++ old ++ tail) marks) {parts rest : List Char}
    (hcs : parts ++ rest = new ++ tail) (hrest : rest ≠ [])
    (hbehind : edit.stopAfter < Text.byteCount (front ++ parts))
    (h : (moveMarks edit marks).find? (Text.byteCount (front ++ parts)) = some frames) :
    ∃ mid, tail = mid ++ rest ∧ parts = new ++ mid ∧ mid.getLast? = some '\n' ∧
      frames = (t.stretch 0 (front ++ old ++ mid) []).2.map (Frame.shift edit.shift) := by
  obtain ⟨mid, rest', rfl, -, hlast, hcount, hsame⟩ :=
    of_moveMarks_behind hedit hmarks h hbehind
  rw [← List.append_assoc] at hcs
  have hread : Text.byteCount parts = Text.byteCount (new ++ mid) := by
    rw [List.append_assoc, Text.byteCount_append, Text.byteCount_append front] at hcount
    omega
  -- Both cuts are at one place, so the parts in front and behind are the same.
  obtain ⟨rfl, rfl⟩ := Text.append_inj_of_count hcs hread
  exact ⟨mid, rfl, rfl, hlast.resolve_right hrest, hsame⟩

/-- What is noted of the edited text from a place on is right if it is right at that place. -/
theorem openAt_of_moveMarks_behind (hedit : edit.Replaces front old new) {rest : List Char}
    (hmarks : Noted t (front ++ old ++ (mid ++ rest)) marks) (hmid : mid.getLast? = some '\n')
    (hsame : (t.stretch 0 (front ++ new ++ mid) []).2 =
      (t.stretch 0 (front ++ old ++ mid) []).2.map (Frame.shift edit.shift))
    (h : (moveMarks edit marks).find? offset = some frames)
    (hle : Text.byteCount (front ++ new ++ mid) ≤ offset) :
    OpenAt t (front ++ new ++ mid ++ rest) offset frames := by
  have hne : mid ≠ [] := by
    rintro rfl
    cases hmid
  have hbyte : Text.byteCount mid ≠ 0 := mt Text.eq_nil_of_byteCount hne
  have hcount := Text.byteCount_append (front ++ new) mid
  have hafter := hedit.stopAfter
  obtain ⟨mid', rest', hcut, -, hended, rfl, rfl⟩ :=
    of_moveMarks_behind hedit hmarks h (by omega)
  have hcount' := Text.byteCount_append (front ++ new) mid'
  -- Behind the place both texts go on alike.
  obtain ⟨more, rfl, rfl⟩ := Text.exists_append_of_le hcut (by omega)
  refine ⟨front ++ new ++ mid ++ more, rest', by rw [List.append_assoc _ more],
    hended.imp_left fun hlast => ?_, by rw [List.append_assoc _ mid], ?_⟩
  · rw [List.append_assoc _ mid]
    exact Text.ended_append _ hlast
  · rw [t.stretch_append (Text.ended_append _ hmid), ← List.append_assoc _ mid,
      t.stretch_append (Text.ended_append _ hmid), hsame, Nat.zero_add, Nat.zero_add]
    exact congrArg Prod.snd (t.stretch_shift (hedit.carries hne) more _)

end Document

end TextScopes
