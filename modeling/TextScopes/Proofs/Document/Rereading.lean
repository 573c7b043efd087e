import TextScopes.Proofs.Document.Merge
import TextScopes.Proofs.Document.Moved
import TextScopes.Proofs.Tokenizer.Forest

/-!
# Reading an edited text again

A document is faithful when it holds the scopes of its text and what is noted at line starts is
right (`Document.Faithful`). After an edit of such a document reading begins anew at the line of the
edit, with the regions that are open there unless the edit moves one of them
(`Document.Faithful.ends`). Nothing is asked of the grammar for what merging then leaves. When the
text is read to its end these are the scopes of the edited text (`Document.merge_late`). When
reading stops early, at a line start where the regions are open that were open there before, the
tokens in front of that place are those of the edited text, and so are those behind it, but for what
lies in the window: that is removed, and no token that was read again puts it back
(`Document.merge_early`).
-/

namespace TextScopes.Document

variable {E : Engine} {t : Tokenizer E} {edit : Edit} {front old new tail mid : List Char}

/-! ### Merging what is read again -/

/-- When the text is read again to its end, merging leaves the scopes of the edited text. -/
theorem merge_late (hE : E.Bounded) (hedit : edit.Replaces front old new)
    (hfits : edit.fits (String.ofList (front ++ old ++ tail)) = true)
    (happly : edit.apply (String.ofList (front ++ old ++ tail)) =
      String.ofList (front ++ new ++ tail)) (changed : Span) :
    (merge ((t.scopes (String.ofList (front ++ old ++ tail))).apply edit)
      ⟨Text.byteCount front, Text.byteCount (front ++ new ++ tail)⟩ changed
      (t.finish (Text.byteCount front) (new ++ tail) (t.stretch 0 front []).2)).1 =
        t.scopes (String.ofList (front ++ new ++ tail)) := by
  -- Both texts are read alike up to the line of the edit.
  have htokens : ∀ cs, t.tokens (String.ofList (front ++ cs ++ tail)) =
      (t.stretch 0 front []).1 ++
      t.finish (Text.byteCount front) (cs ++ tail) (t.stretch 0 front []).2 := by
    intro cs
    rw [List.append_assoc, t.tokens_append hedit.ended]
  -- Both readings close all regions that are open there.
  obtain ⟨_, hold⟩ :=
    t.reread_finish hE (Text.byteCount front) (old ++ tail) (t.stretch 0 front []).2
  obtain ⟨_, hnew⟩ :=
    t.reread_finish hE (Text.byteCount front) (new ++ tail) (t.stretch 0 front []).2
  have hbehind := (t.settled_tokens hE (String.ofList (front ++ old ++ tail))).behind
  have hsettled := (t.settled_tokens hE (String.ofList (front ++ new ++ tail))).fits
  have hscopes := t.holds_scopes hE (String.ofList (front ++ old ++ tail))
  have hscopes' := t.holds_scopes hE (String.ofList (front ++ new ++ tail))
  rw [htokens] at hbehind hsettled hscopes hscopes'
  rw [← List.append_nil ((t.stretch 0 front []).1 ++ _)] at hscopes
  -- The window reaches to the end of the text, and nothing is left behind it.
  have hmerge := holds_merge hfits ⟨Text.byteCount front, Text.byteCount (front ++ new ++ tail)⟩
    changed hscopes hedit.le_start (t.settled_stretch hE front).behind hold.stop
    (fun token ht => ?_) (by simp) (hold.early_eq hnew rfl) (by simpa using hsettled)
  · have hnil : Token.entries (([] : List Token).map (Token.shift edit.shift)) = [] := rfl
    rw [happly, hnil, List.filter_nil, List.append_nil] at hmerge
    exact hmerge.eq hscopes'
  · -- The old tokens lie inside the text before the edit.
    have hstop := hbehind token (List.mem_append_right _ ht)
    rw [Text.utf8ByteSize_ofList] at hstop
    exact Nat.le_trans (edit.shiftStop_mono hstop) (hedit.shiftStop_le tail)

/-- From the start of the text to a place behind the line of an edit is read in two parts. -/
theorem stretch_parts (hfront : Text.Ended front) (cs mid : List Char) :
    t.stretch 0 (front ++ cs ++ mid) [] =
      ((t.stretch 0 front []).1 ++
          (t.stretch (Text.byteCount front) (cs ++ mid) (t.stretch 0 front []).2).1,
        (t.stretch (Text.byteCount front) (cs ++ mid) (t.stretch 0 front []).2).2) := by
  rw [List.append_assoc, t.stretch_append hfront, Nat.zero_add]

/-- A text is read up to the line of an edit, from there to a line start behind it, and on from that
one. -/
theorem tokens_parts (hfront : Text.Ended front) (cs : List Char) (hmid : mid.getLast? = some '\n')
    (rest : List Char) :
    t.tokens (String.ofList (front ++ cs ++ (mid ++ rest))) =
      (t.stretch 0 front []).1 ++
        (t.stretch (Text.byteCount front) (cs ++ mid) (t.stretch 0 front []).2).1 ++
          t.finish (Text.byteCount (front ++ cs ++ mid)) rest
            (t.stretch 0 (front ++ cs ++ mid) []).2 := by
  rw [← List.append_assoc _ mid, t.tokens_append (Text.ended_append _ hmid),
    stretch_parts hfront]

/-- When reading again stops at a line start behind the edit where the same regions are open as were
open there before, merging leaves the scopes of the edited text, but for those behind the line start
that lie in the window. -/
theorem merge_early (hE : E.Bounded) (hedit : edit.Replaces front old new)
    (hmid : mid.getLast? = some '\n') {rest : List Char}
    (hfits : edit.fits (String.ofList (front ++ old ++ (mid ++ rest))) = true)
    (happly : edit.apply (String.ofList (front ++ old ++ (mid ++ rest))) =
      String.ofList (front ++ new ++ (mid ++ rest)))
    (hsame : (t.stretch 0 (front ++ new ++ mid) []).2 =
      (t.stretch 0 (front ++ old ++ mid) []).2.map (Frame.shift edit.shift)) (changed : Span) :
    (merge ((t.scopes (String.ofList (front ++ old ++ (mid ++ rest)))).apply edit)
      ⟨Text.byteCount front, Text.byteCount (front ++ new ++ mid)⟩ changed
      (t.stretch (Text.byteCount front) (new ++ mid) (t.stretch 0 front []).2).1).1.Holds
        (String.ofList (front ++ new ++ (mid ++ rest)))
        (Token.entries (t.stretch 0 (front ++ new ++ mid) []).1 ++
          (Token.entries (t.finish (Text.byteCount (front ++ new ++ mid)) rest
            (t.stretch 0 (front ++ new ++ mid) []).2)).filter fun x =>
              !Span.contains ⟨Text.byteCount front, Text.byteCount (front ++ new ++ mid)⟩
                x.2.span) := by
  have hne : mid ≠ [] := by
    rintro rfl
    cases hmid
  have hcarries := hedit.carries hne
  -- Each text is read up to the line of the edit, from there to the place, and behind it.
  have hread := fun cs => stretch_parts (t := t) hedit.ended cs mid
  have htokens := fun cs => tokens_parts (t := t) hedit.ended cs hmid rest
  obtain ⟨_, hold⟩ :=
    t.reread_stretch hE (Text.byteCount front) (old ++ mid) (t.stretch 0 front []).2
  obtain ⟨_, hnew⟩ :=
    t.reread_stretch hE (Text.byteCount front) (new ++ mid) (t.stretch 0 front []).2
  obtain ⟨_, hback⟩ := t.reread_finish hE (Text.byteCount (front ++ old ++ mid)) rest
    (t.stretch 0 (front ++ old ++ mid) []).2
  -- Both readings leave as many of the regions that are open there.
  have hcount : (t.stretch (Text.byteCount front) (old ++ mid) (t.stretch 0 front []).2).2.countP
      (·.start < Text.byteCount front) =
      (t.stretch (Text.byteCount front) (new ++ mid) (t.stretch 0 front []).2).2.countP
        (·.start < Text.byteCount front) := by
    rw [hread, hread] at hsame
    rw [hsame, Frames.countP_map_shift hedit.le_start]
  have hfinish := t.finish_shift hcarries rest (t.stretch 0 (front ++ old ++ mid) []).2
  have hsettled := t.settled_tokens hE (String.ofList (front ++ new ++ (mid ++ rest)))
  have hscopes := t.holds_scopes hE (String.ofList (front ++ old ++ (mid ++ rest)))
  -- What is behind is read as it was, at the place to which it has moved.
  rw [htokens, hsame, hfinish] at hsettled
  rw [htokens] at hscopes
  have hmerge := holds_merge hfits ⟨Text.byteCount front, Text.byteCount (front ++ new ++ mid)⟩
    changed hscopes hedit.le_start (t.settled_stretch hE front).behind hold.stop
    (fun token ht => ?_) (fun token ht hshown => ?_) (hold.early_eq hnew hcount) hsettled.fits
  · have hfirst : (t.stretch 0 (front ++ new ++ mid) []).1 = (t.stretch 0 front []).1 ++
        (t.stretch (Text.byteCount front) (new ++ mid) (t.stretch 0 front []).2).1 := by rw [hread]
    rwa [happly, ← hfinish, ← hsame, ← hfirst] at hmerge
  · have hstop := (t.settled_stretch hE (front ++ old ++ mid)).behind token
      (by rw [hread]; exact List.mem_append_right _ ht)
    exact Nat.le_trans (edit.shiftStop_mono hstop) (hedit.shiftStop_le mid)
  · -- A token behind the place ends behind the edit, since the place does.
    have hbyte : Text.byteCount mid ≠ 0 := mt Text.eq_nil_of_byteCount hne
    have hstop := hback.le_stop ht hshown
    rw [Text.byteCount_append _ mid, ← hedit.stopBefore] at hstop
    omega

/-! ### Documents that are as if their text had just been read -/

/-- The scopes of the document are those of a text, and the regions that are noted are open
there. -/
structure Faithful (document : Document E) (t : Tokenizer E) (text : String) : Prop where
  tokenizer : document.tokenizer = t
  store : document.store = t.scopes text
  marks : Noted t text.toList document.marks

/-- A document whose text was just read is as if it was. -/
theorem faithful_ofText (t : Tokenizer E) (text : String) : (ofText t text).Faithful t text := by
  refine ⟨rfl, rfl, fun offset frames hfind => ?_⟩
  have hcss : Text.splitLines (Text.splitLines text.toList).flatten =
      Text.splitLines text.toList := by
    rw [Text.flatten_splitLines]
  have hmarks : (markLines t (Text.byteCount ([] ++ (Text.splitLines text.toList).flatten)) .empty
      (Text.placeLines (Text.byteCount []) (Text.splitLines text.toList))
      (t.stretch 0 [] []).2).find? offset = some frames := by
    rw [List.nil_append, Text.flatten_splitLines, ← Text.utf8ByteSize_eq]
    rw [ofText, Text.lines_eq] at hfind
    exact hfind
  -- Nothing was noted before the text was read.
  rcases of_markLines hcss (fun _ => .inl rfl) hmarks with hopen | hempty
  · rwa [List.nil_append, Text.flatten_splitLines] at hopen
  · cases hempty

namespace Faithful

variable {document : Document E} {read : Rescan E}

/-- An edit edits the text of a faithful document. -/
theorem text_apply (hE : E.Bounded) {text : String} (h : document.Faithful t text) (edit : Edit) :
    (document.store.apply edit).text = edit.apply text := by
  rw [Store.text_apply, h.store, (t.holds_scopes hE text).text_eq]

/-- Reading again begins with the regions that are open at the line of the edit, if none of
them is moved, and ends at the end of the text or at a line start where the regions are open
that are noted there. -/
theorem ends (hE : E.Bounded) (h : document.Faithful t (String.ofList (front ++ old ++ tail)))
    (hedit : edit.Replaces front old new)
    (happly : edit.apply (String.ofList (front ++ old ++ tail)) =
      String.ofList (front ++ new ++ tail))
    (hline : Text.lineStart (String.ofList (front ++ new ++ tail)) edit.start =
      Text.byteCount front)
    (hstill : ∀ frame ∈ (t.stretch 0 front []).2, edit.shift frame.start = frame.start)
    (hread : document.reread? edit = some read) :
    Ends t edit.stopAfter (moveMarks edit document.marks) front (new ++ tail) read := by
  -- Reading begins with what is noted at the line, which is what is open there.
  obtain ⟨frames, hfind, rfl⟩ := Option.map_eq_some_iff.1 hread
  have hmarks := h.marks
  rw [String.toList_ofList] at hmarks
  rw [h.text_apply hE, happly, hline] at hfind ⊢
  obtain rfl := eq_of_moveMarks_at hedit hmarks hfind
  rw [Frames.map_shift_eq_iff.2 hstill, h.tokenizer, List.append_assoc]
  exact rescanFrom_ends t edit.stopAfter hedit.ended (new ++ tail) (moveMarks edit document.marks)

/-- The store of an edited document is what merging leaves. -/
theorem store_edit (hE : E.Bounded) (h : document.Faithful t (String.ofList (front ++ old ++ tail)))
    (happly : edit.apply (String.ofList (front ++ old ++ tail)) =
      String.ofList (front ++ new ++ tail))
    (hline : Text.lineStart (String.ofList (front ++ new ++ tail)) edit.start =
      Text.byteCount front)
    (hread : document.reread? edit = some read) :
    (document.edit edit).2.store =
      (merge ((t.scopes (String.ofList (front ++ old ++ tail))).apply edit)
        ⟨Text.byteCount front, read.stop.getD (Text.byteCount (front ++ new ++ tail))⟩
        ⟨edit.start, edit.stopAfter⟩ read.tokens).1 := by
  rw [edit_of_reread? hread]
  dsimp only
  rw [window, Store.length, h.text_apply hE, happly, hline, Text.utf8ByteSize_ofList, h.store]

end Faithful

end TextScopes.Document
