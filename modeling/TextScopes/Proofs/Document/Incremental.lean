import TextScopes.Proofs.Document.Rereading
import TextScopes.Proofs.Grammar.Words

/-!
# A document that is edited is what reading its text gives

After any edits that fit, a document holds the scopes that reading the text from its start would
give (`Document.store_eq_scopes`), for grammars that cut cleanly at line starts.

The invariant is `Faithful`: the scopes are those of the text, and what is noted at line starts
is right. An edit keeps it. Before the line of the edit nothing changes. A region that is open
there began before it, so that the edit does not move it, and reading again begins with the
regions that are open. Where it stops early, what is behind stops behind that place, so that
nothing of it lies in the window. So the tokens that are kept, those that are read again and
those that are moved are together the tokens of the edited text, and two stores that hold the
scopes of the same tokens are the same.
-/

namespace TextScopes

/-- No region of `brackets` is opened or closed by an empty match. -/
theorem Grammar.brackets_cuts : brackets.OpensInside ∧ brackets.ClosesInside := by
  constructor
  · rintro id opening closing _ _ _ hkind content pos found - - - hfound
    obtain ⟨rfl, -⟩ := brackets_region hkind
    exact Expression.span_ne_of_word ['<'] (by decide) (by decide) hfound _
  · rintro e ⟨id, opening, closing, _, _, _, content, pos, found, hkind, -, -, -, rfl⟩
      other found' -
      hfound
    obtain ⟨-, rfl⟩ := brackets_region hkind
    exact Expression.span_ne_of_word ['>'] (by decide) (by decide) hfound 0

namespace Document

variable {E : Engine} {t : Tokenizer E} {edit : Edit} {front old new tail mid : List Char}
  {marks : Table Nat (Frames E)}

/-! ### Edits -/

/-- When regions are closed inside lines, merging leaves the scopes of the edited text also where
reading again stops early. -/
theorem merge_early_eq (hE : E.Bounded) (hclose : t.grammar.ClosesInside)
    (hedit : edit.Replaces front old new) (hmid : mid.getLast? = some '\n') {rest : List Char}
    (hrest : rest ≠ []) (hfits : edit.fits (String.ofList (front ++ old ++ (mid ++ rest))) = true)
    (happly : edit.apply (String.ofList (front ++ old ++ (mid ++ rest))) =
      String.ofList (front ++ new ++ (mid ++ rest)))
    (hsame : (t.stretch 0 (front ++ new ++ mid) []).2 =
      (t.stretch 0 (front ++ old ++ mid) []).2.map (Frame.shift edit.shift)) (changed : Span) :
    (merge ((t.scopes (String.ofList (front ++ old ++ (mid ++ rest)))).apply edit)
      ⟨Text.byteCount front, Text.byteCount (front ++ new ++ mid)⟩ changed
      (t.stretch (Text.byteCount front) (new ++ mid) (t.stretch 0 front []).2).1).1 =
        t.scopes (String.ofList (front ++ new ++ (mid ++ rest))) := by
  have hmerge := merge_early hE hedit hmid hfits happly hsame changed
  have hcan : ∀ frame ∈ (t.stretch 0 (front ++ new ++ mid) []).2,
      t.grammar.CanClose frame.closing := Tokenizer.canClose_of_stretch hE (by simp)
  -- No token behind the place lies in the window.
  rw [List.filter_eq_self.2 fun x hx => ?_] at hmerge
  · have hscopes := t.holds_scopes_append hE (Text.ended_append (front ++ new) hmid) rest
    rw [List.append_assoc _ mid] at hscopes
    exact hmerge.eq hscopes
  · obtain ⟨token, ht, hshown, rfl⟩ := Token.mem_entries.1 hx
    have hstop := Tokenizer.lt_stop_of_finish hE hclose hrest hcan token ht hshown
    rw [Bool.not_eq_true', ← Bool.not_eq_true, Span.contains_iff]
    exact fun hin => Nat.not_le_of_lt hstop hin.2

/-- An edit that moves no region which is open at its line leaves a document as if the edited text
had just been read, when regions are closed inside lines. -/
theorem faithful_reread (hE : E.Bounded) (hclose : t.grammar.ClosesInside) {document : Document E}
    (h : document.Faithful t (String.ofList (front ++ old ++ tail)))
    (hedit : edit.Replaces front old new)
    (hfits : edit.fits (String.ofList (front ++ old ++ tail)) = true)
    (happly : edit.apply (String.ofList (front ++ old ++ tail)) =
      String.ofList (front ++ new ++ tail))
    (hline : Text.lineStart (String.ofList (front ++ new ++ tail)) edit.start =
      Text.byteCount front)
    (hstill : ∀ frame ∈ (t.stretch 0 front []).2, edit.shift frame.start = frame.start)
    {read : Rescan E} (hread : document.reread? edit = some read) :
    (document.edit edit).2.Faithful t (String.ofList (front ++ new ++ tail)) := by
  have hstore := h.store_edit hE happly hline hread
  have htokenizer : (document.edit edit).2.tokenizer = t := by
    rw [edit_of_reread? hread, h.tokenizer]
  have hnoted : (document.edit edit).2.marks = read.marks := by rw [edit_of_reread? hread]
  have hmarks := h.marks
  rw [String.toList_ofList] at hmarks
  have hends := h.ends hE hedit happly hline hstill hread
  generalize hcs : new ++ tail = cs at hends
  -- Reading goes on to the end of the text, or stops where nothing has changed.
  cases hends with
  | late stop tokens noted =>
    subst hcs
    refine ⟨htokenizer, ?_, fun offset frames hfind => ?_⟩
    · rw [hstore, stop, tokens]
      exact merge_late hE hedit hfits happly _
    · rw [hnoted] at hfind
      rw [String.toList_ofList, List.append_assoc]
      -- A note is one of the lines that were read, or one before them that stayed.
      rcases noted offset frames hfind with hright | ⟨hmoved, hlt⟩
      · exact hright
      · exact openAt_of_moveMarks_before hE hedit hmarks hmoved hlt _
  | early rest ended behind stop mark tokens noted =>
    -- What is noted where reading stops comes from the same place of the text before.
    obtain ⟨mid, rfl, rfl, hmid, hsame⟩ := exists_mid hedit hmarks hcs.symm rest behind mark
    rw [← List.append_assoc] at hsame stop
    refine ⟨htokenizer, ?_, fun offset frames hfind => ?_⟩
    · rw [hstore, stop, tokens, Option.getD_some]
      exact merge_early_eq hE hclose hedit hmid rest hfits happly hsame _
    · rw [hnoted] at hfind
      rw [String.toList_ofList, ← List.append_assoc]
      -- A note behind the stop has moved with the text there.
      rcases noted offset frames hfind with hright | ⟨hmoved, hlt | hle⟩
      · rwa [← List.append_assoc] at hright
      · rw [List.append_assoc, List.append_assoc]
        exact openAt_of_moveMarks_before hE hedit hmarks hmoved hlt _
      · rw [← List.append_assoc] at hle
        exact openAt_of_moveMarks_behind hedit hmarks hmid hsame hmoved hle

/-- An edit leaves a document as if the edited text had just been read. -/
theorem faithful_edit (hE : E.Bounded) (hopen : t.grammar.OpensInside)
    (hclose : t.grammar.ClosesInside) {document : Document E} {text : String}
    (h : document.Faithful t text) (hfits : edit.fits text = true) :
    (document.edit edit).2.Faithful t (edit.apply text) := by
  obtain ⟨front, old, new, tail, rfl, happly, hline, hedit⟩ := Edit.exists_replaces hfits
  cases hread : document.reread? edit with
  | none =>
    -- With nothing noted at the line the text is read as a whole.
    rw [edit_of_reread?_eq_none hread, h.text_apply hE, h.tokenizer]
    exact faithful_ofText t _
  | some read =>
    rw [happly] at hline ⊢
    refine faithful_reread hE hclose h hedit hfits happly hline (fun frame hf => ?_) hread
    -- A region that is open at the line began before it.
    have := Tokenizer.start_lt_of_stretch hE hopen hedit.ended frame hf
    have := hedit.le_start
    exact Edit.shift_before (by omega)

/-! ### Runs of edits -/

/-- A document that a text was read into, that was edited where edits fit, and that other texts were
read into, with the text that it should hold then. -/
inductive Reached (t : Tokenizer E) : Document E → String → Prop
  | ofText (text : String) : Reached t (ofText t text) text
  | edit {document : Document E} {text : String} {edit : Edit} (before : Reached t document text)
    (fits : edit.fits text = true) : Reached t (document.edit edit).2 (edit.apply text)
  | replace {document : Document E} {text : String} (before : Reached t document text)
    (other : String) : Reached t (document.replace other).2 other

/-- A document stays as if its text had just been read. -/
theorem Reached.faithful (hE : E.Bounded) (hopen : t.grammar.OpensInside)
    (hclose : t.grammar.ClosesInside) {document : Document E} {text : String}
    (h : Reached t document text) : document.Faithful t text := by
  induction h with
  | ofText text => exact faithful_ofText t text
  | edit _ fits ih => exact faithful_edit hE hopen hclose ih fits
  | replace _ other ih =>
    unfold Document.replace
    rw [ih.tokenizer]
    exact faithful_ofText t other

/-- However a document was edited, it holds its text with the scopes that reading that text gives,
each on the same level and in the same order, and `check` finds no flaw in them. -/
theorem store_eq_scopes (hE : E.Bounded) (hopen : t.grammar.OpensInside)
    (hclose : t.grammar.ClosesInside) {document : Document E} {text : String}
    (h : Reached t document text) :
    document.text = text ∧ document.store = t.scopes text ∧ document.store.check = none := by
  have hstore := (h.faithful hE hopen hclose).store
  have htext := (t.holds_scopes hE text).text_eq
  refine ⟨?_, hstore, ?_⟩
  · rw [Document.text, hstore, htext]
  · rw [hstore]
    exact Store.check_eq_none_iff.2 (t.isForest_scopes hE text)

/-- A mark is put into the first line of two regions, and the inner region is then no longer
opened. -/
theorem store_eq_scopes_brackets :
    Engine.literal.Bounded ∧ Grammar.brackets.OpensInside ∧ Grammar.brackets.ClosesInside ∧
      Reached ⟨Grammar.brackets, 80⟩ (((ofText ⟨Grammar.brackets, 80⟩ "<x\n<x>\n>").edit
        (.insert 1 "x")).2.edit (.delete ⟨4, 5⟩)).2 "<xx\nx>\n>" ∧
      (((ofText ⟨Grammar.brackets, 80⟩ "<x\n<x>\n>").edit (.insert 1 "x")).2.edit
        (.delete ⟨4, 5⟩)).2.store = Tokenizer.scopes ⟨Grammar.brackets, 80⟩
          "<xx\nx>\n>" := by
  have happly : Edit.apply (.delete ⟨4, 5⟩) (Edit.apply (.insert 1 "x") "<x\n<x>\n>") =
      "<xx\nx>\n>" := by
    decide +kernel
  have hreached : Reached ⟨Grammar.brackets, 80⟩
      (((ofText ⟨Grammar.brackets, 80⟩ "<x\n<x>\n>").edit
      (.insert 1 "x")).2.edit (.delete ⟨4, 5⟩)).2
      (Edit.apply (.delete ⟨4, 5⟩) (Edit.apply (.insert 1 "x") "<x\n<x>\n>")) :=
    ((Reached.ofText _).edit (by decide +kernel)).edit (by decide +kernel)
  rw [happly] at hreached
  -- The brackets are words, which neither look back nor match nothing.
  obtain ⟨hopen, hclose⟩ := Grammar.brackets_cuts
  exact ⟨Engine.literal_bounded, hopen, hclose, hreached,
    (store_eq_scopes Engine.literal_bounded hopen hclose hreached).2.1⟩

end Document

end TextScopes
