import Mathlib
import TextScopes.Proofs.Document.Places
import TextScopes.Proofs.Store.Sound
import TextScopes.Proofs.Tokenizer.Inside
import TextScopes.Theme.Basic

/-!
# What an edit reports as changed

An edit answers a span of the edited text, and outside it no scope has changed: the scopes that do
not lie within the span are those that the edit of the text alone leaves, on the same levels and
with the same attributes (`Document.outside_changed`). That holds of every document, also when its
scopes are not those that reading its text gives, since the store can be changed at will between the
edits (`Document.InUse`).

The invariant is `Document.Tracks`. Merging what is read again is done in three rounds: scopes
inside the window are removed, those of regions that began before it are, and the new ones are
put in. Each widens the span by the scopes that it takes or puts, and a scope that is put on
another level than asked for widens it as well. So the stores before and after a round agree
outside the widened span.
-/

namespace TextScopes

/-- A span that lies within another lies within what that lies within. -/
theorem Span.contains_trans {a b c : Span} (hab : a.contains b = true) (hbc : b.contains c = true) :
    a.contains c = true := by
  rw [contains_iff] at hab hbc ⊢
  omega

/-- Attaching attributes of a theme keeps every scope on its text. -/
theorem Store.Change.annotate (theme : Theme) (store : Store) :
    store.Change (theme.annotate store) := by
  refine .relabel rfl rfl ?_
  simp [Theme.annotate, Store.map, Function.comp_def]

namespace Store

variable {store store' : Store} {span wider : Span}

/-- What lies outside a wider span is what of the rest lies outside it. -/
theorem outside_eq_filter (h : wider.contains span = true) :
    store.outside wider = (store.outside span).filter fun x => !wider.contains x.2.span := by
  rw [outside, outside, List.filter_filter]
  refine List.filter_congr fun x _ => ?_
  have hin : span.contains x.2.span = true → wider.contains x.2.span = true :=
    Span.contains_trans h
  cases hspan : span.contains x.2.span with
  | false => simp
  | true => simp [hin hspan]

/-- Stores that agree outside a span agree outside a wider one. -/
theorem outside_perm_of_contains (hperm : (store.outside span).Perm (store'.outside span))
    (h : wider.contains span = true) : (store.outside wider).Perm (store'.outside wider) := by
  rw [outside_eq_filter h, outside_eq_filter h]
  exact hperm.filter _

/-- Entries within a span make no difference outside it. -/
theorem outside_perm_of_append {added : List (Nat × Scope)}
    (hperm : store'.toList.Perm (added ++ store.toList))
    (hin : ∀ x ∈ added, span.contains x.2.span = true) :
    (store'.outside span).Perm (store.outside span) := by
  have hnone : added.filter (fun x => !span.contains x.2.span) = [] :=
    List.filter_eq_nil_iff.2 fun x hx => by simp [hin x hx]
  have hfilter := hperm.filter fun x => !span.contains x.2.span
  rwa [List.filter_append, hnone, List.nil_append] at hfilter

end Store

namespace Document

variable {E : Engine} {t : Tokenizer E}

/-! ### Spans that are widened -/

/-- The first of two spans lies within what covers both. -/
theorem contains_cover_left (a b : Span) : (cover a b).contains a = true :=
  (Span.contains_iff _ _).2 ⟨Nat.min_le_left _ _, Nat.le_max_left _ _⟩

/-- The second of two spans lies within what covers both. -/
theorem contains_cover_right (a b : Span) : (cover a b).contains b = true :=
  (Span.contains_iff _ _).2 ⟨Nat.min_le_right _ _, Nat.le_max_right _ _⟩

/-- A span that is widened by some scopes covers them and itself, and stops with one of them. -/
theorem foldl_cover (scopes : List Scope) (span : Span) :
    (scopes.foldl (fun span scope => cover span scope.span) span).contains span = true ∧
      (∀ scope ∈ scopes,
        (scopes.foldl (fun span scope => cover span scope.span) span).contains
          scope.span = true) ∧
      ∀ bound, span.stop ≤ bound → (∀ scope ∈ scopes, scope.span.stop ≤ bound) →
        (scopes.foldl (fun span scope => cover span scope.span) span).stop ≤ bound := by
  -- The span only grows, so what is covered once stays covered.
  induction scopes generalizing span with
  | nil => simp [Span.contains]
  | cons scope scopes ih =>
    obtain ⟨hspan, hscopes, hstop⟩ := ih (cover span scope.span)
    refine ⟨Span.contains_trans hspan (contains_cover_left _ _), List.forall_mem_cons.2
      ⟨Span.contains_trans hspan (contains_cover_right _ _), hscopes⟩,
        fun bound h hbound => ?_⟩
    obtain ⟨hfirst, hrest⟩ := List.forall_mem_cons.1 hbound
    exact hstop bound (Nat.max_le.2 ⟨h, hfirst⟩) hrest

/-! ### Merging -/

/-- What holds between a store that is changed and the span that is reported: the span
covers `edited` and lies inside the text, and outside it the store is the one that the
changes began with. -/
structure Tracks (base : Store) (edited : Span) (state : Store × Span) : Prop where
  sound : state.1.Sound
  text_eq : state.1.text = base.text
  outside : (state.1.outside state.2).Perm (base.outside state.2)
  start_le : state.2.start ≤ edited.start
  le_stop : edited.stop ≤ state.2.stop
  stop_le : state.2.stop ≤ base.length

namespace Tracks

variable {base store store' : Store} {edited changed changed' : Span} {state : Store × Span}

/-- At first nothing has changed. -/
theorem start (hsound : base.Sound) (hstop : edited.stop ≤ base.length) :
    Tracks base edited (base, edited) :=
  ⟨hsound, rfl, .refl _, Nat.le_refl _, Nat.le_refl _, hstop⟩

/-- A store is changed within a wider span. -/
theorem widen (h : Tracks base edited (store, changed)) (hsound : store'.Sound)
    (htext : store'.text = store.text) (hwide : changed'.contains changed = true)
    (hstop : changed'.stop ≤ base.length)
    (hsame : (store'.outside changed').Perm (store.outside changed')) :
    Tracks base edited (store', changed') := by
  have hends := (Span.contains_iff _ _).1 hwide
  exact ⟨hsound, htext.trans h.text_eq,
    hsame.trans (Store.outside_perm_of_contains h.outside hwide),
    Nat.le_trans hends.1 h.start_le, Nat.le_trans h.le_stop hends.2, hstop⟩

/-- Scopes of the store stop inside the text that the changes began with. -/
theorem stop_le_of_mem (h : Tracks base edited state) {x : Nat × Scope}
    (hx : x ∈ state.1.toList) :
    x.2.span.stop ≤ base.length := by
  have hstop := h.sound.inside x hx
  rwa [Store.length, h.text_eq] at hstop

/-- The scopes inside a span are removed. -/
theorem removeScopes (h : Tracks base edited (store, changed)) (window : Span) :
    Tracks base edited ((store.removeScopes window).2,
      (store.removeScopes window).1.foldl (fun span scope => cover span scope.span) changed) := by
  have hsound := h.sound
  obtain ⟨hwide, hin, hstop⟩ := foldl_cover (store.removeScopes window).1 changed
  -- What is removed was in the store, and so lies inside the text.
  refine h.widen (hsound.removeScopes window) rfl hwide (hstop _ h.stop_le fun scope hs => ?_) ?_
  · obtain ⟨-, level, hl, hmem⟩ := (Store.mem_removeScopes hsound.ordered).1 hs
    obtain ⟨n, hn⟩ := Store.exists_mem_toList hl hmem
    exact h.stop_le_of_mem hn
  · -- A scope that is gone is one of those that are covered.
    rw [Store.outside, hsound.toList_removeScopes, Store.outside, List.filter_filter]
    refine .of_eq (List.filter_congr fun x hx => ?_)
    obtain ⟨level, hl, hmem⟩ := Store.exists_level hx
    cases hwindow : window.contains x.2.span with
    | false => simp
    | true =>
      rw [hin x.2 ((Store.mem_removeScopes hsound.ordered).2 ⟨hwindow, level, hl, hmem⟩)]
      rfl

/-- The scope of a region that began before is taken out. -/
theorem dropOld (h : Tracks base edited state) (start : Nat) (token : Token) :
    Tracks base edited (dropOld start state token) := by
  obtain ⟨store, changed⟩ := state
  unfold Document.dropOld
  split
  · split
    · next old store' hremove =>
      -- The old scope is taken out, and the span covers it.
      obtain ⟨hsound', hperm⟩ := Store.Sound.removeAt? h.sound hremove
      have hold : old.span.stop ≤ base.length :=
        h.stop_le_of_mem (hperm.mem_iff.2 List.mem_cons_self)
      refine h.widen hsound' ?_ (contains_cover_left _ _) (Nat.max_le.2 ⟨h.stop_le, hold⟩) ?_
      · obtain ⟨_, _, -, -, rfl⟩ := Store.removeAt?_eq_some_iff.1 hremove
        rfl
      · have hperm : store.toList.Perm ([(token.level, old)] ++ store'.toList) := hperm
        exact (Store.outside_perm_of_append hperm (by simp [contains_cover_right])).symm
    · -- There is no scope at the place, and so nothing is changed.
      exact h
  · exact h

/-- The scope of a token inside the text is put in, on whatever level. -/
theorem addNew (h : Tracks base edited state) {token : Token}
    (htoken : token.span.stop ≤ base.length) :
    Tracks base edited (addNew state token) := by
  obtain ⟨store, changed⟩ := state
  -- An empty scope is not stored, so that its place does not matter.
  have hlength : token.scope.span.isEmpty = false → token.scope.span.stop ≤ store.length := by
    intro _
    rw [Store.length, h.text_eq]
    exact htoken
  obtain ⟨hsound', added, hadded, hperm⟩ := Store.Sound.add h.sound token.level hlength
  refine h.widen hsound' ?_ (contains_cover_left _ _) (Nat.max_le.2 ⟨h.stop_le, htoken⟩) ?_
  · exact text_foldl_addToken [token] store
  · -- The scope stands on some level, and is covered on each.
    refine Store.outside_perm_of_append hperm fun x hx => ?_
    rw [hadded x hx]
    exact contains_cover_right _ _

/-- Tokens inside the text are merged in. -/
theorem merge (hsound : base.Sound) (hedited : edited.stop ≤ base.length) (window : Span)
    {tokens : List Token} (htokens : ∀ token ∈ tokens, token.span.stop ≤ base.length) :
    Tracks base edited (merge base window edited tokens) := by
  have hremoved := (start hsound hedited).removeScopes window
  have hdropped : Tracks base edited (tokens.foldl (Document.dropOld window.start) _) :=
    tokens.foldlRecOn _ hremoved fun state h token _ => h.dropOld window.start token
  exact tokens.foldlRecOn _ hdropped fun state h token ht => h.addNew (htokens token ht)

/-- All of the text is reported, whatever store takes the place of the one before. -/
theorem whole (hsound : base.Sound) (hedited : edited.stop ≤ base.length) (hnew : store.Sound)
    (htext : store.text = base.text) : Tracks base edited (store, ⟨0, store.length⟩) := by
  have hlength : store.length = base.length := congrArg String.utf8ByteSize htext
  refine ⟨hnew, htext, ?_, Nat.zero_le _, hlength ▸ hedited, Nat.le_of_eq hlength⟩
  dsimp only
  rw [hnew.outside_length, hlength, hsound.outside_length]

end Tracks

/-! ### Tokens that are read again -/

/-- The tokens of lines that are read again stop inside what holds the lines. -/
theorem stop_le_of_rescan (hE : E.Inside) (t : Tokenizer E) (settled : Nat) {stop : Nat}
    {lines : List Text.Line} (hlines : ∀ line ∈ lines, line.stop ≤ stop) (frames : Frames E)
    (marks : Table Nat (Frames E)) :
    ∀ token ∈ (rescan t settled lines frames marks).tokens, token.span.stop ≤ stop := by
  induction lines generalizing frames marks with
  | nil => simp [rescan]
  | cons line rest ih =>
    obtain ⟨hline, hrest⟩ := List.forall_mem_cons.1 hlines
    unfold rescan
    split
    · -- Reading stops before the line.
      simp
    · refine List.forall_mem_append.2 ⟨fun token ht => ?_, ih hrest _ _⟩
      exact Nat.le_trans (t.stop_le_of_line hE line frames token ht) hline

/-- The tokens of a text that is read again stop inside it. -/
theorem stop_le_of_rescanFrom (hE : E.Inside) (t : Tokenizer E) (text : String)
    (settled start : Nat) (frames : Frames E) (marks : Table Nat (Frames E)) :
    ∀ token ∈ (rescanFrom t text settled start frames marks).tokens,
      token.span.stop ≤ text.utf8ByteSize := by
  have hlines : ∀ line ∈ Text.linesFrom text start, line.stop ≤ text.utf8ByteSize :=
    fun _ => Text.stop_le_of_mem_linesFrom
  have hread := stop_le_of_rescan hE t settled hlines frames marks
  unfold rescanFrom
  dsimp only
  split
  · exact hread
  · -- Regions that are still open at the end of the text end there.
    refine List.forall_mem_append.2 ⟨hread, fun token ht => ?_⟩
    exact Nat.le_of_eq (Frames.stop_of_mem_close ht)

/-- Adding tokens inside the text leaves a store sound. -/
theorem sound_foldl_addToken {tokens : List Token} {store : Store} (h : store.Sound)
    (htokens : ∀ token ∈ tokens, token.span.stop ≤ store.length) :
    (tokens.foldl Store.addToken store).Sound := by
  induction tokens generalizing store with
  | nil => exact h
  | cons token tokens ih =>
    obtain ⟨hfirst, hrest⟩ := List.forall_mem_cons.1 htokens
    have htext : (store.addToken token).text = store.text := text_foldl_addToken [token] store
    refine ih (h.add token.level fun _ => hfirst).1 fun other ho => ?_
    rw [Store.length, htext]
    exact hrest other ho

/-- The scopes of a text that was just read lie inside it. -/
theorem sound_ofText (hE : E.Inside) (t : Tokenizer E) (text : String) :
    (Document.ofText t text).store.Sound := by
  rw [store_ofText]
  exact sound_foldl_addToken (.ofText text) (t.stop_le_of_tokens hE text)

/-! ### Edits -/

/-- An edit reports a span outside which it has only edited the text. -/
theorem tracks_edit (hE : E.Inside) {document : Document E} (h : document.store.Sound) {edit : Edit}
    (hfits : edit.fits document.text = true) :
    Tracks (document.store.apply edit) ⟨edit.start, edit.stopAfter⟩
      ((document.edit edit).2.store, (document.edit edit).1) := by
  have hsound := h.apply hfits
  have hafter : edit.stopAfter ≤ (document.store.apply edit).length := by
    rw [Store.length, Store.text_apply]
    exact Edit.stopAfter_le hfits
  cases hread : document.reread? edit with
  -- Only a part is read again, and the tokens that are read lie inside the text.
  | some read =>
    rw [edit_of_reread? hread]
    refine Tracks.merge hsound hafter _ ?_
    obtain ⟨frames, -, rfl⟩ := Option.map_eq_some_iff.1 hread
    exact stop_le_of_rescanFrom hE _ _ _ _ _ _
  -- All is read again, and all of the text is reported.
  | none =>
    rw [edit_of_reread?_eq_none hread]
    exact Tracks.whole hsound hafter (sound_ofText hE _ _) (text_ofText _ _)

/-- A document as it is used: a text was read into it, it was edited where the edits fit, other
texts were read into it, and its store was changed in between. -/
inductive InUse (t : Tokenizer E) : Document E → Prop
  | ofText (text : String) : InUse t (ofText t text)
  | edit {document : Document E} {edit : Edit} (before : InUse t document)
    (fits : edit.fits document.text = true) : InUse t (document.edit edit).2
  | replace {document : Document E} (before : InUse t document) (other : String) :
    InUse t (document.replace other).2
  | access {document : Document E} {store : Store} (before : InUse t document)
    (change : document.store.Change store) : InUse t { document with store := store }

/-- The store of a document in use is sound. -/
theorem InUse.sound (hE : E.Inside) {document : Document E} (h : InUse t document) :
    document.store.Sound := by
  induction h with
  | ofText text => exact sound_ofText hE t text
  | edit _ fits ih => exact (tracks_edit hE ih fits).sound
  | replace _ other _ => exact sound_ofText hE _ other
  | access _ change ih => exact ih.change change

/-- An edit reports a span that covers the edit and lies inside the edited text. The scopes that do
not lie within it are, with their levels and attributes and in their order, those that the edit of
the text alone leaves there. -/
theorem outside_changed (hE : E.Inside) {document : Document E} (h : InUse t document) {edit : Edit}
    (hfits : edit.fits document.text = true) :
    (document.edit edit).2.text = edit.apply document.text ∧
      (document.edit edit).1.start ≤ edit.start ∧
      edit.stopAfter ≤ (document.edit edit).1.stop ∧
      (document.edit edit).1.stop ≤ (edit.apply document.text).utf8ByteSize ∧
      (document.edit edit).2.store.outside (document.edit edit).1 =
        (document.store.apply edit).outside (document.edit edit).1 := by
  have hsound := h.sound hE
  have htracks := tracks_edit hE hsound hfits
  have htext := document.store.text_apply edit
  refine ⟨htracks.text_eq.trans htext, htracks.start_le, htracks.le_stop, ?_,
    htracks.sound.outside_eq (hsound.apply hfits) htracks.outside⟩
  -- The bound is that of the edited store, whose text is the edited one.
  have hstop := htracks.stop_le
  rwa [Store.length, htext] at hstop

/-- A theme that sets marks in a font. -/
def markTheme : Theme :=
  ⟨default, "Marks", none, .empty,
    Table.ofList [("mark", { Attributes.empty with fontName := some "Mono" })]⟩

/-- Two lines with a region each, whose marks have a font. -/
def marked : Document Engine.literal :=
  { ofText ⟨Grammar.brackets, 80⟩ "<x>\n<x>\n" with
    store := markTheme.annotate (ofText ⟨Grammar.brackets, 80⟩ "<x>\n<x>\n").store }

/-- A mark is put into the first line. The scopes of the second line move, and its
mark keeps its font. -/
theorem outside_changed_marked :
    Engine.literal.Inside ∧ InUse ⟨Grammar.brackets, 80⟩ marked ∧
      Edit.fits (.insert 1 "x") marked.text = true ∧
      (marked.edit (.insert 1 "x")).1 = ⟨0, 4⟩ ∧
      (marked.edit (.insert 1 "x")).2.store.outside ⟨0, 4⟩ =
        [(0, .plain "angle" ⟨5, 8⟩), (1, .plain "bracket" ⟨5, 6⟩),
          (1, ⟨"mark", ⟨6, 7⟩, some { Attributes.empty with fontName := some "Mono" }⟩),
          (1, .plain "bracket" ⟨7, 8⟩)] := by
  have huse : InUse ⟨Grammar.brackets, 80⟩ marked := .access (.ofText _) (.annotate markTheme _)
  have hfits : Edit.fits (.insert 1 "x") marked.text = true := by decide +kernel
  have hspan : (marked.edit (.insert 1 "x")).1 = ⟨0, 4⟩ := by decide_cbv
  obtain ⟨-, -, -, -, houtside⟩ := outside_changed Engine.literal_inside huse hfits
  rw [hspan] at houtside
  exact ⟨Engine.literal_inside, huse, hfits, hspan, houtside.trans (by decide_cbv)⟩

end Document

end TextScopes
