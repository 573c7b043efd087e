import Mathlib
import TextScopes.Proofs.Document.Rereading
import TextScopes.Proofs.Expression.Looking

/-!
# What is lost where reading again stops

When reading again stops early, the scopes in the window are removed, and the regions that are
open at the place where it stops are left to the scopes that they had. But a region can be open
there and have its scope in the window: one that began in it and is closed by a match without a
byte at the first byte of the line where reading stops. Its scope is removed, and since that line
is not read, no token puts it back (`Document.Lost`). `Document.mem_edit_iff` shows that no other
scope is lost, none is added and none is moved, whatever the grammar, unless the edit moves a
region that is open at its line.

So the edited text is not always as if it had just been read (`Document.region_lost`); it is for
grammars that close no region at the start of a line.
-/

namespace TextScopes

variable {E : Engine} {t : Tokenizer E}

namespace Document

/-- Only certain regions are open at an offset. -/
theorem OpenAt.unique {cs : List Char} {offset : Nat} {frames frames' : Frames E}
    (h : OpenAt t cs offset frames) (h' : OpenAt t cs offset frames') : frames = frames' := by
  obtain ⟨front, back, rfl, -, rfl, rfl⟩ := h
  obtain ⟨front', back', hcut, -, hcount, rfl⟩ := h'
  obtain ⟨rfl, -⟩ := Text.append_inj_of_count hcut hcount.symm
  rfl

/-- The scope of a region that is open where the window stops, began in the window,
and stops right there. -/
def Lost (opened : Frames E) (window : Span) (x : Nat × Scope) : Prop :=
  window.start ≤ x.2.span.start ∧ x.2.span.stop = window.stop ∧
    ∃ frame ∈ opened, frame.name.isSome = true ∧ frame.place = Scope.place x

/-- No scope that was found before a place is that of a region which is still open there. -/
theorem not_lost_of_stretch (hE : E.Bounded) (t : Tokenizer E) {cs : List Char} {window : Span}
    {x : Nat × Scope} (hx : x ∈ Token.entries (t.stretch 0 cs []).1) :
    ¬ Lost (t.stretch 0 cs []).2 window x := by
  rintro ⟨-, -, frame, hframe, hname, hplace⟩
  obtain ⟨token, ht, hshown, rfl⟩ := Token.mem_entries.1 hx
  obtain ⟨hlevel, hstart⟩ := Prod.mk.inj hplace
  -- Where the region's scope will be put there is none yet.
  have hclear :=
    (t.settled_stretch hE cs).clear frame hframe hname token ht hshown (Nat.le_of_eq hlevel.symm)
  exact Nat.not_lt_of_le hclear (hstart ▸ hshown)

/-- Of the scopes that are found behind a place those in a window up to it are those of regions
which are open there. -/
theorem contains_iff_lost (hE : E.Bounded) (t : Tokenizer E) (start place : Nat) {cs : List Char}
    {opened : Frames E} {x : Nat × Scope} (hx : x ∈ Token.entries (t.finish place cs opened)) :
    Span.contains ⟨start, place⟩ x.2.span = true ↔ Lost opened ⟨start, place⟩ x := by
  rw [Span.contains_iff]
  constructor
  · -- What ends at the place without having begun there was open at the place.
    rintro ⟨hstart, hstop⟩
    obtain ⟨token, ht, hshown, rfl⟩ := Token.mem_entries.1 hx
    obtain ⟨_, hread⟩ := t.reread_finish hE place cs opened
    obtain ⟨hplace, frame, hframe, hname, heq⟩ := hread.exists_frame_of_stop_le ht hshown hstop
    exact ⟨hstart, hplace, frame, hframe, hname, heq⟩
  · rintro ⟨hstart, hstop, -⟩
    exact ⟨hstart, Nat.le_of_eq hstop⟩

/-- When reading again stops at a line start behind the edit where the same regions are open as were
open there before, merging leaves the scopes of the edited text that are not lost there. -/
theorem mem_merge_early_iff (hE : E.Bounded) {edit : Edit} {front old new mid rest : List Char}
    (hedit : edit.Replaces front old new) (hmid : mid.getLast? = some '\n')
    (hfits : edit.fits (String.ofList (front ++ old ++ (mid ++ rest))) = true)
    (happly : edit.apply (String.ofList (front ++ old ++ (mid ++ rest))) =
      String.ofList (front ++ new ++ (mid ++ rest)))
    (hsame : (t.stretch 0 (front ++ new ++ mid) []).2 =
      (t.stretch 0 (front ++ old ++ mid) []).2.map (Frame.shift edit.shift)) (changed : Span)
    (x : Nat × Scope) :
    x ∈ (merge ((t.scopes (String.ofList (front ++ old ++ (mid ++ rest)))).apply edit)
        ⟨Text.byteCount front, Text.byteCount (front ++ new ++ mid)⟩ changed
        (t.stretch (Text.byteCount front) (new ++ mid) (t.stretch 0 front []).2).1).1.toList ↔
      x ∈ (t.scopes (String.ofList (front ++ new ++ (mid ++ rest)))).toList ∧
        ¬ Lost (t.stretch 0 (front ++ new ++ mid) []).2
          ⟨Text.byteCount front, Text.byteCount (front ++ new ++ mid)⟩ x := by
  have hmerge := merge_early hE hedit hmid hfits happly hsame changed
  have hscopes := t.holds_scopes_append hE (Text.ended_append (front ++ new) hmid) rest
  rw [List.append_assoc _ mid] at hscopes
  rw [hmerge.perm.mem_iff, hscopes.perm.mem_iff, List.mem_append, List.mem_append, List.mem_filter]
  -- What lies in the window behind the place is lost, and nothing in front of it is.
  constructor
  · rintro (hx | ⟨hx, hout⟩)
    · exact ⟨.inl hx, not_lost_of_stretch hE t hx⟩
    · refine ⟨.inr hx, fun hlost => ?_⟩
      rw [(contains_iff_lost hE t _ _ hx).2 hlost] at hout
      cases hout
  · rintro ⟨hx | hx, hkept⟩
    · exact .inl hx
    · refine .inr ⟨hx, ?_⟩
      rw [Bool.not_eq_true', ← Bool.not_eq_true, contains_iff_lost hE t _ _ hx]
      exact hkept

/-- How the edit of a faithful document ends that moves no region which is open at its
line: the store is that of the edited text, or reading stopped early and the scopes of
some regions are lost. -/
theorem Faithful.edited (hE : E.Bounded) {document : Document E} {text : String}
    (h : document.Faithful t text) {edit : Edit} (hfits : edit.fits text = true) {before : Frames E}
    (hbefore : OpenAt t (edit.apply text).toList
      (Text.lineStart (edit.apply text) edit.start) before)
    (hstill : ∀ frame ∈ before, edit.shift frame.start = frame.start) {read : Rescan E}
    (hread : document.reread? edit = some read) :
    (read.stop = none ∧ (document.edit edit).2.store = t.scopes (edit.apply text)) ∨
      ∃ stop opened, read.stop = some stop ∧ OpenAt t (edit.apply text).toList stop opened ∧
        ∀ x, x ∈ (document.edit edit).2.store.toList ↔
        x ∈ (t.scopes (edit.apply text)).toList ∧
          ¬ Lost opened ⟨Text.lineStart (edit.apply text) edit.start, stop⟩ x := by
  obtain ⟨front, old, new, tail, rfl, happly, hline, hedit⟩ := Edit.exists_replaces hfits
  rw [happly] at hline hbefore ⊢
  rw [hline] at hbefore ⊢
  have hhere : OpenAt t (String.ofList (front ++ new ++ tail)).toList (Text.byteCount front)
      (t.stretch 0 front []).2 := by
    rw [String.toList_ofList, List.append_assoc]
    exact openAt_of_ended t hedit.ended _
  obtain rfl := hbefore.unique hhere
  have hends := h.ends hE hedit happly hline hstill hread
  have hstore := h.store_edit hE happly hline hread
  have hmarks := h.marks
  rw [String.toList_ofList] at hmarks ⊢
  generalize hcs : new ++ tail = cs at hends
  -- Read to the end the store is that of the whole text; else it lacks what is lost.
  cases hends with
  | late stop tokens noted =>
    subst hcs
    refine .inl ⟨stop, ?_⟩
    rw [hstore, stop, tokens]
    exact merge_late hE hedit hfits happly _
  | @early _ back _ rest ended behind stop mark tokens noted =>
    obtain ⟨mid, rfl, rfl, hmid, hsame⟩ := exists_mid hedit hmarks hcs.symm rest behind mark
    rw [← List.append_assoc] at hsame stop
    have hopened := openAt_of_ended t (Text.ended_append (front ++ new) hmid) back
    rw [List.append_assoc] at hopened
    refine .inr ⟨_, _, stop, hopened, fun x => ?_⟩
    rw [hstore, stop, tokens, Option.getD_some]
    exact mem_merge_early_iff hE hedit hmid hfits happly hsame _ x

/-- After an edit of a faithful document that moves no region which is open at its line, and after
which reading stops early, the store has the scopes of the edited text on their levels but for those
that are lost: of regions that are open where reading stops, began in the lines that were read
again, and stop right there. -/
theorem mem_edit_iff (hE : E.Bounded) {document : Document E} {text : String}
    (h : document.Faithful t text) {edit : Edit} (hfits : edit.fits text = true)
    {before opened : Frames E}
    (hbefore : OpenAt t (edit.apply text).toList
      (Text.lineStart (edit.apply text) edit.start) before)
    (hstill : ∀ frame ∈ before, edit.shift frame.start = frame.start) {read : Rescan E}
    (hread : document.reread? edit = some read) {stop : Nat} (hstop : read.stop = some stop)
    (hopened : OpenAt t (edit.apply text).toList stop opened) (x : Nat × Scope) :
    x ∈ (document.edit edit).2.store.toList ↔ x ∈ (t.scopes (edit.apply text)).toList ∧
      ¬ Lost opened ⟨Text.lineStart (edit.apply text) edit.start, stop⟩ x := by
  rcases h.edited hE hfits hbefore hstill hread with
    ⟨hnone, -⟩ | ⟨stop', opened', hstop', hopened', hmem⟩
  · rw [hstop] at hnone
    cases hnone
  · obtain rfl := Option.some.inj (hstop'.symm.trans hstop)
    -- What is open at a place is determined by the text.
    obtain rfl := hopened.unique hopened'
    exact hmem x

/-- Regions that begin with `<` and stop in front of `>`. -/
def blocks : Tokenizer Engine.looking := ⟨Grammar.ofRegion "block" "<" "(?=>)", 80⟩

/-- A region that stops at the start of the third line is kept when the second line is edited. -/
theorem mem_edit_iff_blocks :
    Engine.looking.Bounded ∧ (ofText blocks "<\na\n>b\n").Faithful blocks "<\na\n>b\n" ∧
      Edit.fits (.insert 2 "x") "<\na\n>b\n" = true ∧
      ((ofText blocks "<\na\n>b\n").reread? (.insert 2 "x")).bind (·.stop) = some 5 ∧
      (0, .plain "block" ⟨0, 5⟩) ∈
        ((ofText blocks "<\na\n>b\n").edit (.insert 2 "x")).2.store.toList := by
  have hfaithful := faithful_ofText blocks "<\na\n>b\n"
  have hfits : Edit.fits (.insert 2 "x") "<\na\n>b\n" = true := by decide_cbv
  have hstop : ((ofText blocks "<\na\n>b\n").reread? (.insert 2 "x")).bind (·.stop) = some 5 := by
    decide_cbv
  obtain ⟨read, hread, hread'⟩ := Option.bind_eq_some_iff.1 hstop
  have hbefore : OpenAt blocks (Edit.apply (.insert 2 "x") "<\na\n>b\n").toList
      (Text.lineStart (Edit.apply (.insert 2 "x") "<\na\n>b\n") 2)
      (blocks.stretch 0 "<\n".toList []).2 :=
    ⟨"<\n".toList, "xa\n>b\n".toList, by decide_cbv,
      .inl (.inr (by decide_cbv)), by decide_cbv, rfl⟩
  have hopened : OpenAt blocks (Edit.apply (.insert 2 "x") "<\na\n>b\n").toList 5
      (blocks.stretch 0 "<\nxa\n".toList []).2 :=
    ⟨"<\nxa\n".toList, ">b\n".toList, by decide_cbv,
      .inl (.inr (by decide_cbv)), by decide_cbv, rfl⟩
  have hstarts : (blocks.stretch 0 "<\n".toList []).2.map (·.start) = [0] := by decide_cbv
  have hstill : ∀ frame ∈ (blocks.stretch 0 "<\n".toList []).2,
      Edit.shift (.insert 2 "x") frame.start = frame.start := by
    intro frame hframe
    have hmem : frame.start ∈ [0] := hstarts ▸ List.mem_map_of_mem hframe
    rw [List.mem_singleton.1 hmem]
    rfl
  have hmem :=
    mem_edit_iff Engine.looking_bounded hfaithful hfits hbefore hstill hread hread' hopened
    (0, .plain "block" ⟨0, 5⟩)
  have hfull : (0, .plain "block" ⟨0, 5⟩) ∈
      (blocks.scopes (Edit.apply (.insert 2 "x") "<\na\n>b\n")).toList := by decide_cbv
  have hline : Text.lineStart (Edit.apply (.insert 2 "x") "<\na\n>b\n") 2 = 2 := by decide_cbv
  refine ⟨Engine.looking_bounded, hfaithful, hfits, hstop, hmem.2 ⟨hfull, fun hlost => ?_⟩⟩
  -- The region began in front of the lines that are read again.
  have hstart : 2 ≤ 0 := Nat.le_trans (Nat.le_of_eq hline.symm) hlost.1
  omega

/-- A region that begins in the first line and stops at the start of the second is gone when the
first line is edited, though the edited text has it: it is open where reading again stops. -/
theorem region_lost :
    Engine.looking.Bounded ∧ (ofText blocks "<a\n>b\n").Faithful blocks "<a\n>b\n" ∧
      Edit.fits (.insert 1 "x") "<a\n>b\n" = true ∧
      Edit.apply (.insert 1 "x") "<a\n>b\n" = "<xa\n>b\n" ∧
      ((ofText blocks "<a\n>b\n").reread? (.insert 1 "x")).bind (·.stop) = some 4 ∧
      (∃ frame, OpenAt blocks "<xa\n>b\n".toList 4 [frame] ∧ frame.name = some "block" ∧
        frame.level = 0 ∧ frame.start = 0) ∧
      (blocks.scopes "<xa\n>b\n").toList = [(0, .plain "block" ⟨0, 4⟩)] ∧
      ((ofText blocks "<a\n>b\n").edit (.insert 1 "x")).2.store.toList = [] := by
  refine ⟨Engine.looking_bounded,
    faithful_ofText _ _, by decide_cbv, by decide_cbv, by decide_cbv, ?_,
    by decide_cbv, by decide_cbv⟩
  -- The frame that is open at 4, and the cut of the text at which it is.
  refine ⟨⟨⟨"source.regions", 1⟩, some "block", .look "(?=>)", 0, 0⟩,
    ⟨"<xa\n".toList, ">b\n".toList, by decide_cbv,
    .inl (.inr (by decide_cbv)), by decide_cbv, ?_⟩, rfl, rfl, rfl⟩
  cbv

end Document

end TextScopes
