import TextScopes.Document
import TextScopes.Proofs.Store.Change
import TextScopes.Proofs.Tokenizer.Crossing
import TextScopes.Proofs.Tokenizer.Shift

/-!
# Putting new scopes in the place of old ones

After an edit the scopes of a text are of three groups: those of tokens that stop where reading
begins anew (`front`), those of the part that is read again (`mid`), and those of tokens that stop
behind the edit (`back`). `Document.holds_merge` shows that `merge` keeps the first, takes out the
second, leaves the third where the edit has carried them, and puts the new ones in. Of the second
group those that start where reading begins anew or behind lie inside the window and are removed by
it. Those that start before are told from what stays by their places alone, so the new tokens that
start before have to be at the same places. Of the third group those that come to lie inside the
window are removed as well, though nothing is put in their place.
-/

namespace TextScopes

/-- The place of a scope in a store: its level, and where it starts. -/
def Scope.place (x : Nat × Scope) : Nat × Nat := (x.1, x.2.span.start)

namespace Edit

variable {edit : Edit} {window : Span} {token : Token}

/-- What is left of a scope with its level when it is carried over and what lies in a window is
removed. -/
def remains? (edit : Edit) (window : Span) (x : Nat × Scope) : Option (Nat × Scope) :=
  ((edit.carry? x.2).map fun scope => (x.1, scope)).filter fun y => !window.contains y.2.span

/-- The scope of a token remains with its ends carried over, if something is between them and they
are not in the window. -/
theorem remains?_eq_some (hle : edit.start ≤ edit.stopBefore) (hshown : token.Shown) {span : Span}
    (hspan : span = ⟨edit.shift token.span.start, edit.shiftStop token.span.stop⟩)
    (hbyte : span.start < span.stop) (hout : window.contains span = false) :
    edit.remains? window token.entry = some (Token.entry { token with span := span }) := by
  have hcarry : edit.carry? token.scope = some (token.scope.withSpan span) := by
    have hscope : token.scope.span.start < token.scope.span.stop := hshown
    rw [hspan] at hbyte ⊢
    rw [carry?_eq hle hscope]
    exact if_pos hbyte
  unfold remains?
  rw [show token.entry.2 = token.scope from rfl, hcarry, Option.map_some, Option.filter_some_pos]
  · rfl
  · rw [show (token.scope.withSpan span).span = span from rfl, hout]
    rfl

/-- Nothing remains of the scope of a token that comes to lie in the window. -/
theorem remains?_eq_none (hle : edit.start ≤ edit.stopBefore) (hshown : token.Shown)
    (hstart : window.start ≤ edit.shift token.span.start)
    (hstop : edit.shiftStop token.span.stop ≤ window.stop) :
    edit.remains? window token.entry = none := by
  have hscope : token.scope.span.start < token.scope.span.stop := hshown
  unfold remains?
  rw [show token.entry.2 = token.scope from rfl, carry?_eq hle hscope]
  -- Something of the token is left, and it lies in the window, or nothing is.
  split
  · rw [Option.map_some, Option.filter_some_neg]
    have hin : window.contains ⟨edit.shift token.span.start,
        edit.shiftStop token.span.stop⟩ = true :=
      (Span.contains_iff _ _).2 ⟨hstart, hstop⟩
    simpa [Scope.withSpan, Token.scope, Scope.plain] using hin
  · rfl

/-- What stops where the window starts remains as it is. -/
theorem filterMap_front {tokens : List Token} (hle : edit.start ≤ edit.stopBefore)
    (hplace : window.start ≤ edit.start)
    (hstop : ∀ token ∈ tokens, token.span.stop ≤ window.start) :
    (Token.entries tokens).filterMap (edit.remains? window) = Token.entries tokens := by
  -- Tokens in front of the window stay as they are.
  rw [← List.filterMap_some (l := Token.entries tokens), List.filterMap_filterMap]
  refine List.filterMap_congr fun x hx => ?_
  obtain ⟨token, ht, hshown, rfl⟩ := Token.mem_entries.1 hx
  have h1 := hstop token ht
  have h2 : token.span.start < token.span.stop := hshown
  have hspan : token.span = ⟨edit.shift token.span.start, edit.shiftStop token.span.stop⟩ := by
    rw [shift_before (by omega), shiftStop_before (by omega)]
  refine (remains?_eq_some hle hshown hspan h2 ?_).trans rfl
  rw [← Bool.not_eq_true, Span.contains_iff]
  omega

/-- What stops behind the edit remains where the edit carries it, but for what comes to lie in the
window. -/
theorem filterMap_back {tokens : List Token} (hle : edit.start ≤ edit.stopBefore)
    (hstop : ∀ token ∈ tokens, token.Shown → edit.stopBefore < token.span.stop) :
    (Token.entries tokens).filterMap (edit.remains? window) =
      (Token.entries (tokens.map (Token.shift edit.shift))).filter
        fun x => !window.contains x.2.span := by
  induction tokens with
  | nil => rfl
  | cons token tokens ih =>
    obtain ⟨hfirst, hrest⟩ := List.forall_mem_cons.1 hstop
    rw [List.map_cons]
    by_cases hshown : token.Shown
    · have hbehind := hfirst hshown
      have hmoved := shiftStop_behind hbehind
      have hstop' := shift_behind hle hbehind
      -- The start of the token moves with its stop, or does not come to lie behind the edit.
      have hbyte : edit.shift token.span.start < edit.shift token.span.stop := by
        rcases Nat.lt_or_ge edit.stopBefore token.span.start with hs | hs
        · have := shift_behind hle hs
          have : token.span.start < token.span.stop := hshown
          omega
        · have := shift_le_stopAfter hle hs
          omega
      have hnew : (Token.shift edit.shift token).Shown := hbyte
      have hspan : (Token.entry (Token.shift edit.shift token)).2.span =
          ⟨edit.shift token.span.start, edit.shift token.span.stop⟩ := rfl
      rw [Token.entries_cons tokens hshown, Token.entries_cons _ hnew]
      -- A moved token that comes to lie in the window is removed.
      cases hin : window.contains ⟨edit.shift token.span.start, edit.shift token.span.stop⟩ with
      | true =>
        have hends := (Span.contains_iff _ _).1 hin
        have hnone := remains?_eq_none hle hshown hends.1 (hmoved ▸ hends.2)
        rw [List.filterMap_cons_none hnone,
          List.filter_cons_of_neg (by simp [hspan, hin]), ih hrest]
      | false =>
        have hsome := remains?_eq_some hle hshown (hmoved ▸ rfl) hbyte hin
        rw [List.filterMap_cons_some hsome,
          List.filter_cons_of_pos (by simp [hspan, hin]), ih hrest]
        rfl
    · -- A token without a byte does not get one by moving.
      have hnot : ¬ (Token.shift edit.shift token).Shown := by
        have := shift_mono edit (Nat.le_of_not_lt hshown)
        exact Nat.not_lt_of_le this
      rw [Token.entries_cons_of_not tokens hshown, Token.entries_cons_of_not _ hnot, ih hrest]

/-- Of what is read again only those scopes remain that start before the window, at their places. -/
theorem filterMap_mid {tokens : List Token} (hle : edit.start ≤ edit.stopBefore)
    (hplace : window.start ≤ edit.start)
    (hearly : ∀ token ∈ tokens, token.span.start < window.start →
      window.start ≤ token.span.stop)
    (hstop : ∀ token ∈ tokens, edit.shiftStop token.span.stop ≤ window.stop) :
    ((Token.entries tokens).filterMap (edit.remains? window)).map Scope.place =
      (tokens.filter (·.span.start < window.start)).map Token.place := by
  -- On the tokens: those that start before the window stay, and the others go.
  induction tokens with
  | nil => rfl
  | cons token tokens ih =>
    obtain ⟨hfirst, hrest⟩ := List.forall_mem_cons.1 hearly
    obtain ⟨hfirst', hrest'⟩ := List.forall_mem_cons.1 hstop
    by_cases hlt : token.span.start < window.start
    · -- A scope that starts before the window reaches into it, and is not removed with what
      -- lies inside.
      have hbyte := hfirst hlt
      have hshown : token.Shown := Nat.lt_of_lt_of_le hlt hbyte
      have hsame : edit.shift token.span.start = token.span.start := shift_before (by omega)
      have hbehind := le_shiftStop hplace hbyte
      have hout : window.contains
          ⟨edit.shift token.span.start, edit.shiftStop token.span.stop⟩ = false := by
        rw [← Bool.not_eq_true, Span.contains_iff]
        dsimp only
        omega
      have hremains := remains?_eq_some hle hshown rfl (by dsimp only; omega) hout
      rw [Token.entries_cons tokens hshown, List.filterMap_cons_some hremains, List.map_cons,
        List.filter_cons_of_pos (by simpa using hlt), List.map_cons, ih hrest hrest']
      congr 1
      rw [hsame]
      rfl
    · -- One that starts behind lies in the window after the edit, if anything is left of it.
      rw [List.filter_cons_of_neg (by simpa using hlt), ← ih hrest hrest']
      by_cases hshown : token.Shown
      · have hnone := remains?_eq_none hle hshown (le_shift hplace (Nat.le_of_not_lt hlt)) hfirst'
        rw [Token.entries_cons tokens hshown, List.filterMap_cons_none hnone]
      · rw [Token.entries_cons_of_not tokens hshown]

end Edit

namespace Document

/-- Taking out what stands at the places of the tokens that start before the window leaves the
rest. -/
theorem holds_dropOld {start : Nat} {tokens : List Token} {store : Store} (changed : Span)
    {text : String} {olds rest : List (Nat × Scope)} (h : store.Holds text (olds ++ rest))
    (holds : olds.map Scope.place = (tokens.filter (·.span.start < start)).map Token.place) :
    (tokens.foldl (dropOld start) (store, changed)).1.Holds text rest := by
  induction tokens generalizing store changed olds with
  | nil =>
    obtain rfl := List.map_eq_nil_iff.1 holds
    exact h
  | cons token tokens ih =>
    rw [List.foldl_cons]
    by_cases hlt : token.span.start < start
    · rw [List.filter_cons_of_pos (by simpa using hlt), List.map_cons] at holds
      obtain ⟨⟨level, scope⟩, olds', rfl, hplace, holds'⟩ := List.map_eq_cons_iff.1 holds
      -- The first of the old scopes is the one at the place of the token.
      obtain ⟨hlevel, hstart⟩ := Prod.mk.inj hplace
      obtain ⟨store', hremove, hrest⟩ := h.removeAt?
      have hstep : dropOld start (store, changed) token = (store', cover changed scope.span) := by
        unfold dropOld
        rw [if_pos hlt]
        dsimp only
        rw [← hlevel, ← hstart, hremove]
      rw [hstep]
      exact ih _ hrest holds'
    · -- A token inside the window has no old scope to take out.
      have hstep : dropOld start (store, changed) token = (store, changed) := by
        unfold dropOld
        rw [if_neg hlt]
      rw [List.filter_cons_of_neg (by simpa using hlt)] at holds
      rw [hstep]
      exact ih _ h holds

/-- Adding tokens widens what has changed, and otherwise just adds them. -/
theorem foldl_addNew_fst (tokens : List Token) (store : Store) (changed : Span) :
    (tokens.foldl addNew (store, changed)).1 = tokens.foldl Store.addToken store := by
  induction tokens generalizing store changed with
  | nil => rfl
  | cons token tokens ih => exact ih _ _

/-- Merging puts new tokens in the place of those of the part that is read again, and of those
that lie in the window. -/
theorem holds_merge {edit : Edit} {text : String} (hfits : edit.fits text = true)
    (window changed : Span) {store : Store} {front mid back new : List Token}
    (hstore : store.Holds text (Token.entries (front ++ mid ++ back)))
    (hplace : window.start ≤ edit.start)
    (hfront : ∀ token ∈ front, token.span.stop ≤ window.start)
    (hearly : ∀ token ∈ mid, token.span.start < window.start →
      window.start ≤ token.span.stop)
    (hmid : ∀ token ∈ mid, edit.shiftStop token.span.stop ≤ window.stop)
    (hback : ∀ token ∈ back, token.Shown → edit.stopBefore < token.span.stop)
    (hplaces : (mid.filter (·.span.start < window.start)).map Token.place =
      (new.filter (·.span.start < window.start)).map Token.place)
    (hnew : (front ++ new ++ back.map (Token.shift edit.shift)).Pairwise Token.Fits) :
    (merge (store.apply edit) window changed new).1.Holds (edit.apply text)
      (Token.entries (front ++ new) ++ (Token.entries (back.map (Token.shift edit.shift))).filter
        fun x => !window.contains x.2.span) := by
  have hle := Edit.start_le_stopBefore hfits
  have hremoved := (hstore.apply hfits).removeScopes window
  rw [List.filter_filterMap, Token.entries_append, Token.entries_append] at hremoved
  have hremains : (fun x : Nat × Scope => Option.filter (fun y => !window.contains y.2.span)
      ((edit.carry? x.2).map fun scope => (x.1, scope))) = edit.remains? window := rfl
  rw [hremains, List.filterMap_append, List.filterMap_append,
    Edit.filterMap_front hle hplace hfront, Edit.filterMap_back hle hback] at hremoved
  -- What remains of the middle part is told by its places.
  have hmiddle := Edit.filterMap_mid hle hplace hearly hmid
  generalize (Token.entries mid).filterMap (edit.remains? window) = olds at hremoved hmiddle
  have hperm : (Token.entries front ++ olds ++
      (Token.entries (back.map (Token.shift edit.shift))).filter fun x =>
        !window.contains x.2.span).Perm
        (olds ++ (Token.entries front ++ (Token.entries (back.map (Token.shift edit.shift))).filter
          fun x => !window.contains x.2.span)) := by
    rw [List.append_assoc]
    exact List.perm_append_comm_assoc _ _ _
  rw [List.append_assoc, List.pairwise_append] at hnew
  obtain ⟨hfits1, hfits2, hfits3⟩ := hnew
  rw [List.pairwise_append] at hfits2
  obtain ⟨hfits4, hfits5, hfits6⟩ := hfits2
  unfold merge
  dsimp only
  generalize List.foldl (fun span scope => cover span scope.span) changed
    ((store.apply edit).removeScopes window).1 = widened
  have hstate := holds_dropOld widened (hremoved.congr hperm) (hmiddle.trans hplaces)
  generalize List.foldl (dropOld window.start) (((store.apply edit).removeScopes window).2, widened)
    new = state at hstate
  obtain ⟨left, changed'⟩ := state
  rw [foldl_addNew_fst]
  refine (hstate.addTokens hfits4 fun token ht hshown scope hs => ?_).congr ?_
  · -- The new tokens fit those in front of them and those behind.
    rcases List.mem_append.1 hs with hs | hs
    · obtain ⟨other, ho, hother, heq⟩ := Token.mem_entries.1 hs
      obtain ⟨hlevel, rfl⟩ := Prod.mk.inj heq
      exact hfits3 other ho token (List.mem_append_left _ ht) hlevel hother hshown
    · obtain ⟨other, ho, hother, heq⟩ := Token.mem_entries.1 (List.mem_filter.1 hs).1
      obtain ⟨hlevel, rfl⟩ := Prod.mk.inj heq
      exact (hfits6 token ht other ho hlevel.symm hshown hother).symm
  · rw [Token.entries_append, ← List.append_assoc]
    exact List.perm_append_comm.append_right _

end Document

end TextScopes
