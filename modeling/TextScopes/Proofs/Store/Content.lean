import TextScopes.Proofs.Store.Level
import TextScopes.Proofs.Token

/-!
# What a store holds

`Store.Holds` says of a store that its global scope spans the text, that its levels are in order,
that no empty level stands behind the last scope, and which scopes it has on which levels, as a list
in any order. There is no more to a store: two that hold the same are equal (`Store.Holds.eq`). A
change of a store is then told by what it does to the list: a scope that is put where nothing is in
its way is one entry more (`Store.Holds.addToken`), and tokens that fit one another all come in,
each on its own level (`Store.Holds.addTokens`).
-/

namespace TextScopes

namespace Store

/-- A level by its number; those that are not there hold nothing. -/
def levelAt (levels : List Level) (n : Nat) : Level := levels[n]?.getD []

/-- No empty level stands at the end. -/
def Trimmed (levels : List Level) : Prop := levels.getLast? ≠ some []

instance (levels : List Level) : Decidable (Trimmed levels) :=
  inferInstanceAs (Decidable (levels.getLast? ≠ some []))

/-- Levels are numbered upwards. -/
theorem le_of_mem_number {levels : List Level} {n : Nat} {x : Nat × Scope}
    (h : x ∈ number n levels) : n ≤ x.1 := by
  induction levels generalizing n with
  | nil => cases h
  | cons level levels ih =>
    rcases List.mem_append.1 h with h | h
    · obtain ⟨scope, -, rfl⟩ := List.mem_map.1 h
      exact Nat.le_refl n
    · exact Nat.le_of_succ_le (ih h)

/-- The entries of one level are its scopes. -/
theorem filter_number (levels : List Level) (n i : Nat) :
    (number n levels).filter (·.1 = n + i) = (levelAt levels i).map fun scope =>
      (n + i, scope) := by
  induction levels generalizing n i with
  | nil => simp [number, levelAt]
  | cons level levels ih =>
    rw [number, List.filter_append]
    cases i with
    | zero =>
      -- The levels behind have greater numbers.
      have hrest : (number (n + 1) levels).filter (fun x => decide (x.1 = n)) = [] := by
        refine List.filter_eq_nil_iff.2 fun x hx => ?_
        have := le_of_mem_number hx
        simp only [decide_eq_true_eq]
        omega
      simp only [Nat.add_zero, hrest, List.append_nil]
      refine List.filter_eq_self.2 fun x hx => ?_
      obtain ⟨scope, -, rfl⟩ := List.mem_map.1 hx
      simp
    | succ i =>
      -- The first level has a smaller number, and the others are asked for number `i` of theirs.
      have hfirst : (level.map fun scope => (n, scope)).filter
          (fun x => decide (x.1 = n + (i + 1))) =
          [] := by
        refine List.filter_eq_nil_iff.2 fun x hx => ?_
        obtain ⟨scope, -, rfl⟩ := List.mem_map.1 hx
        simp
      rw [hfirst, List.nil_append, show n + (i + 1) = n + 1 + i by omega, ih]
      rfl

/-- What is numbered are the scopes of the levels. -/
theorem mem_number {levels : List Level} {n i : Nat} {scope : Scope} :
    (n + i, scope) ∈ number n levels ↔ scope ∈ levelAt levels i := by
  have h : (n + i, scope) ∈ (number n levels).filter (·.1 = n + i) ↔
      (n + i, scope) ∈ number n levels := by
    rw [List.mem_filter]
    simp
  rw [← h, filter_number, List.mem_map]
  simp

/-- The entries of a store are the scopes of its levels. -/
theorem mem_toList {store : Store} {x : Nat × Scope} :
    x ∈ store.toList ↔ x.2 ∈ levelAt store.levels x.1 := by
  have h : (0 + x.1, x.2) ∈ number 0 store.levels ↔ x.2 ∈ levelAt store.levels x.1 :=
    mem_number
  rw [Nat.zero_add] at h
  exact h

/-- A level by its number is a level or holds nothing. -/
theorem levelAt_mem_or (levels : List Level) (n : Nat) :
    levelAt levels n ∈ levels ∨ levelAt levels n = [] := by
  unfold levelAt
  cases h : levels[n]? with
  | none => exact .inr rfl
  | some level => exact .inl (List.mem_of_getElem? h)

/-- Of levels in order each is in order, the ones that are not there too. -/
theorem ordered_levelAt {levels : List Level} (h : ∀ level ∈ levels, level.Ordered) (n : Nat) :
    (levelAt levels n).Ordered := by
  rcases levelAt_mem_or levels n with hmem | hnil
  · exact h _ hmem
  · rw [hnil]
    exact .nil

/-- What a store holds: a text, and scopes with their levels. The global scope spans the text, the
levels are in order, and none at the end is empty. -/
structure Holds (store : Store) (text : String) (entries : List (Nat × Scope)) : Prop where
  text_eq : store.text = text
  spanned : store.globalScope = .spanning text.utf8ByteSize
  ordered : ∀ level ∈ store.levels, level.Ordered
  trimmed : Trimmed store.levels
  perm : store.toList.Perm entries

/-- A level with a scope is one of the levels. -/
theorem lt_length_of_mem_levelAt {levels : List Level} {n : Nat} {scope : Scope}
    (h : scope ∈ levelAt levels n) : n < levels.length := by
  unfold levelAt at h
  cases hget : levels[n]? with
  | none =>
    rw [hget] at h
    cases h
  | some level => exact (List.getElem?_eq_some_iff.1 hget).1

/-- The last of levels holds a scope when none at the end is empty. -/
theorem exists_mem_last {levels : List Level} (h : Trimmed levels) {n : Nat}
    (hlength : levels.length = n + 1) : ∃ scope, scope ∈ levelAt levels n := by
  rcases List.eq_nil_or_concat levels with rfl | ⟨front, last, rfl⟩
  · cases hlength
  · rw [List.concat_eq_append] at h hlength ⊢
    rw [List.length_append, List.length_singleton, Nat.add_right_cancel_iff] at hlength
    -- The last level is not empty, so that it holds a scope.
    have hne : last ≠ [] := by
      rintro rfl
      exact h (List.getLast?_concat)
    obtain ⟨scope, hs⟩ := List.exists_mem_of_ne_nil last hne
    refine ⟨scope, ?_⟩
    rw [levelAt, ← hlength, List.getElem?_concat_length]
    exact hs

/-- Levels of which none at the end is empty are as many as their scopes need. -/
theorem length_le_of_trimmed {levels levels' : List Level} (h : Trimmed levels)
    (hsub : ∀ n, ∀ scope ∈ levelAt levels n, scope ∈ levelAt levels' n) :
    levels.length ≤ levels'.length := by
  cases hlength : levels.length with
  | zero => exact Nat.zero_le _
  | succ n =>
    -- The last level holds a scope, so the other levels reach as far.
    obtain ⟨scope, hs⟩ := exists_mem_last h hlength
    exact lt_length_of_mem_levelAt (hsub n scope hs)

/-- Scopes on one level of a store come from the same entries. -/
theorem levelAt_perm {levels levels' : List Level} (h : (number 0 levels).Perm (number 0 levels'))
    (n : Nat) : (levelAt levels n).Perm (levelAt levels' n) := by
  have hfilter := (h.filter (·.1 = 0 + n)).map (·.2)
  rw [filter_number, filter_number, List.map_map, List.map_map] at hfilter
  simpa [Function.comp_def] using hfilter

namespace Holds

variable {store store' : Store} {text : String} {entries entries' : List (Nat × Scope)}

/-- A store holds the same entries in another order. -/
theorem congr (h : store.Holds text entries) (hperm : entries.Perm entries') :
    store.Holds text entries' :=
      ⟨h.text_eq, h.spanned, h.ordered, h.trimmed, h.perm.trans hperm⟩

/-- A level of a store is in order. -/
theorem ordered_levelAt (h : store.Holds text entries) (n : Nat) :
    (levelAt store.levels n).Ordered :=
  Store.ordered_levelAt h.ordered n

/-- Stores that hold the same are equal. -/
theorem eq (h : store.Holds text entries) (h' : store'.Holds text entries) : store = store' := by
  have hperm : (number 0 store.levels).Perm (number 0 store'.levels) := h.perm.trans h'.perm.symm
  -- Level by level the scopes are the same, and the order of a level leaves no choice.
  have hlevel : ∀ n, levelAt store.levels n = levelAt store'.levels n := fun n =>
    (h.ordered_levelAt n).eq_of_perm (h'.ordered_levelAt n) (levelAt_perm hperm n)
  -- Neither store ends in an empty level, so that there are as many levels.
  have hlength : store.levels.length = store'.levels.length :=
    Nat.le_antisymm (length_le_of_trimmed h.trimmed fun n scope hs => hlevel n ▸ hs)
      (length_le_of_trimmed h'.trimmed fun n scope hs => hlevel n ▸ hs)
  have hlevels : store.levels = store'.levels := by
    refine List.ext_getElem hlength fun n h1 h2 => ?_
    have := hlevel n
    rwa [levelAt, levelAt, List.getElem?_eq_getElem h1, List.getElem?_eq_getElem h2] at this
  obtain ⟨text1, levels1, global1⟩ := store
  obtain ⟨text2, levels2, global2⟩ := store'
  obtain rfl : text1 = text2 := h.text_eq.trans h'.text_eq.symm
  obtain rfl : levels1 = levels2 := hlevels
  obtain rfl : global1 = global2 := h.spanned.trans h'.spanned.symm
  rfl

/-- A text without scopes holds nothing. -/
theorem ofText (text : String) : (Store.ofText text).Holds text [] :=
  ⟨rfl, rfl, by simp [Store.ofText], by simp [Trimmed, Store.ofText], .refl _⟩

end Holds

/-- Something stands where a scope is put. -/
theorem place_ne_nil (scope : Scope) (n : Nat) (levels : List Level) :
    place scope n levels ≠ [] := by
  unfold place
  split <;> (try split) <;> exact List.cons_ne_nil _ _

/-- A level in front of others leaves the end as it is. -/
theorem trimmed_cons {level : Level} {levels : List Level} (hne : levels ≠ []) :
    Trimmed (level :: levels) ↔ Trimmed levels := by
  obtain ⟨first, rest, rfl⟩ := List.exists_cons_of_ne_nil hne
  rw [Trimmed, List.getLast?_cons_cons, Trimmed]

/-- A scope has been put on level `m`, and nothing else is changed. -/
structure Placed (scope : Scope) (m : Nat) (before after : List Level) : Prop where
  perm : ∀ k, (number k after).Perm ((k + m, scope) :: number k before)
  ordered : ∀ level ∈ after, level.Ordered
  trimmed : Trimmed before → Trimmed after

/-- Putting a scope on a level goes on as before when another level stands in front. -/
theorem Placed.cons {scope : Scope} {m : Nat} {before after : List Level} {level : Level}
    (h : Placed scope m before after) (hordered : level.Ordered) (hne : after ≠ []) :
    Placed scope (m + 1) (level :: before) (level :: after) := by
  refine ⟨fun k => ?_, List.forall_mem_cons.2 ⟨hordered, h.ordered⟩, fun htrim => ?_⟩
  · have := (h.perm (k + 1)).append_left (level.map fun scope => (k, scope))
    rw [show k + 1 + m = k + (m + 1) by omega] at this
    exact this.trans List.perm_middle
  · refine (trimmed_cons hne).2 (h.trimmed ?_)
    cases before with
    | nil => simp [Trimmed]
    | cons next rest => exact (trimmed_cons (List.cons_ne_nil _ _)).1 htrim

/-- A scope is put on some level, and nothing else is changed. When it collides with nothing on the
level that it is meant for, it is put there. -/
theorem place_spec {scope : Scope} {n : Nat} {levels : List Level}
    (hordered : ∀ level ∈ levels, level.Ordered) (hshown : scope.span.start < scope.span.stop) :
    ∃ m, ((levelAt levels n).collides scope.span = false → m = n) ∧
      Placed scope m levels (place scope n levels) := by
  induction n, levels using place.induct scope with
  | case1 =>
    -- There is no level left: the scope gets one of its own.
    have hone : Level.Ordered [scope] := ⟨List.pairwise_singleton _ _, by simpa using hshown⟩
    rw [place]
    exact ⟨0, fun _ => rfl, fun k => .refl _, by simpa using hone, fun _ => by simp [Trimmed]⟩
  | case2 level levels hcollides ih =>
    -- The level is taken, and the scope goes further in.
    obtain ⟨hlevel, hlevels⟩ := List.forall_mem_cons.1 hordered
    obtain ⟨m, -, hplaced⟩ := ih hlevels
    rw [place, if_pos hcollides]
    refine ⟨m + 1, fun hfree => ?_, hplaced.cons hlevel (place_ne_nil _ _ _)⟩
    rw [show levelAt (level :: levels) 0 = level from rfl, hcollides] at hfree
    cases hfree
  | case3 level levels hnot =>
    -- The scope collides with nothing here, and stays on this level.
    obtain ⟨hlevel, hlevels⟩ := List.forall_mem_cons.1 hordered
    have hinsert := hlevel.insert hshown (Bool.not_eq_true _ ▸ hnot)
    rw [place, if_neg hnot]
    refine ⟨0, fun _ => rfl, fun k => ?_, List.forall_mem_cons.2 ⟨hinsert, hlevels⟩,
      fun htrim => ?_⟩
    · have hperm := (Level.insert_perm level scope).map fun scope => (k, scope)
      exact hperm.append_right _
    · -- The level that gets the scope may be the last; it is not empty then.
      cases levels with
      | nil =>
        have hmem := (Level.insert_perm level scope).mem_iff.2 List.mem_cons_self
        intro hlast
        obtain hnil : level.insert scope = [] := by simpa using hlast
        rw [hnil] at hmem
        cases hmem
      | cons next rest =>
        exact (trimmed_cons (List.cons_ne_nil _ _)).2
          ((trimmed_cons (List.cons_ne_nil _ _)).1 htrim)
  | case4 n ih =>
    -- A level that is not there yet is opened, and the scope goes further in.
    obtain ⟨m, hm, hperm, hord, htrim⟩ := ih (by simp)
    obtain rfl := hm rfl
    rw [place]
    refine ⟨m + 1, fun _ => rfl, fun k => ?_, List.forall_mem_cons.2 ⟨.nil, hord⟩,
      fun _ => ?_⟩
    · have := hperm (k + 1)
      rwa [show k + 1 + m = k + (m + 1) by omega] at this
    · exact (trimmed_cons (place_ne_nil _ _ _)).2 (htrim (by simp [Trimmed]))
  | case5 n level levels ih =>
    -- The level is passed over on the way to a higher one.
    obtain ⟨hlevel, hlevels⟩ := List.forall_mem_cons.1 hordered
    obtain ⟨m, hm, hplaced⟩ := ih hlevels
    rw [place]
    exact ⟨m + 1, fun hfree => congrArg (· + 1) (hm hfree),
      hplaced.cons hlevel (place_ne_nil _ _ _)⟩

/-- A token that shows nothing puts nothing into a store. -/
theorem addToken_of_not (store : Store) {token : Token} (h : ¬ token.Shown) :
    store.addToken token = store := by
  have hempty : token.scope.span.isEmpty = true := (Span.isEmpty_iff _).2 (Nat.le_of_not_lt h)
  unfold Store.addToken Store.add
  rw [if_pos hempty]

namespace Holds

variable {store : Store} {text : String} {entries : List (Nat × Scope)} {token : Token}

/-- A scope that shares no byte with what is on its level is put there. -/
theorem add (h : store.Holds text entries) {scope : Scope} {n : Nat}
    (hshown : scope.span.start < scope.span.stop)
    (hfree : ∀ other, (n, other) ∈ entries →
      other.span.stop ≤ scope.span.start ∨ scope.span.stop ≤ other.span.start) :
    (store.add scope n).Holds text ((n, scope) :: entries) := by
  have hne : ¬scope.span.isEmpty = true := by
    rw [Span.isEmpty_iff]
    exact Nat.not_le_of_lt hshown
  -- No scope of the asked level shares a byte with the new one.
  have hcollides : (levelAt store.levels n).collides scope.span = false :=
    (h.ordered_levelAt n).collides_eq_false_iff.2 fun other ho =>
      hfree other (h.perm.mem_iff.1 (mem_toList.2 ho))
  obtain ⟨m, hm, hplaced⟩ := place_spec (n := n) h.ordered hshown
  obtain rfl := hm hcollides
  unfold Store.add
  rw [if_neg hne]
  refine ⟨h.text_eq, h.spanned, hplaced.ordered, hplaced.trimmed h.trimmed, ?_⟩
  have := hplaced.perm 0
  rw [Nat.zero_add] at this
  exact this.trans (h.perm.cons _)

/-- A token that shares no byte with what is on its level puts its scope there. -/
theorem addToken (h : store.Holds text entries) (hshown : token.Shown)
    (hfree : ∀ scope, (token.level, scope) ∈ entries →
      scope.span.stop ≤ token.span.start ∨ token.span.stop ≤ scope.span.start) :
    (store.addToken token).Holds text (token.entry :: entries) := h.add hshown hfree

/-- Tokens that fit one another and what is there put in all that they stand for. -/
theorem addTokens {tokens : List Token} (h : store.Holds text entries)
    (hfits : tokens.Pairwise Token.Fits)
    (hfree : ∀ token ∈ tokens, token.Shown → ∀ scope, (token.level, scope) ∈ entries →
      scope.span.stop ≤ token.span.start ∨ token.span.stop ≤ scope.span.start) :
    (tokens.foldl Store.addToken store).Holds text (Token.entries tokens ++ entries) := by
  induction tokens generalizing store entries with
  | nil => exact h
  | cons token tokens ih =>
    obtain ⟨hfirst, hrest⟩ := List.pairwise_cons.1 hfits
    have hfree' := List.forall_mem_cons.1 hfree
    rw [List.foldl_cons]
    by_cases hshown : token.Shown
    · -- What comes in is in the way of no later token, since the tokens fit one another.
      have hadd := h.addToken hshown (hfree'.1 hshown)
      refine (ih hadd hrest fun other ho hother scope hs => ?_).congr ?_
      · rcases List.mem_cons.1 hs with hs | hs
        · obtain ⟨hlevel, rfl⟩ := Prod.mk.inj hs
          exact hfirst other ho hlevel.symm hshown hother
        · exact hfree'.2 other ho hother scope hs
      · rw [Token.entries_cons tokens hshown]
        exact List.perm_middle
    · -- An empty token is no scope.
      rw [addToken_of_not store hshown, Token.entries_cons_of_not tokens hshown]
      exact ih h hrest hfree'.2

end Holds

end Store

end TextScopes
