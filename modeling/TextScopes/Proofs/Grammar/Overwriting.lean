import Mathlib.Data.List.Nodup
import TextScopes.Proofs.Grammar.Includes
import TextScopes.Proofs.Grammar.Words

/-!
# Overwriting links in place

Links can also be followed by overwriting, as `resolve_one` does: each with a copy of what is at its
target, once the target is overwritten itself (`Languages.overwrite`). Every language that is added
is overwritten by itself first, as far as its links stay in it (`resolve_internal`), and all of them
together in the end (`resolve_external`); a link that is then left matches nothing (`finish`). That
is `Languages.overwriteEach`.

At no moment is there at a place anything but its own link, or the rule that its chain ends in
(`Languages.Stands`): a copy moves a rule one link back along its chain, and the chain of a link
that leads to a copy ends in the same rule. A link whose chain ends is overwritten when its turn
comes, since no place on the chain is being visited already (`Languages.overwrite_of_endsIn`), and a
rule stays. So the order does not matter, and the graph is the one that following each chain gives
(`Languages.overwriteEach_eq`).
-/

namespace TextScopes

variable {E : Engine}

/-- What is left of a place when no more links are followed. -/
def Slot.closed : Slot E → Rule E
  | .rule own => own
  | .link _ => .inert E

/-- What a language has besides its places: its name, how many they are, and its repository. -/
def Language.frame (language : Language E) : String × Nat × Repository :=
  (language.scopeName, language.slots.size, language.repository)

namespace Languages

variable {languages built original front : Languages E} {base : String} {base? : Option String}
  {id target : RuleId} {visiting : List RuleId} {link : Link} {rule : Rule E}
  {slot : Slot E} {k : Nat}

/-- Puts something at a place. -/
def put (languages : Languages E) (id : RuleId) (slot : Slot E) : Languages E :=
  languages.map fun language =>
    if language.scopeName = id.language then
      { language with slots := language.slots.setIfInBounds id.index slot }
    else language

/-- The target of a link as far as it is known: before there is a language that is compiled, only
what is in the link's own. -/
def known? (languages : Languages E) (base? : Option String) (link : Link) : Option RuleId :=
  match base? with
  | some base => languages.target? base link
  | none => if link.reference.isInternal then languages.target? link.language link else none

/-- The places that are not visited get fewer with each one that is. -/
theorem length_unvisited_lt (hslot : languages.slot? id = some slot) (h : id ∉ visiting) :
    (languages.places.filter (· ∉ id :: visiting)).length <
      (languages.places.filter (· ∉ visiting)).length := by
  have hsplit : languages.places.filter (· ∉ id :: visiting) =
      (languages.places.filter (· ∉ visiting)).filter (· ≠ id) := by
    rw [List.filter_filter]
    refine List.filter_congr fun place _ => ?_
    simp
  rw [hsplit]
  have hmem : id ∈ languages.places.filter (· ∉ visiting) :=
    List.mem_filter.2 ⟨mem_places hslot, by simpa using h⟩
  exact List.length_filter_lt_length_iff_exists.2 ⟨id, hmem, by simp⟩

/-- Overwrites the link at a place with a copy of what is at its target, once that is overwritten
itself, and says whether there is a rule then. A link that is being visited already is left. -/
def overwrite (base? : Option String) (languages : Languages E) (visiting : List RuleId)
    (id : RuleId) : Languages E × Bool :=
  match _hslot : languages.slot? id with
  | none => (languages, false)
  | some (.rule _) => (languages, true)
  | some (.link link) =>
    if _hvisiting : id ∈ visiting then (languages, false)
    else
      match languages.known? base? link with
      | none => (languages, false)
      | some target =>
        match overwrite base? languages (id :: visiting) target with
        | (languages, false) => (languages, false)
        | (languages, true) =>
          match languages.slot? target with
          | none => (languages, false)
          | some slot => (languages.put id slot, true)
termination_by (languages.places.filter (· ∉ visiting)).length
decreasing_by exact length_unvisited_lt _hslot _hvisiting

/-- Overwrites the links at some places, one after the other. -/
def overwriteAll (base? : Option String) (ids : List RuleId) (languages : Languages E) :
    Languages E :=
  ids.foldl (fun languages id => (languages.overwrite base? [] id).1) languages

/-- Adds a language, and overwrites the links at some places as far as they stay in theirs. -/
def addOne (internal : String → List RuleId) (built : Languages E) (language : Language E) :
    Languages E :=
  overwriteAll none (internal language.scopeName) (built ++ [language])

/-- Adds languages, one after the other. -/
def addEach (internal : String → List RuleId) (languages : Languages E) : Languages E :=
  languages.foldl (addOne internal) []

/-- The graph of languages when links are overwritten in the orders given. -/
def overwriteEach (internal : String → List RuleId) (external : List RuleId) (base : String)
    (languages : Languages E) : Graph E :=
  ⟨(overwriteAll (some base) external (addEach internal languages)).map fun language =>
    (language.scopeName, language.slots.map Slot.closed)⟩

/-! ### What overwriting leaves as it is -/

/-- Languages with the same frames are found alike. -/
theorem map_frame_find? (h : built.map Language.frame = languages.map Language.frame)
    (name : String) :
    (built.find? name).map Language.frame = (languages.find? name).map Language.frame := by
  have hfind : ∀ ls : Languages E, (ls.find? name).map Language.frame =
      (ls.map Language.frame).find? (·.1 = name) := fun ls => by
    rw [List.find?_map]
    rfl
  rw [hfind, hfind, h]

/-- Languages with the same frames have the same places. -/
theorem isSome_slot? (h : built.map Language.frame = languages.map Language.frame) :
    (built.slot? id).isSome = (languages.slot? id).isSome := by
  have hslot : ∀ ls : Languages E, (ls.slot? id).isSome =
      ((ls.find? id.language).map Language.frame).any (id.index < ·.2.1) := fun ls => by
    rw [slot?]
    cases ls.find? id.language with
    | none => rfl
    -- Whether there is a slot only depends on the size, which is in the frame.
    | some language =>
      show (language.slots[id.index]?).isSome = decide (id.index < language.slots.size)
      rw [Bool.eq_iff_iff, Option.isSome_iff_exists, decide_eq_true_eq]
      refine ⟨?_, fun hlt => ⟨_, Array.getElem?_eq_getElem hlt⟩⟩
      rintro ⟨slot, hslot⟩
      exact (Array.getElem?_eq_some_iff.1 hslot).1
  rw [hslot, hslot, map_frame_find? h]

/-- Links have the same targets in languages with the same frames. -/
theorem target?_eq (h : built.map Language.frame = languages.map Language.frame) :
    built.target? base link = languages.target? base link := by
  -- Only a reference to another language looks at one, and then at its frame.
  cases hreference : link.reference with
  | entry key => simp only [target?, hreference]
  | self => simp only [target?, hreference]
  | base => simp only [target?, hreference]
  | language name =>
    have htarget : ∀ ls : Languages E, ls.target? base link =
        ((ls.find? name).map Language.frame).map fun _ => ⟨name, 0⟩ := fun ls => by
      simp only [target?, hreference]
      cases ls.find? name <;> rfl
    rw [htarget, htarget, map_frame_find? h]
  | languageEntry name key =>
    have htarget : ∀ ls : Languages E, ls.target? base link =
        ((ls.find? name).map Language.frame).bind fun frame =>
          (Repository.lookup? [frame.2.2] key).bind fun index => some ⟨name, index⟩ :=
            fun ls => by
      simp only [target?, hreference]
      cases ls.find? name <;> rfl
    rw [htarget, htarget, map_frame_find? h]

/-- Nothing but the place itself changes when something is put there. -/
theorem map_frame_put (languages : Languages E) (id : RuleId) (slot : Slot E) :
    (languages.put id slot).map Language.frame = languages.map Language.frame := by
  rw [put, List.map_map]
  refine List.map_congr_left fun language _ => ?_
  by_cases hname : language.scopeName = id.language <;> simp [Language.frame, hname]

/-- What is at a place when something is put there, or elsewhere. -/
theorem slot?_put {other : RuleId} : (languages.put id slot).slot? other =
    if other = id then (languages.slot? id).map fun _ => slot else languages.slot? other := by
  have hfind : (languages.put id slot).find? other.language =
      (languages.find? other.language).map fun language =>
        if language.scopeName = id.language then
          { language with slots := language.slots.setIfInBounds id.index slot }
        else language := by
    rw [find?, put, List.find?_map]
    congr 2
    ext language
    by_cases hname : language.scopeName = id.language <;> simp [hname]
  rw [slot?, hfind]
  cases hlanguage : languages.find? other.language with
  -- In a language that is missing nothing is found or put.
  | none =>
    have hnone : languages.slot? other = none := by rw [slot?, hlanguage]; rfl
    by_cases heq : other = id
    · rw [if_pos heq, ← heq, hnone]
      rfl
    · rw [if_neg heq, hnone]
      rfl
  | some language =>
    have hname : language.scopeName = other.language := by
      simpa using List.find?_some hlanguage
    have hslot : languages.slot? other = language.slots[other.index]? := by
      rw [slot?, hlanguage]
      rfl
    by_cases heq : other = id
    · rw [if_pos heq, ← heq, hslot, Option.map_some, if_pos hname]
      show (language.slots.setIfInBounds other.index slot)[other.index]? = _
      by_cases hindex : other.index < language.slots.size <;>
        simp [hindex]
    · rw [if_neg heq, hslot, Option.map_some]
      -- Another place of the same language, or one of another language.
      by_cases hlang : language.scopeName = id.language
      · have hindex : id.index ≠ other.index := fun hindex =>
          heq (by cases id; cases other; simp_all)
        rw [if_pos hlang]
        show (language.slots.setIfInBounds id.index slot)[other.index]? = _
        rw [Array.getElem?_setIfInBounds_ne hindex]
      · rw [if_neg hlang]
        rfl

/-! ### What is at the places meanwhile -/

/-- At every place is its own link, or the rule that its chain ends in. -/
structure Stands (original : Languages E) (base : String) (built : Languages E) : Prop where
  rule : ∀ id rule, built.slot? id = some (.rule rule) → ∃ k, original.EndsIn base k id rule
  link : ∀ id link, built.slot? id = some (.link link) → original.slot? id = some (.link link)

/-- What overwriting does to languages: names, places and rules stay, and so does what the places
stand for. -/
structure Overwritten (original : Languages E) (base : String) (before after : Languages E) :
    Prop where
  frame : after.map Language.frame = before.map Language.frame
  rule : ∀ id rule, before.slot? id = some (.rule rule) → after.slot? id = some (.rule rule)
  stands : original.Stands base after

/-- A copy of what is at the target of a link stands for what the link does. -/
theorem Stands.put (h : original.Stands base built) (hleads : original.Leads base id target)
    (hrule : built.slot? target = some (.rule rule)) :
    original.Stands base (built.put id (.rule rule)) := by
  refine ⟨fun place own hown => ?_, fun place link hlink => ?_⟩
  · rw [slot?_put] at hown
    split at hown
    -- The copy is what the chain of the link ends in, one link earlier.
    next heq =>
      subst heq
      obtain ⟨-, -, hown⟩ := Option.map_eq_some_iff.1 hown
      obtain rfl := Slot.rule.inj hown
      obtain ⟨k, hends⟩ := h.rule target rule hrule
      exact ⟨k + 1, .link hleads hends⟩
    next => exact h.rule place own hown
  · rw [slot?_put] at hlink
    split at hlink
    -- Where a rule was put there is no link.
    next =>
      obtain ⟨-, -, hlink⟩ := Option.map_eq_some_iff.1 hlink
      cases hlink
    next => exact h.link place link hlink

/-- Languages that are left as they are keep all. -/
theorem Stands.overwritten_self (h : original.Stands base built) :
    Overwritten original base built built :=
  ⟨rfl, fun _ _ hrule => hrule, h⟩

/-- What overwriting does once it does after more of it. -/
theorem Overwritten.trans {before after : Languages E} (h : Overwritten original base before built)
    (h' : Overwritten original base built after) : Overwritten original base before after :=
  ⟨h'.frame.trans h.frame, fun id rule hrule => h'.rule id rule (h.rule id rule hrule),
    h'.stands⟩

/-- A copy of what is at the target of a link keeps what overwriting keeps. -/
theorem Stands.overwritten_put (h : original.Stands base built)
    (hleads : original.Leads base id target) (hrule : built.slot? target = some (.rule rule)) :
    Overwritten original base built (built.put id (.rule rule)) := by
  refine ⟨map_frame_put built id _, fun place own hown => ?_, h.put hleads hrule⟩
  rw [slot?_put]
  split
  next heq =>
    -- A rule that is there already is what the chain from there on ends in, as is the copy.
    subst heq
    obtain ⟨j, hends⟩ := h.rule target rule hrule
    obtain ⟨i, hown'⟩ := h.rule place own hown
    rw [hown, Option.map_some, (hown'.unique (.link hleads hends)).2]
  next => exact hown

/-- Overwriting a link keeps what the places stand for, and leaves a rule when it says so. -/
theorem overwrite_spec (visiting : List RuleId) (id : RuleId) (h : original.Stands base built)
    (hknown : ∀ link target, built.known? base? link = some target →
      original.target? base link = some target) :
    Overwritten original base built (built.overwrite base? visiting id).1 ∧
      ((built.overwrite base? visiting id).2 = true →
        ∃ rule, (built.overwrite base? visiting id).1.slot? id = some (.rule rule)) := by
  fun_induction overwrite base? built visiting id with
  -- Nothing is found, and nothing is changed.
  | case1 | case3 | case4 => exact ⟨h.overwritten_self, fun hfound => by cases hfound⟩
  | case2 visiting id rule hslot => exact ⟨h.overwritten_self, fun _ => ⟨rule, hslot⟩⟩
  -- The target could not be settled; what was overwritten on the way stays right.
  | case5 visiting id link _ _ target _ after hafter ih =>
    rw [hafter] at ih
    exact ⟨ih.1, fun hfound => by cases hfound⟩
  | case6 visiting id link _ _ target _ after hafter _ ih =>
    rw [hafter] at ih
    exact ⟨ih.1, fun hfound => by cases hfound⟩
  -- The target holds a rule, which is copied.
  | case7 visiting id link hslot _ target htarget after hafter slot hcopy ih =>
    rw [hafter] at ih
    obtain ⟨hover, hfound⟩ := ih
    obtain ⟨rule, hrule⟩ := hfound rfl
    obtain rfl : slot = .rule rule := Option.some.inj (hcopy.symm.trans hrule)
    have hleads : original.Leads base id target :=
      ⟨link, h.link id link hslot, hknown link target htarget⟩
    refine ⟨hover.trans (hover.stands.overwritten_put hleads hrule), fun _ => ⟨rule, ?_⟩⟩
    -- The place of the link is still there to be overwritten.
    have hplace : (after.slot? id).isSome = true := by
      rw [isSome_slot? hover.frame, hslot]
      rfl
    obtain ⟨old, hold⟩ := Option.isSome_iff_exists.1 hplace
    rw [slot?_put, if_pos rfl, hold]
    rfl

/-- None of the places that are being visited is met on the last `k` links of a chain: as far as the
chain from one of them ends, it has more links. -/
def Behind (original : Languages E) (base : String) (visiting : List RuleId) (k : Nat) : Prop :=
  ∀ place ∈ visiting, ∀ j own, original.EndsIn base j place own → k < j

/-- Behind a link that is still at its place, the chain ends too, and the place is not met on it. -/
theorem Stands.rest_of_link (h : original.Stands base built)
    (hslot : built.slot? id = some (.link link)) (hends : original.EndsIn base k id rule)
    (hbehind : original.Behind base visiting k) :
    ∃ target j, original.target? base link = some target ∧
      original.EndsIn base j target rule ∧
      original.Behind base (id :: visiting) j := by
  have hown := h.link id link hslot
  -- What is a link was a link, so that its chain goes on at the target.
  cases hends with
  | rule found =>
    rw [hown] at found
    cases found
  | @link j _ target _ leads rest =>
    obtain ⟨link', hlink, htarget⟩ := leads
    rw [hown] at hlink
    obtain rfl := Slot.link.inj (Option.some.inj hlink)
    refine ⟨target, j, htarget, rest, ?_⟩
    -- The place itself, and those that were being visited.
    rintro place (_ | ⟨_, hplace⟩) i own hplaceEnds
    · rw [(hplaceEnds.unique (.link ⟨link, hown, htarget⟩ rest)).1]
      exact Nat.lt_succ_self j
    · exact Nat.lt_of_succ_lt (hbehind place hplace i own hplaceEnds)

/-- A link whose chain ends is overwritten, unless a place from there to its end is being
visited. -/
theorem overwrite_of_endsIn (h : original.Stands base built)
    (hframe : built.map Language.frame = original.map Language.frame)
    (hends : original.EndsIn base k id rule) (hbehind : original.Behind base visiting k) :
    (built.overwrite (some base) visiting id).2 = true := by
  have hknown : ∀ link target, built.known? (some base) link = some target ↔
      original.target? base link = some target := fun link target => by
    rw [known?, target?_eq hframe]
  fun_induction overwrite (some base) built visiting id generalizing k with
  -- A place at which a chain begins is there.
  | case1 visiting id hslot =>
    obtain ⟨slot, hplace⟩ := hends.exists_slot?
    have hsome : (built.slot? id).isSome = (original.slot? id).isSome := isSome_slot? hframe
    rw [hslot, hplace] at hsome
    cases hsome
  | case2 => rfl
  -- A chain does not come back to a place that is being visited.
  | case3 visiting id link hslot hmem =>
    exact absurd (hbehind id hmem k rule hends) (Nat.lt_irrefl k)
  -- The target of a link on a chain is known.
  | case4 visiting id link hslot hmem hnone =>
    obtain ⟨target, j, htarget, -⟩ := h.rest_of_link hslot hends hbehind
    rw [(hknown link target).2 htarget] at hnone
    cases hnone
  | case5 visiting id link hslot hmem target htarget after hafter ih =>
    obtain ⟨target', j, htarget', hends, hbehind⟩ := h.rest_of_link hslot hends hbehind
    obtain rfl := Option.some.inj (((hknown link target).1 htarget).symm.trans htarget')
    have hfound := ih hends hbehind
    rwa [hafter] at hfound
  -- A place that was settled holds a rule.
  | case6 visiting id link hslot hmem target htarget after hafter hnone ih =>
    obtain ⟨own, hown⟩ :=
      (overwrite_spec (id :: visiting) target h
        fun link target => (hknown link target).1).2 (by rw [hafter])
    rw [hafter, hnone] at hown
    cases hown
  | case7 => rfl

/-- Overwriting in any order keeps what the places stand for. -/
theorem overwriteAll_spec (base? : Option String) (ids : List RuleId)
    (h : original.Stands base built)
    (hknown : ∀ after : Languages E, after.map Language.frame = built.map Language.frame →
      ∀ link target, after.known? base? link = some target →
        original.target? base link = some target) :
    Overwritten original base built (overwriteAll base? ids built) := by
  induction ids generalizing built with
  | nil => exact h.overwritten_self
  | cons id ids ih =>
    have hover := (overwrite_spec [] id h (hknown built rfl)).1
    exact hover.trans (ih hover.stands fun after hafter =>
      hknown after (hafter.trans hover.frame))

/-- Every link that is overwritten, and whose chain ends, is a rule then. -/
theorem overwriteAll_of_endsIn {ids : List RuleId} (h : original.Stands base built)
    (hframe : built.map Language.frame = original.map Language.frame)
    (hends : original.EndsIn base k id rule) (hmem : id ∈ ids) :
    ∃ own, (overwriteAll (some base) ids built).slot? id = some (.rule own) := by
  have hknown : ∀ after : Languages E, after.map Language.frame = original.map Language.frame →
      ∀ link target, after.known? (some base) link = some target →
        original.target? base link = some target := fun after hafter link target htarget => by
    rwa [known?, target?_eq hafter] at htarget
  induction ids generalizing built with
  | nil => cases hmem
  | cons first ids ih =>
    obtain ⟨hover, hrule⟩ :=
      overwrite_spec [] first h (hknown built hframe)
    have hframe' := hover.frame.trans hframe
    -- Once overwritten, a place keeps its rule.
    rcases List.mem_cons.1 hmem with rfl | hmem
    · have hnone : original.Behind base [] k := fun place hplace => by cases hplace
      obtain ⟨own, hown⟩ := hrule (overwrite_of_endsIn h hframe hends hnone)
      have hafter := overwriteAll_spec (some base) ids hover.stands fun after hafter =>
        hknown after (hafter.trans hframe')
      exact ⟨own, hafter.rule id own hown⟩
    · exact ih hover.stands hframe' hmem

/-- Before there is a language that is compiled, what is known of a target is so in the end. -/
theorem known?_none (h : languages.known? none link = some target) :
    original.target? base link = some target := by
  rw [known?] at h
  match hreference : link.reference with
  | .entry key | .self => simpa [hreference, Reference.isInternal, target?] using h
  | .base | .language name | .languageEntry name key =>
    simp [hreference, Reference.isInternal] at h

/-- Where nothing is, nothing is wrong. -/
theorem stands_nil (original : Languages E) (base : String) : original.Stands base [] := by
  have hnone : ∀ id, slot? ([] : Languages E) id = none := fun id => rfl
  refine ⟨fun id rule hslot => ?_, fun id link hslot => ?_⟩ <;> rw [hnone] at hslot <;>
    cases hslot

/-- Adding the next language and overwriting links keeps what the places stand for. -/
theorem addOne_spec {language : Language E} {rest : Languages E} (internal : String → List RuleId)
    (hframe : built.map Language.frame = front.map Language.frame)
    (h : (front ++ language :: rest).Stands base built) :
    (addOne internal built language).map Language.frame =
        (front ++ [language]).map Language.frame ∧
      (front ++ language :: rest).Stands base (addOne internal built language) := by
  -- What is found in the new language is as it was.
  have hadd : ∀ id slot, slot? (built ++ [language]) id = some slot →
      built.slot? id = some slot ∨ slot? (front ++ language :: rest) id = some slot := by
    intro id slot hslot
    obtain ⟨found, hfind, hslot⟩ := slot?_eq_some_iff.1 hslot
    rw [find?_append] at hfind
    -- A name that is there already hides the new language.
    cases hbuilt : built.find? id.language with
    | some own =>
      rw [hbuilt, Option.some_or] at hfind
      obtain rfl := Option.some.inj hfind
      exact .inl (slot?_eq_some_iff.2 ⟨_, hbuilt, hslot⟩)
    | none =>
      have hfront := map_frame_find? hframe id.language
      rw [hbuilt] at hfront
      rw [hbuilt, Option.none_or] at hfind
      refine .inr (slot?_eq_some_iff.2 ⟨found, ?_, hslot⟩)
      rw [← List.singleton_append, find?_append, find?_append,
        Option.map_eq_none_iff.1 hfront.symm, hfind, Option.none_or, Option.some_or]
  have hadded : (front ++ language :: rest).Stands base (built ++ [language]) := by
    -- A rule of the new language ends its own chain.
    refine ⟨fun id rule hrule => ?_, fun id link hlink => ?_⟩
    · rcases hadd id _ hrule with hrule | hrule
      · exact h.rule id rule hrule
      · exact ⟨0, .rule hrule⟩
    · rcases hadd id _ hlink with hlink | hlink
      · exact h.link id link hlink
      · exact hlink
  have hover := overwriteAll_spec none (internal language.scopeName) hadded
    fun _ _ _ _ htarget => known?_none htarget
  refine ⟨?_, hover.stands⟩
  rw [addOne, hover.frame, List.map_append, List.map_append, hframe]

/-- Adding languages and overwriting links keeps what the places stand for. -/
theorem addEach_spec (languages : Languages E) (base : String) (internal : String → List RuleId) :
    (addEach internal languages).map Language.frame = languages.map Language.frame ∧
      languages.Stands base (addEach internal languages) := by
  -- The induction is on the languages that are still to be added.
  have hrest : ∀ rest front built : Languages E,
      built.map Language.frame = front.map Language.frame →
      (front ++ rest).Stands base built →
      (rest.foldl (addOne internal) built).map Language.frame =
        (front ++ rest).map Language.frame ∧
        (front ++ rest).Stands base (rest.foldl (addOne internal) built) := by
    intro rest
    induction rest with
    | nil =>
      intro front built hframe hstands
      rw [List.append_nil] at hstands ⊢
      exact ⟨hframe, hstands⟩
    | cons language rest ih =>
      intro front built hframe hstands
      obtain ⟨hframe', hstands'⟩ := addOne_spec internal hframe hstands
      rw [List.append_cons] at hstands' ⊢
      exact ih (front ++ [language]) _ hframe' hstands'
  exact hrest languages [] [] rfl (stands_nil languages base)

/-- Overwriting the links of each language, and then some links of all, keeps what the places stand
for. -/
theorem overwriteAll_addEach_spec (languages : Languages E) (base : String)
    (internal : String → List RuleId) (external : List RuleId) :
    (overwriteAll (some base) external (addEach internal languages)).map Language.frame =
        languages.map Language.frame ∧
      languages.Stands base (overwriteAll (some base) external (addEach internal languages)) := by
  obtain ⟨hframe, hstands⟩ := addEach_spec languages base internal
  have hover := overwriteAll_spec (some base) external hstands
    fun after hafter link target htarget => by
      rwa [known?, target?_eq (hafter.trans hframe)] at htarget
  exact ⟨hover.frame.trans hframe, hover.stands⟩

/-- Languages with the same frames, each place of which holds what is left of another, are one
graph. -/
theorem graph_ext {languages built : Languages E} {f g : Slot E → Rule E}
    (hnames : (languages.map Language.scopeName).Nodup)
    (hframe : built.map Language.frame = languages.map Language.frame)
    (hslots : ∀ id slot slot', built.slot? id = some slot → languages.slot? id = some slot' →
      f slot = g slot') :
    (built.map fun language => (language.scopeName, language.slots.map f)) =
      languages.map fun language => (language.scopeName, language.slots.map g) := by
  have hbuilt : (built.map Language.scopeName).Nodup := by
    have hmap := congrArg (List.map (·.1)) hframe
    rw [List.map_map, List.map_map] at hmap
    exact hmap ▸ hnames
  have hlength : built.length = languages.length := by simpa using congrArg List.length hframe
  refine List.ext_getElem (by simpa using hlength) fun i hi hi' => ?_
  -- Language by language, and slot by slot in each.
  rw [List.length_map] at hi hi'
  have hat : built[i].frame = languages[i].frame := by
    have hmap := List.getElem_of_eq hframe ((List.length_map _).symm ▸ hi)
    rwa [List.getElem_map, List.getElem_map] at hmap
  have hname : built[i].scopeName = languages[i].scopeName := congrArg (·.1) hat
  have hsize : built[i].slots.size = languages[i].slots.size := congrArg (·.2.1) hat
  rw [List.getElem_map, List.getElem_map]
  refine Prod.ext hname (Array.ext (by simpa using hsize) fun j hj hj' => ?_)
  rw [Array.size_map] at hj hj'
  rw [Array.getElem_map, Array.getElem_map]
  refine hslots ⟨languages[i].scopeName, j⟩ _ _ (slot?_eq_some_iff.2 ⟨built[i], ?_, ?_⟩)
    (slot?_eq_some_iff.2 ⟨languages[i], ?_, ?_⟩)
  · exact hname ▸ find?_of_mem hbuilt (List.getElem_mem hi)
  · exact Array.getElem?_eq_getElem hj
  · exact find?_of_mem hnames (List.getElem_mem hi')
  · exact Array.getElem?_eq_getElem hj'

/-- The graph of overwriting, in whatever orders, is that of following each chain. -/
theorem overwriteEach_eq (internal : String → List RuleId) {external : List RuleId}
    (hnames : (languages.map Language.scopeName).Nodup)
    (hall : ∀ id link, languages.slot? id = some (.link link) → id ∈ external) :
    overwriteEach internal external base languages = Grammar.settle languages base := by
  obtain ⟨hframe, hstands⟩ := addEach_spec languages base internal
  obtain ⟨hframe', hover⟩ := overwriteAll_addEach_spec languages base internal external
  refine congrArg Graph.mk (graph_ext hnames hframe' ?_)
  intro id left slot hleft hslot
  by_cases hends : ∃ k rule, languages.EndsIn base k id rule
  · obtain ⟨k, rule, hends⟩ := hends
    rw [settle_of_endsIn hslot hends]
    cases left with
    | rule own =>
      obtain ⟨j, hown⟩ := hover.rule id own hleft
      exact (hown.unique hends).2
    | link link =>
      -- All links have been overwritten by now, and this one could be.
      have hmem := hall id link (hover.link id link hleft)
      obtain ⟨own, hown⟩ := overwriteAll_of_endsIn hstands hframe hends hmem
      rw [hleft] at hown
      cases hown
  · -- Without an end of the chain the place is inert, whatever it holds by now.
    have hnone : ∀ k rule, ¬languages.EndsIn base k id rule :=
      fun k rule h => hends ⟨k, rule, h⟩
    rw [settle_of_not_endsIn hslot hnone]
    cases left with
    | rule own =>
      obtain ⟨j, hown⟩ := hover.rule id own hleft
      exact absurd hown (hnone j own)
    | link link => rfl

end Languages

namespace Grammar

/-- In a compiled grammar, an include stands for the rule that the includes from it on end at, or
for nothing when they break or return, and one of the three they do. To overwrite the links of each
language and then those of all, in whatever orders, gives the same graph. -/
theorem compile_includes {definition : Definition} {others : List Definition} {grammar : Grammar E}
    (h : compile E definition others = .ok grammar) :
    (∀ id rule, Definitions.Ends (definition :: others) definition.scopeName id rule →
      grammar.graph.rule? id = some rule) ∧
    (∀ id, Definitions.HasInclude E (definition :: others) id →
      Definitions.Breaks E (definition :: others) definition.scopeName id ∨
        Definitions.Returns E (definition :: others) definition.scopeName id →
      grammar.graph.rule? id = some (.inert E)) ∧
    (∀ id, Definitions.HasInclude E (definition :: others) id →
      (∃ rule : Rule E, Definitions.Ends (definition :: others) definition.scopeName id rule) ∨
        Definitions.Breaks E (definition :: others) definition.scopeName id ∨
        Definitions.Returns E (definition :: others) definition.scopeName id) ∧
    ∀ internal external,
      (∀ id, Definitions.HasInclude E (definition :: others) id → id ∈ external) →
      Languages.overwriteEach internal external definition.scopeName
        (Languages.extend E [] (definition :: others)) = grammar.graph := by
  obtain ⟨haccepted, rfl⟩ := compile_eq_ok_iff.1 h
  have hbase : (Definitions.present? E (definition :: others) definition.scopeName).isSome := by
    rw [Definitions.present?_head haccepted]
    rfl
  refine ⟨fun id rule hends => ?_, fun id hinclude hloose => ?_, fun id hinclude => ?_,
    fun internal external hall => ?_⟩
  · obtain ⟨k, hends⟩ := Definitions.ends_iff.1 hends
    obtain ⟨slot, hslot⟩ := hends.exists_slot?
    rw [rule?_settle, hslot, Option.map_some, Languages.settle_of_endsIn hslot hends]
  · obtain ⟨link, hlink⟩ := Definitions.hasInclude_iff.1 hinclude
    have hnone : ∀ k rule, ¬(Languages.extend E [] (definition :: others)).EndsIn
        definition.scopeName k id rule := fun k rule => by
      rcases hloose with hbreaks | hreturns
      · exact (Definitions.breaks_iff.1 hbreaks).not_endsIn
      · exact (Definitions.returns_iff.1 hreturns).not_endsIn
    rw [rule?_settle, hlink, Option.map_some, Languages.settle_of_not_endsIn hlink hnone]
  · obtain ⟨link, hlink⟩ := Definitions.hasInclude_iff.1 hinclude
    rcases Languages.ends_or_breaks_or_returns (Definitions.isClosed_extend hbase) hlink with
      ⟨k, rule, hends⟩ | hbreaks | hreturns
    · exact .inl ⟨rule, Definitions.ends_iff.2 ⟨k, hends⟩⟩
    · exact .inr (.inl (Definitions.breaks_iff.2 hbreaks))
    · exact .inr (.inr (Definitions.returns_iff.2 hreturns))
  · exact Languages.overwriteEach_eq internal (Definitions.nodup_extend [] _ List.nodup_nil)
      fun id link hlink => hall id (Definitions.hasInclude_iff.2 ⟨link, hlink⟩)

/-- In `host`, an include of an include stands for the tags, and two that include each other for
nothing. -/
theorem compile_includes_host : ∃ grammar,
    compile Engine.literal .host [.guest] = .ok grammar ∧
      (∃ rule, rule.name = some "tag" ∧
        grammar.graph.rule? ⟨"text.host", 6⟩ = some rule) ∧
      grammar.graph.rule? ⟨"text.host", 3⟩ = some (.inert Engine.literal) ∧
      Languages.overwriteEach (fun _ => [⟨"text.host", 6⟩])
        (Languages.extend Engine.literal [] [.host, .guest]).places "text.host"
        (Languages.extend Engine.literal [] [.host, .guest]) = grammar.graph := by
  have haccepted : Definition.host.IsAccepted Engine.literal := by decide +kernel
  have h : compile Engine.literal .host [.guest] = .ok _ := compile_eq_ok_iff.2 ⟨haccepted, rfl⟩
  obtain ⟨hends, hloose, -, horder⟩ := compile_includes h
  -- The tags at 6 by two links; 3 and 4, which include each other.
  refine ⟨_, h, ?_, ?_, horder _ _ ?_⟩
  · have hfollow : ((Languages.extend Engine.literal [] [.host, .guest]).follow? "text.host" 4
        ⟨"text.host", 6⟩).map (·.name) = some (some "tag") := by decide +kernel
    obtain ⟨rule, hrule, hname⟩ := Option.map_eq_some_iff.1 hfollow
    obtain ⟨k, -, hend⟩ := Languages.follow?_eq_some_iff.1 hrule
    exact ⟨rule, hname, hends _ rule (Definitions.ends_iff.2 ⟨k, hend⟩)⟩
  · have hleads : Definitions.Leads Engine.literal [.host, .guest] "text.host" ⟨"text.host", 3⟩
        ⟨"text.host", 4⟩ := by
      rw [← Definitions.leads_extend, ← Languages.next?_eq_some_iff]
      decide +kernel
    have hback : Definitions.Leads Engine.literal [.host, .guest] "text.host" ⟨"text.host", 4⟩
        ⟨"text.host", 3⟩ := by
      rw [← Definitions.leads_extend, ← Languages.next?_eq_some_iff]
      decide +kernel
    exact hloose _ hleads.hasInclude (.inr ⟨_, .refl, .head hleads (.single hback)⟩)
  · intro id hinclude
    obtain ⟨link, hlink⟩ := Definitions.hasInclude_iff.1 hinclude
    exact Languages.mem_places hlink

end Grammar

end TextScopes
