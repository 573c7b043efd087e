import Mathlib.Data.List.Nodup
import Mathlib.Data.List.Perm.Subperm
import Mathlib.Logic.Relation
import TextScopes.Grammar.Resolution
import TextScopes.Proofs.Table

/-!
# Chains of links

From a place, a link leads to at most one other (`Languages.Leads`), so that one chain starts there.
It ends in a rule (`Languages.EndsIn`), breaks at a link whose target is missing, or returns to a
place that it has passed; when links lead to places only, it does one of the three
(`Languages.ends_or_breaks_or_returns`).

A chain that ends passes no place twice, since the number of links that are still before it is
another at each. It is thus no longer than there are places (`Languages.EndsIn.lt_size`), which is
as far as `settle` follows it.
-/

namespace TextScopes

variable {E : Engine}

namespace Languages

variable {languages : Languages E} {base : String} {id target : RuleId} {link : Link}
  {rule rule' : Rule E} {slot : Slot E} {k k' : Nat}

/-- The places of all languages, those of one after those of the other. -/
def places (languages : Languages E) : List RuleId :=
  languages.flatMap fun language =>
    (List.range language.slots.size).map (⟨language.scopeName, ·⟩)

/-- There are as many places as the size says. -/
theorem length_places (languages : Languages E) : languages.places.length = languages.size := by
  induction languages with
  | nil => rfl
  | cons language rest ih =>
    rw [places, List.flatMap_cons, List.length_append, List.length_map, List.length_range]
    exact congrArg _ ih

/-- A language is looked for in the order of the languages. -/
theorem find?_append (front rest : Languages E) (name : String) :
    find? (front ++ rest) name = (front.find? name).or (rest.find? name) :=
  List.find?_append

/-- A language is found by its name. -/
theorem find?_singleton (language : Language E) (name : String) :
    find? [language] name = if language.scopeName = name then some language else none := by
  rw [find?, List.find?_singleton]
  simp only [decide_eq_true_eq]

/-- Of languages with different names, each is found. -/
theorem find?_of_mem {language : Language E} (hnames : (languages.map Language.scopeName).Nodup)
    (h : language ∈ languages) : languages.find? language.scopeName = some language :=
  Table.find?_key_of_mem hnames h

/-- What a language has at a place. -/
theorem slot?_eq_some_iff : languages.slot? id = some slot ↔
    ∃ language, languages.find? id.language = some language ∧
      language.slots[id.index]? = some slot := by
  rw [slot?]
  cases languages.find? id.language <;> simp

/-- There is something only at a place. -/
theorem mem_places (h : languages.slot? id = some slot) : id ∈ languages.places := by
  obtain ⟨language, hfind, hslot⟩ := slot?_eq_some_iff.1 h
  have hname : language.scopeName = id.language := by simpa using List.find?_some hfind
  obtain ⟨hindex, -⟩ := Array.getElem?_eq_some_iff.1 hslot
  refine List.mem_flatMap.2 ⟨language, List.mem_of_find?_eq_some hfind, ?_⟩
  exact List.mem_map.2 ⟨id.index, List.mem_range.2 hindex, by rw [hname]⟩

/-- A link leads from its place to the one that it names. -/
def Leads (languages : Languages E) (base : String) (id target : RuleId) : Prop :=
  ∃ link, languages.slot? id = some (.link link) ∧ languages.target? base link = some target

/-- The place that the link at a place leads to. -/
def next? (languages : Languages E) (base : String) (id : RuleId) : Option RuleId :=
  match languages.slot? id with
  | some (.link link) => languages.target? base link
  | _ => none

/-- The chain from a place on ends in a rule behind `k` links. -/
inductive EndsIn (languages : Languages E) (base : String) : Nat → RuleId → Rule E → Prop
  | rule {id : RuleId} {rule : Rule E} (found : languages.slot? id = some (.rule rule)) :
      EndsIn languages base 0 id rule
  | link {k : Nat} {id target : RuleId} {rule : Rule E} (leads : languages.Leads base id target)
      (rest : EndsIn languages base k target rule) : EndsIn languages base (k + 1) id rule

/-- A chain breaks at a link whose target is missing. -/
def Breaks (languages : Languages E) (base : String) (id : RuleId) : Prop :=
  ∃ last link, Relation.ReflTransGen (languages.Leads base) id last ∧
    languages.slot? last = some (.link link) ∧ languages.target? base link = none

/-- A chain returns to a place that it has passed. -/
def Returns (languages : Languages E) (base : String) (id : RuleId) : Prop :=
  ∃ place, Relation.ReflTransGen (languages.Leads base) id place ∧
    Relation.TransGen (languages.Leads base) place place

/-- Where the link at a place leads can be computed. -/
theorem next?_eq_some_iff :
    languages.next? base id = some target ↔ languages.Leads base id target := by
  rw [next?, Leads]
  cases languages.slot? id with
  | none => simp
  | some slot => cases slot <;> simp

/-- A link leads to one place. -/
theorem Leads.unique {other : RuleId} (h : languages.Leads base id target)
    (h' : languages.Leads base id other) : target = other :=
  Option.some.inj ((next?_eq_some_iff.2 h).symm.trans (next?_eq_some_iff.2 h'))

/-- The chain from a rule's place on has ended. -/
theorem EndsIn.of_rule (hslot : languages.slot? id = some (.rule rule))
    (h : languages.EndsIn base k id rule') : k = 0 ∧ rule' = rule := by
  cases h with
  | rule found =>
    rw [hslot] at found
    exact ⟨rfl, (Slot.rule.inj (Option.some.inj found)).symm⟩
  | link leads =>
    obtain ⟨link, hlink, -⟩ := leads
    rw [hslot] at hlink
    cases hlink

/-- The chain from a link's place on ends where that from its target on does. -/
theorem EndsIn.of_leads (hleads : languages.Leads base id target)
    (h : languages.EndsIn base k id rule) :
    ∃ j, k = j + 1 ∧ languages.EndsIn base j target rule := by
  cases h with
  | rule found =>
    obtain ⟨link, hlink, -⟩ := hleads
    rw [hlink] at found
    cases found
  | link leads rest =>
    obtain rfl := leads.unique hleads
    exact ⟨_, rfl, rest⟩

/-- A chain ends in one rule, behind one number of links. -/
theorem EndsIn.unique (h : languages.EndsIn base k id rule)
    (h' : languages.EndsIn base k' id rule') : k = k' ∧ rule = rule' := by
  induction h generalizing k' with
  | rule found =>
    obtain ⟨rfl, rfl⟩ := h'.of_rule found
    exact ⟨rfl, rfl⟩
  | link leads _ ih =>
    obtain ⟨j, rfl, hrest⟩ := h'.of_leads leads
    obtain ⟨rfl, rfl⟩ := ih hrest
    exact ⟨rfl, rfl⟩

/-- A chain starts at a place. -/
theorem EndsIn.exists_slot? (h : languages.EndsIn base k id rule) :
    ∃ slot, languages.slot? id = some slot := by
  cases h with
  | rule found => exact ⟨_, found⟩
  | link leads =>
    obtain ⟨link, hslot, -⟩ := leads
    exact ⟨_, hslot⟩

/-- The places on a chain that ends: one more than its links, and each only once. -/
theorem EndsIn.exists_nodup (h : languages.EndsIn base k id rule) : ∃ ids : List RuleId,
    ids.Nodup ∧ ids.length = k + 1 ∧ ∀ place ∈ ids, ∃ j ≤ k,
      languages.EndsIn base j place rule := by
  induction h with
  | @rule id rule found =>
    exact ⟨[id], List.nodup_singleton _, rfl, by simpa using EndsIn.rule found⟩
  | @link k id target rule leads rest ih =>
    obtain ⟨ids, hnodup, hlength, hends⟩ := ih
    refine ⟨id :: ids, List.nodup_cons.2 ⟨fun hid => ?_, hnodup⟩, ?_, ?_⟩
    · -- From the first place on there is one link more than from any other.
      obtain ⟨j, hj, hend⟩ := hends id hid
      have hlinks := (hend.unique (.link leads rest)).1
      omega
    · rw [List.length_cons, hlength]
    · rintro place (_ | ⟨_, hplace⟩)
      · exact ⟨k + 1, Nat.le_refl _, .link leads rest⟩
      · obtain ⟨j, hj, hend⟩ := hends place hplace
        exact ⟨j, Nat.le_succ_of_le hj, hend⟩

/-- A chain that ends has fewer links than there are places. -/
theorem EndsIn.lt_size (h : languages.EndsIn base k id rule) : k < languages.size := by
  obtain ⟨ids, hnodup, hlength, hends⟩ := h.exists_nodup
  have hsubset : ids ⊆ languages.places := fun place hplace => by
    obtain ⟨j, -, hend⟩ := hends place hplace
    obtain ⟨slot, hslot⟩ := hend.exists_slot?
    exact mem_places hslot
  have hle := (hnodup.subperm hsubset).length_le
  rw [hlength, length_places] at hle
  exact hle

/-- What is found within a number of places is what the chain ends in. -/
theorem follow?_eq_some_iff {limit : Nat} : languages.follow? base limit id = some rule ↔
    ∃ k < limit, languages.EndsIn base k id rule := by
  -- On the bound, with a case for what the place holds.
  induction limit generalizing id with
  | zero => simp [follow?]
  | succ limit ih =>
    rw [follow?]
    -- No chain ends in a missing place.
    cases hslot : languages.slot? id with
    | none =>
      simp only [reduceCtorEq, false_iff]
      rintro ⟨k, -, found | ⟨⟨link, hlink, -⟩, -⟩⟩
      · rw [hslot] at found
        cases found
      · rw [hslot] at hlink
        cases hlink
    | some slot =>
      cases slot with
      | rule own =>
        simp only [Option.some.injEq]
        constructor
        · rintro rfl
          exact ⟨0, Nat.succ_pos _, .rule hslot⟩
        · rintro ⟨k, -, hends⟩
          exact (hends.of_rule hslot).2.symm
      | link link =>
        simp only [Option.bind_eq_some_iff, ih]
        constructor
        · rintro ⟨target, htarget, k, hk, hends⟩
          exact ⟨k + 1, Nat.succ_lt_succ hk, .link ⟨link, hslot, htarget⟩ hends⟩
        · rintro ⟨k, hk, found | ⟨⟨link', hlink, htarget⟩, hrest⟩⟩
          · rw [hslot] at found
            cases found
          · rw [hslot] at hlink
            obtain rfl := Slot.link.inj (Option.some.inj hlink)
            exact ⟨_, htarget, _, Nat.lt_of_succ_lt_succ hk, hrest⟩

/-- A link stands for the rule that the chain from it on ends in. -/
theorem settle_of_endsIn (hslot : languages.slot? id = some slot)
    (h : languages.EndsIn base k id rule) : languages.settle base slot = rule := by
  cases slot with
  | rule own => exact ((h.of_rule hslot).2).symm
  | link link =>
    cases h with
    | rule found =>
      rw [hslot] at found
      cases found
    | @link k _ target _ leads rest =>
      obtain ⟨link', hlink, htarget⟩ := leads
      rw [hslot] at hlink
      obtain rfl := Slot.link.inj (Option.some.inj hlink)
      -- A chain is shorter than there are places, so that the bound does not cut it off.
      have hfollow := follow?_eq_some_iff.2 ⟨k, rest.lt_size, rest⟩
      rw [settle, htarget, Option.bind_some, hfollow, Option.getD_some]

/-- A link whose chain does not end stands for nothing. -/
theorem settle_of_not_endsIn (hslot : languages.slot? id = some slot)
    (h : ∀ k rule, ¬languages.EndsIn base k id rule) :
    languages.settle base slot = .inert E := by
  cases slot with
  | rule rule => exact absurd (.rule hslot) (h 0 rule)
  | link link =>
    -- What the walk finds would end a chain.
    rw [settle]
    cases hfollow : (languages.target? base link).bind (languages.follow? base languages.size) with
    | none => rfl
    | some rule =>
      obtain ⟨target, htarget, hfollow⟩ := Option.bind_eq_some_iff.1 hfollow
      obtain ⟨k, -, hends⟩ := follow?_eq_some_iff.1 hfollow
      exact absurd (.link ⟨link, hslot, htarget⟩ hends) (h (k + 1) rule)

/-- A chain ends in a rule when it comes to the place of one. -/
theorem exists_endsIn_iff : (∃ k, languages.EndsIn base k id rule) ↔
    ∃ last, Relation.ReflTransGen (languages.Leads base) id last ∧
      languages.slot? last = some (.rule rule) := by
  constructor
  · -- On the chain, from its end.
    rintro ⟨k, hends⟩
    induction hends with
    | @rule id rule found => exact ⟨id, .refl, found⟩
    | link leads _ ih =>
      obtain ⟨last, hreach, hlast⟩ := ih
      exact ⟨last, .head leads hreach, hlast⟩
  · -- On the links, from the place on.
    rintro ⟨last, hreach, hlast⟩
    induction hreach using Relation.ReflTransGen.head_induction_on with
    | refl => exact ⟨0, .rule hlast⟩
    | head leads _ ih =>
      obtain ⟨k, hends⟩ := ih
      exact ⟨k + 1, .link leads hends⟩

/-- A chain that ends does so from each place that it passes. -/
theorem EndsIn.of_reach {place : RuleId} (h : languages.EndsIn base k id rule)
    (hreach : Relation.ReflTransGen (languages.Leads base) id place) :
    ∃ j ≤ k, languages.EndsIn base j place rule := by
  induction hreach with
  | refl => exact ⟨k, Nat.le_refl k, h⟩
  | tail _ leads ih =>
    obtain ⟨j, hj, hends⟩ := ih
    obtain ⟨i, rfl, hrest⟩ := hends.of_leads leads
    exact ⟨i, Nat.le_of_succ_le hj, hrest⟩

/-- A chain that breaks does not end. -/
theorem Breaks.not_endsIn (h : languages.Breaks base id) : ¬languages.EndsIn base k id rule := by
  -- The last link would have to lead somewhere, or to be a rule.
  intro hends
  obtain ⟨last, link, hreach, hlast, hnone⟩ := h
  obtain ⟨j, -, hends⟩ := hends.of_reach hreach
  cases hends with
  | rule found =>
    rw [hlast] at found
    cases found
  | link leads =>
    obtain ⟨link', hlink, htarget⟩ := leads
    rw [hlast] at hlink
    obtain rfl := Slot.link.inj (Option.some.inj hlink)
    rw [hnone] at htarget
    cases htarget

/-- A chain that returns does not end. -/
theorem Returns.not_endsIn (h : languages.Returns base id) : ¬languages.EndsIn base k id rule := by
  intro hends
  obtain ⟨place, hreach, hcycle⟩ := h
  obtain ⟨j, -, hends⟩ := hends.of_reach hreach
  -- Once around the cycle, there would be fewer links before the end.
  obtain ⟨next, hleads, hback⟩ := Relation.TransGen.head'_iff.1 hcycle
  obtain ⟨i, rfl, hrest⟩ := hends.of_leads hleads
  obtain ⟨i', hi', hagain⟩ := hrest.of_reach hback
  have hlinks := (hagain.unique hends).1
  omega

/-- Links lead to places only. -/
def IsClosed (languages : Languages E) (base : String) : Prop :=
  ∀ id target, languages.Leads base id target → ∃ slot, languages.slot? target = some slot

/-- What is so of a chain behind its first link is so of the chain. -/
theorem Breaks.of_leads (hleads : languages.Leads base id target)
    (h : languages.Breaks base target) : languages.Breaks base id := by
  obtain ⟨last, link, hreach, hlast⟩ := h
  exact ⟨last, link, .head hleads hreach, hlast⟩

/-- A chain returns when it does so behind its first link. -/
theorem Returns.of_leads (hleads : languages.Leads base id target)
    (h : languages.Returns base target) : languages.Returns base id := by
  obtain ⟨place, hreach, hcycle⟩ := h
  exact ⟨place, .head hleads hreach, hcycle⟩

/-- A chain that has passed some places ends, or breaks, or returns before it has passed all. -/
theorem ends_or_breaks_or_returns_of_passed (hclosed : languages.IsClosed base) {n : Nat}
    {passed : List RuleId} (hnodup : passed.Nodup) (hsubset : passed ⊆ languages.places)
    (hreach : ∀ place ∈ passed, Relation.TransGen (languages.Leads base) place id)
    (hleft : languages.size ≤ passed.length + n) (hslot : languages.slot? id = some slot) :
    (∃ k rule, languages.EndsIn base k id rule) ∨ languages.Breaks base id ∨
      languages.Returns base id := by
  -- The induction is on the number of places that the chain has not passed.
  induction n generalizing passed id slot with
  | zero =>
    -- All places have been passed, and so this one as well.
    have hperm := (hnodup.subperm hsubset).perm_of_length_le (by
      rw [length_places]
      exact hleft)
    exact .inr (.inr ⟨id, .refl, hreach id (hperm.mem_iff.2 (mem_places hslot))⟩)
  | succ n ih =>
    by_cases hmem : id ∈ passed
    · exact .inr (.inr ⟨id, .refl, hreach id hmem⟩)
    cases slot with
    | rule rule => exact .inl ⟨0, rule, .rule hslot⟩
    | link link =>
      cases htarget : languages.target? base link with
      -- The link leads nowhere.
      | none => exact .inr (.inl ⟨id, link, .refl, hslot, htarget⟩)
      -- The chain goes on at the target, which has a place, with this one passed.
      | some target =>
        have hleads : languages.Leads base id target := ⟨link, hslot, htarget⟩
        have hpassed : ∀ place ∈ id :: passed,
            Relation.TransGen (languages.Leads base) place target := by
          rintro place (_ | ⟨_, hplace⟩)
          · exact .single hleads
          · exact .tail (hreach place hplace) hleads
        have hfewer : languages.size ≤ (id :: passed).length + n := by
          rw [List.length_cons]
          omega
        obtain ⟨slot', hslot'⟩ := hclosed id target hleads
        rcases ih (List.nodup_cons.2 ⟨hmem, hnodup⟩)
          (List.cons_subset.2 ⟨mem_places hslot, hsubset⟩)
          hpassed hfewer hslot' with ⟨k, rule, hends⟩ | hbreaks | hreturns
        · exact .inl ⟨k + 1, rule, .link hleads hends⟩
        · exact .inr (.inl (hbreaks.of_leads hleads))
        · exact .inr (.inr (hreturns.of_leads hleads))

/-- The chain from a place on ends, or breaks, or returns. -/
theorem ends_or_breaks_or_returns (hclosed : languages.IsClosed base)
    (h : languages.slot? id = some slot) :
    (∃ k rule, languages.EndsIn base k id rule) ∨ languages.Breaks base id ∨
      languages.Returns base id :=
  ends_or_breaks_or_returns_of_passed hclosed List.nodup_nil (List.nil_subset _) (by simp)
    (Nat.le_add_left _ _) h

end Languages

end TextScopes
