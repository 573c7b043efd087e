import TextScopes.Proofs.Grammar.Chain
import TextScopes.Proofs.Grammar.Renaming

/-!
# Languages whose places have other numbers

The places of languages may stand in others of the same names under other numbers, and among places
that are not in the first (`Languages.Renumbers`). What a link sees is then known by the other
numbers too, so that it leads to the place that it leads to, under its other number. A chain of
links from a place of the first ends in both or in neither, in the same rule
(`Languages.Renumbers.endsIn_iff`), which is what the link stands for in both
(`Languages.Renumbers.settle_eq`).
-/

namespace TextScopes

variable {E : Engine} {σ : String → Nat → Nat}

/-- The identifier of a rule whose language numbers it otherwise. -/
def RuleId.renumber (σ : String → Nat → Nat) (id : RuleId) : RuleId :=
  ⟨id.language, σ id.language id.index⟩

/-- Identifiers stay apart when numbers do. -/
theorem RuleId.renumber_injective (hσ : ∀ language, Function.Injective (σ language)) :
    Function.Injective (RuleId.renumber σ) := by
  rintro ⟨language, n⟩ ⟨language', n'⟩ h
  obtain ⟨hlanguage, hn⟩ := RuleId.mk.inj h
  obtain rfl : language = language' := hlanguage
  obtain rfl : n = n' := hσ language hn
  rfl

namespace Repository

/-- A repository whose entries have other numbers. -/
def renumber (f : Nat → Nat) (repository : Repository) : Repository :=
  repository.map fun (key, n) => (key, f n)

/-- An entry in front has its other number. -/
theorem renumber_cons (f : Nat → Nat) (key : String) (n : Nat) (rest : Repository) :
    renumber f ((key, n) :: rest) = (key, f n) :: renumber f rest := rfl

/-- Entries of two repositories have their other numbers. -/
theorem renumber_append (f : Nat → Nat) (front back : Repository) :
    renumber f (front ++ back) = renumber f front ++ renumber f back := List.map_append

/-- A key is found where it is, under the other number. -/
theorem lookup_renumber (f : Nat → Nat) (repository : Repository) (key : String) :
    (repository.renumber f).lookup key = (repository.lookup key).map f := by
  induction repository with
  | nil => rfl
  | cons entry rest ih =>
    obtain ⟨k, n⟩ := entry
    rw [renumber_cons, List.lookup_cons, List.lookup_cons]
    split
    · rfl
    · exact ih

/-- A key is found in what is in sight where it is, under the other number. -/
theorem lookup?_renumber (f : Nat → Nat) (visible : List Repository) (key : String) :
    lookup? (visible.map (renumber f)) key = (lookup? visible key).map f := by
  rw [lookup?, List.findSome?_map, lookup?]
  have heach : List.lookup key ∘ renumber f = fun repository : Repository =>
      (repository.lookup key).map f := funext fun repository => lookup_renumber f repository key
  rw [heach, List.map_findSome?]
  rfl

/-- A repository is itself under the numbers that it has. -/
theorem renumber_id (repository : Repository) : repository.renumber id = repository :=
  List.map_id repository

end Repository

/-- An include that sees entries which have other numbers. -/
def Link.renumber (σ : String → Nat → Nat) (link : Link) : Link :=
  { link with visible := link.visible.map (Repository.renumber (σ link.language)) }

/-- A place that knows others by other numbers. -/
def Slot.renumber (σ : String → Nat → Nat) : Slot E → Slot E
  | .rule own => .rule (own.rename (RuleId.renumber σ))
  | .link own => .link (own.renumber σ)

/-- An include sees what it sees under the numbers that there are. -/
theorem Link.renumber_id (link : Link) : link.renumber (fun _ => id) = link := by
  rw [Link.renumber, List.map_congr_left fun repository _ => Repository.renumber_id repository,
    List.map_id']

/-- A place is itself under the numbers that there are. -/
theorem Slot.renumber_id (slot : Slot E) : slot.renumber (fun _ => id) = slot := by
  cases slot with
  | rule rule => exact congrArg Slot.rule rule.rename_id
  | link link => exact congrArg Slot.link link.renumber_id

namespace Languages

variable {languages larger : Languages E} {base : String} {id target : RuleId} {slot : Slot E}
  {rule : Rule E} {k : Nat}

/-- The places of languages are in others under other numbers, and links from them lead to the
same. -/
structure Renumbers (σ : String → Nat → Nat) (languages : Languages E) (base : String)
    (larger : Languages E) : Prop where
  slot : ∀ id slot, languages.slot? id = some slot →
    larger.slot? (id.renumber σ) = some (slot.renumber σ)
  target : ∀ id link, languages.slot? id = some (.link link) →
    larger.target? base (link.renumber σ) = (languages.target? base link).map (RuleId.renumber σ)
  closed : languages.IsClosed base

namespace Renumbers

/-- A link leads where it leads among the others. -/
theorem leads_iff (h : languages.Renumbers σ base larger)
    (hslot : languages.slot? id = some slot) :
    larger.Leads base (id.renumber σ) target ↔
      ∃ place, languages.Leads base id place ∧ place.renumber σ = target := by
  constructor
  · rintro ⟨link, hlink, htarget⟩
    rw [h.slot id slot hslot] at hlink
    cases slot with
    | rule rule => cases hlink
    -- The target is the renumbered one of the link.
    | link own =>
      obtain rfl := Slot.link.inj (Option.some.inj hlink)
      rw [h.target id own hslot] at htarget
      obtain ⟨place, hplace, rfl⟩ := Option.map_eq_some_iff.1 htarget
      exact ⟨place, ⟨own, hslot, hplace⟩, rfl⟩
  · rintro ⟨place, ⟨link, hlink, htarget⟩, rfl⟩
    refine ⟨link.renumber σ, h.slot id _ hlink, ?_⟩
    rw [h.target id link hlink, htarget, Option.map_some]

/-- A chain ends where it ends among the others. -/
theorem endsIn_iff (h : languages.Renumbers σ base larger)
    (hslot : languages.slot? id = some slot) :
    larger.EndsIn base k (id.renumber σ) rule ↔
      ∃ own, languages.EndsIn base k id own ∧ own.rename (RuleId.renumber σ) = rule := by
  constructor
  · intro hends
    -- The induction is on the chain among the others, whose places are all those of the languages.
    generalize hplace : id.renumber σ = place at hends
    induction hends generalizing id slot with
    | rule found =>
      rw [← hplace, h.slot id slot hslot] at found
      cases slot with
      | rule own => exact ⟨own, .rule hslot, Slot.rule.inj (Option.some.inj found)⟩
      | link link => cases found
    | link leads _ ih =>
      rw [← hplace] at leads
      obtain ⟨next, leads, hnext⟩ := (h.leads_iff hslot).1 leads
      obtain ⟨slot', hslot'⟩ := h.closed _ _ leads
      obtain ⟨own, hends, hown⟩ := ih hslot' hnext
      exact ⟨own, .link leads hends, hown⟩
  · rintro ⟨own, hends, rfl⟩
    clear hslot
    -- A chain is kept link by link.
    induction hends with
    | rule found => exact .rule (h.slot _ _ found)
    | link leads rest ih =>
      obtain ⟨slot, hslot⟩ := (EndsIn.link leads rest).exists_slot?
      exact .link ((h.leads_iff hslot).2 ⟨_, leads, rfl⟩) ih

/-- A place has the rule that it has among the others. -/
theorem settle_eq (h : languages.Renumbers σ base larger)
    (hslot : languages.slot? id = some slot) :
    larger.settle base (slot.renumber σ) =
      (languages.settle base slot).rename (RuleId.renumber σ) := by
  -- A chain that ends does so in both, and one that does not has no end in either.
  by_cases hends : ∃ k rule, languages.EndsIn base k id rule
  · obtain ⟨k, rule, hends⟩ := hends
    rw [settle_of_endsIn hslot hends,
      settle_of_endsIn (h.slot id slot hslot) ((h.endsIn_iff hslot).2 ⟨rule, hends, rfl⟩)]
  · rw [settle_of_not_endsIn hslot fun k rule hk => hends ⟨k, rule, hk⟩, Rule.rename_inert]
    refine settle_of_not_endsIn (h.slot id slot hslot) fun k rule hk => ?_
    obtain ⟨own, hk, -⟩ := (h.endsIn_iff hslot).1 hk
    exact hends ⟨k, own, hk⟩

end Renumbers

end Languages

end TextScopes
