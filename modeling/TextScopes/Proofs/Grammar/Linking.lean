import TextScopes.Proofs.Grammar.Holding
import TextScopes.Proofs.Grammar.Overwriting

/-!
# The links of an arena

An arena lists the places of its links, as the program does in `includes`, so that they can be
overwritten without a look at the others. The list is exact (`Arena.Listed`): a link is listed when
it is pushed, a root stays a rule when it is given what it holds, and what is cut off after a
refused definition is cut off the list too (`Arena.Listed.add`). In an arena that holds languages it
lists the places of their links, in order (`Arena.Holds.linkIds_eq`).

Overwriting goes by the list (`Arena.resolve`). The links of each language are overwritten when it
has been added, then those of all, and each that is still a link in the end is made a rule that
matches nothing. Since the list leaves out no link, no link is left anywhere, and the rules are
those of the compiled graph (`Arena.Holds.slot?_resolve`).
-/

namespace TextScopes

variable {E : Engine}

/-- Whether there is a link at a place. -/
def Slot.isLink : Slot E → Bool
  | .rule _ => false
  | .link _ => true

namespace Languages

variable {languages : Languages E} {id other : RuleId}

/-- The places of links, language by language. -/
def linkIds (languages : Languages E) : List RuleId :=
  languages.flatMap fun language =>
    (language.slots.toList.findIdxs Slot.isLink).map (⟨language.scopeName, ·⟩)

/-- Places of links are where links are, when no two languages have one name. -/
theorem mem_linkIds_iff (hnames : (languages.map Language.scopeName).Nodup) :
    id ∈ languages.linkIds ↔ ∃ link, languages.slot? id = some (.link link) := by
  simp only [linkIds, List.mem_flatMap, List.mem_map]
  constructor
  · -- The place is listed in a language, which is found under its name.
    rintro ⟨language, hmem, index, hindex, rfl⟩
    obtain ⟨hlt, hlink⟩ := List.mem_findIdxs_iff_exists_getElem_pos.1 hindex
    have hslot : languages.slot? ⟨language.scopeName, index⟩ =
        some language.slots.toList[index] :=
      slot?_eq_some_iff.2 ⟨language, find?_of_mem hnames hmem, by simp⟩
    cases hcases : language.slots.toList[index] with
    | rule rule =>
      rw [hcases] at hlink
      cases hlink
    | link link => exact ⟨link, hcases ▸ hslot⟩
  · -- The link is found in a language, and listed at its index there.
    rintro ⟨link, hlink⟩
    obtain ⟨language, hfind, hslot⟩ := slot?_eq_some_iff.1 hlink
    have hname : language.scopeName = id.language := by simpa using List.find?_some hfind
    obtain ⟨hlt, hat⟩ := Array.getElem?_eq_some_iff.1 hslot
    refine ⟨language, List.mem_of_find?_eq_some hfind, id.index,
      List.mem_findIdxs_iff_exists_getElem_pos.2 ⟨by simpa using hlt, ?_⟩, by rw [hname]⟩
    rw [Array.getElem_toList, hat]
    rfl

/-- Makes a link that is left at a place a rule that matches nothing. -/
def close (languages : Languages E) (id : RuleId) : Languages E :=
  match languages.slot? id with
  | some (.link _) => languages.put id (.rule (.inert E))
  | _ => languages

/-- Makes the links that are left at some places rules that match nothing. -/
def closeAll (ids : List RuleId) (languages : Languages E) : Languages E :=
  ids.foldl close languages

/-- What is at a place when one is closed. -/
theorem slot?_close : (languages.close id).slot? other =
    if other = id then (languages.slot? other).map fun slot => .rule slot.closed
    else languages.slot? other := by
  unfold close
  split
  · next link hslot =>
    rw [slot?_put]
    by_cases heq : other = id
    · rw [if_pos heq, if_pos heq, heq, hslot]
      rfl
    · rw [if_neg heq, if_neg heq]
  · next hnot =>
    -- Where no link is, closing changes nothing.
    split
    · next heq =>
      rw [heq]
      cases hslot : languages.slot? id with
      | none => rfl
      | some slot =>
        cases slot with
        | rule rule => rfl
        | link link => exact absurd hslot (hnot link)
    · rfl

/-- What is at a place when some are closed. -/
theorem slot?_closeAll (ids : List RuleId) (languages : Languages E) (id : RuleId) :
    (closeAll ids languages).slot? id =
      if id ∈ ids then (languages.slot? id).map fun slot => .rule slot.closed
      else languages.slot? id := by
  induction ids generalizing languages with
  | nil => rfl
  | cons first ids ih =>
    have hstep := ih (languages.close first)
    rw [slot?_close] at hstep
    rw [closeAll, List.foldl_cons, ← closeAll, hstep]
    by_cases hfirst : id = first
    · -- To close a place twice is to close it once.
      rw [if_pos hfirst, if_pos (List.mem_cons.2 (.inl hfirst)), Option.map_map]
      split <;> rfl
    · rw [if_neg hfirst]
      simp only [List.mem_cons, hfirst, false_or]

end Languages

namespace Arena

variable {arena : Arena E} {languages : Languages E} {root : Nat} {language base : String}

/-- The list of links has the places of links, each once and in order, and no others. -/
def Listed (arena : Arena E) : Prop := arena.links = arena.nodes.findIdxs Node.isLink

/-- The list stays exact when something is put behind what is there. -/
theorem Listed.extend (h : arena.Listed) (x : Addition E) : (arena.extend x).Listed := by
  show arena.links ++ _ = (arena.nodes ++ x.nodes).findIdxs Node.isLink
  rw [List.findIdxs_append, Nat.zero_add, h]

/-- The list stays exact when a definition is added, and when it is refused. -/
theorem Listed.add (h : arena.Listed) (definition : Definition) :
    (arena.add definition).2.Listed := by
  by_cases haccepted : definition.IsAccepted E
  · rw [add_of_accepted arena haccepted]
    exact h.extend _
  · obtain ⟨e, herror⟩ := Definition.exists_error_of_not_isAccepted haccepted
    rw [add_of_refused arena herror]
    exact h

/-- The list stays exact while definitions are added. -/
theorem Listed.addAll (h : arena.Listed) (documents : List Definition) :
    (arena.addAll documents).Listed := by
  induction documents generalizing arena with
  | nil => exact h
  | cons definition rest ih =>
    rw [Arena.addAll]
    split
    · exact ih h
    · exact ih (h.add definition)

/-- The arena of definitions lists its links. -/
theorem listed_ofDefinitions {definition : Definition} {others : List Definition}
    (h : ofDefinitions E definition others = .ok arena) : arena.Listed := by
  have hempty : (empty : Arena E).Listed := rfl
  have hfirst := hempty.add definition
  rw [ofDefinitions] at h
  split at h
  next k first hadd =>
    obtain rfl := Except.ok.inj h
    rw [hadd] at hfirst
    exact hfirst.addAll others
  next => cases h

/-- The rule at a place behind the roots of some languages, by language and number: the language is
the last that begins there or before. -/
def idIn? (volumes : List Volume) (place : Nat) : Option RuleId :=
  (volumes.reverse.find? (·.root ≤ place)).map fun volume =>
    ⟨volume.scopeName, place - volume.root⟩

/-- The links of an arena, by language and number. -/
def linkIds (arena : Arena E) : List RuleId := arena.links.filterMap (idIn? arena.volumes)

/-- A place in front of the last language is one of those before it. -/
theorem idIn?_append_of_lt {volumes : List Volume} {volume : Volume} {place : Nat}
    (h : place < volume.root) : idIn? (volumes ++ [volume]) place = idIn? volumes place := by
  rw [idIn?, List.reverse_append, List.reverse_singleton, List.singleton_append,
    List.find?_cons_of_neg (by simpa using h), idIn?]

/-- A place behind the root of the last language is one of that. -/
theorem idIn?_append_add (volumes : List Volume) (volume : Volume) (index : Nat) :
    idIn? (volumes ++ [volume]) (index + volume.root) = some ⟨volume.scopeName, index⟩ := by
  rw [idIn?, List.reverse_append, List.reverse_singleton, List.singleton_append,
    List.find?_cons_of_pos (by simp), Option.map_some, Nat.add_sub_cancel]

/-- A node shows a link just when it is one. -/
theorem Shows.isLink_eq {node : Node E} {slot : Slot E} (h : arena.Shows root language node slot) :
    node.isLink = slot.isLink := by
  cases h <;> rfl

/-- Nodes have links where the places have that they show. -/
theorem findIdxs_eq_of_shows {nodes : List (Node E)} {slots : List (Slot E)}
    (h : List.Forall₂ (arena.Shows root language) nodes slots) (first : Nat) :
    nodes.findIdxs Node.isLink first = slots.findIdxs Slot.isLink first := by
  induction h generalizing first with
  | nil => rfl
  | cons hshows _ ih => rw [List.findIdxs_cons, List.findIdxs_cons, hshows.isLink_eq, ih]

/-- Links among the nodes that hold languages are the links of these. -/
theorem HoldsIn.linkIds_eq {volumes : List Volume} {nodes : List (Node E)}
    (h : arena.HoldsIn volumes nodes languages) :
    (nodes.findIdxs Node.isLink).filterMap (idIn? volumes) = languages.linkIds := by
  induction h with
  | nil => rfl
  | @snoc volumes nodes own languages language shelf front repository slots ih =>
    rw [List.findIdxs_append, List.filterMap_append, Languages.linkIds, List.flatMap_append,
      ← Languages.linkIds, ← ih, Nat.zero_add, List.flatMap_singleton]
    congr 1
    · -- The links of the languages before lie in front of where the last one begins.
      refine List.filterMap_congr fun place hplace => idIn?_append_of_lt ?_
      exact List.lt_add_of_mem_findIdxs place hplace
    · -- Those of the last language are numbered from where it begins.
      rw [List.findIdxs_start, List.filterMap_map, findIdxs_eq_of_shows slots,
        ← List.filterMap_eq_map]
      refine List.filterMap_congr fun index _ => ?_
      exact idIn?_append_add volumes ⟨language.scopeName, nodes.length, shelf⟩ index

/-- An arena that holds languages lists the places of their links. -/
theorem Holds.linkIds_eq (h : arena.Holds languages) (hlisted : arena.Listed) :
    arena.linkIds = languages.linkIds := by
  rw [linkIds, hlisted]
  exact HoldsIn.linkIds_eq h

/-- Overwrites the links that an arena lists in the languages that it holds: those of each
language when it has been added, then those of all, and each that is left is made a rule
that matches nothing. -/
def resolve (arena : Arena E) (base : String) (languages : Languages E) : Languages E :=
  Languages.closeAll arena.linkIds <| Languages.overwriteAll (some base) arena.linkIds <|
    Languages.addEach (fun name => arena.linkIds.filter (·.language = name)) languages

/-- Overwriting the links that an arena lists leaves the rules of the compiled graph, and no
link. -/
theorem Holds.slot?_resolve (h : arena.Holds languages) (hlisted : arena.Listed)
    (hnames : (languages.map Language.scopeName).Nodup) (id : RuleId) :
    (arena.resolve base languages).slot? id =
      ((Grammar.settle languages base).rule? id).map .rule := by
  have hlinks : ∀ id link, languages.slot? id = some (.link link) → id ∈ arena.linkIds :=
    fun id link hlink => by
      rw [h.linkIds_eq hlisted]
      exact (Languages.mem_linkIds_iff hnames).2 ⟨link, hlink⟩
  -- The graph is the one that overwriting the listed links gives.
  rw [← Languages.overwriteEach_eq (fun name => arena.linkIds.filter (·.language = name))
    hnames hlinks, Languages.overwriteEach, Grammar.rule?_map, resolve, Languages.slot?_closeAll]
  obtain ⟨-, hstands⟩ := Languages.overwriteAll_addEach_spec languages base
    (fun name => arena.linkIds.filter (·.language = name)) arena.linkIds
  split
  · rw [Option.map_map]
    rfl
  · -- What is not listed was no link to begin with, and overwriting makes no links.
    next hnot =>
    rw [Option.map_map]
    cases hslot : Languages.slot? _ id with
    | none => rfl
    | some slot =>
      cases slot with
      | rule rule => rfl
      | link link => exact absurd (hlinks id link (hstands.link id link hslot)) hnot

end Arena

end TextScopes
