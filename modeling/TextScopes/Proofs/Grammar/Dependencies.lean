import Mathlib.Data.List.Find
import Mathlib.Data.Set.Subsingleton
import TextScopes.Proofs.Grammar.Closed
import TextScopes.Proofs.Grammar.Renumbering

/-!
# The definitions that a grammar depends on

Definitions suffice among others when a name that counts with them, or that is named by an include
of theirs, means the same with the others (`Definitions.Suffice`). All places then stay what they
are and links lead where they lead (`Languages.Within`). Chains end in the rules that they end in,
and the graph without the others is embedded in the graph with them (`Grammar.embeds_of_suffice`).

The definitions beside the one that is compiled may come in any order, and among others that nothing
refers to: they suffice there (`Definitions.suffice_of_unnamed`).
-/

namespace TextScopes

variable {E : Engine}

namespace Languages

variable {languages larger : Languages E} {base : String}

/-- Languages are within others when no place of theirs means anything else there. -/
structure Within (languages : Languages E) (base : String) (larger : Languages E) : Prop where
  slot : ∀ id slot, languages.slot? id = some slot → larger.slot? id = some slot
  target : ∀ id link, languages.slot? id = some (.link link) →
    larger.target? base link = languages.target? base link
  closed : languages.IsClosed base

/-- The places of languages are in the others under the numbers that they have. -/
theorem Within.renumbers (h : languages.Within base larger) :
    languages.Renumbers (fun _ => id) base larger where
  slot place slot hslot := by
    rw [Slot.renumber_id]
    exact h.slot place slot hslot
  target place link hlink := by
    rw [Link.renumber_id, h.target place link hlink]
    exact Option.map_id'.symm
  closed := h.closed

/-- A place has the rule that it has among the others. -/
theorem Within.settle_eq (h : languages.Within base larger) {place : RuleId} {slot : Slot E}
    (hslot : languages.slot? place = some slot) :
    larger.settle base slot = languages.settle base slot := by
  have hsettle := h.renumbers.settle_eq hslot
  rw [Slot.renumber_id] at hsettle
  exact hsettle.trans (Rule.rename_id _)

end Languages

namespace Graph

variable {graph larger : Graph E}

/-- A graph is embedded in another that has its rules, when these hold none but one another. -/
structure Embeds (graph larger : Graph E) : Prop where
  rule : ∀ id rule, graph.rule? id = some rule → larger.rule? id = some rule
  closed : ∀ id rule, graph.rule? id = some rule →
    ∀ child ∈ rule.children, ∃ held, graph.rule? child = some held
  names : (graph.languages.map (·.1)).Nodup
  largerNames : (larger.languages.map (·.1)).Nodup

/-- The rules of an embedded graph are in the other under the identifiers that they have. -/
theorem Embeds.renames (h : graph.Embeds larger) : graph.Renames id larger where
  injective := Function.injective_id
  rule place rule hrule := by
    rw [Rule.rename_id]
    exact h.rule place rule hrule
  closed := h.closed
  names := h.names
  largerNames := h.largerNames

end Graph

namespace Definitions

variable {definition : Definition} {others more others' : List Definition} {name : String}

/-- Definitions may come in another order, and with more, as far as a name is not that of one of the
latter. -/
theorem present?_eq (haccepted : definition.IsAccepted E)
    (hnames : (others.map Definition.scopeName).Nodup) (hperm : others'.Perm (others ++ more))
    (hname : name = definition.scopeName ∨ ∀ d ∈ more, d.scopeName ≠ name) :
    present? E (definition :: others') name = present? E (definition :: others) name := by
  -- The language itself counts before all others.
  by_cases hown : definition.scopeName = name
  · rw [present?_cons, present?_cons, if_pos ⟨hown, haccepted⟩, if_pos ⟨hown, haccepted⟩]
  · rw [present?_cons, present?_cons, if_neg (hown ·.1), if_neg (hown ·.1)]
    have hmore := hname.resolve_left fun heq => hown heq.symm
    -- No two of the definitions have the name.
    have hothers : ∀ d ∈ others', d.scopeName = name → d ∈ others := fun d hd hdname =>
      (List.mem_append.1 (hperm.mem_iff.1 hd)).resolve_right fun hd => hmore d hd hdname
    have hone : {d ∈ others' |
        (decide (d.scopeName = name) && decide (d.IsAccepted E)) = true}.Subsingleton := by
      rintro d ⟨hd, hdname⟩ e ⟨he, hename⟩
      simp only [Bool.and_eq_true, decide_eq_true_eq] at hdname hename
      exact List.inj_on_of_nodup_map hnames (hothers d hd hdname.1) (hothers e he hename.1)
        (hdname.1.trans hename.1.symm)
    have hnone : present? E more name = none :=
      List.find?_eq_none.2 fun d hd => by simp [hmore d hd]
    rw [present?, List.find?_eq_find?_of_perm hperm hone, List.find?_append]
    exact (congrArg _ hnone).trans (Option.or_none ..)

/-- What counts for a name still does when definitions with other names are added. -/
theorem present?_eq_some (haccepted : definition.IsAccepted E)
    (hnames : (others.map Definition.scopeName).Nodup) (hperm : others'.Perm (others ++ more))
    (hnew : ∀ d ∈ more, d.scopeName ∉ others.map Definition.scopeName) {d : Definition}
    (h : present? E (definition :: others) name = some d) :
    present? E (definition :: others') name = some d := by
  obtain ⟨hmem, hname, -⟩ := present?_spec h
  rw [present?_eq haccepted hnames hperm, h]
  rcases List.mem_cons.1 hmem with rfl | hmem
  · exact .inl hname.symm
  · refine .inr fun other hother heq => hnew other hother (List.mem_map.2 ⟨d, hmem, ?_⟩)
    rw [hname, heq]

/-- No include of the definitions names one of a list. -/
def Unnamed (E : Engine) (documents more : Definitions) : Prop :=
  ∀ d ∈ documents, ∀ site : Site E, d.Declares site → ∀ reference,
    site.entry = .link reference → ∀ m ∈ more, reference.language? ≠ some m.scopeName

/-- Whether an include names one of a list shows in the links that are laid out. -/
theorem unnamed_of_layout {documents more : Definitions}
    (h : ∀ d ∈ documents, (d.layout E).slots.all fun
      | .rule _ => true
      | .link link => more.all fun m => link.reference.language? ≠ some m.scopeName) :
    Unnamed E documents more := by
  intro d hd site hdeclared reference hentry m hm
  -- The entry stands at its number in the layout, as the link that was checked.
  have hslot := Definition.getElem?_layout_iff.2
    (.inr ⟨site, hdeclared, Site.slot?_eq_link_iff.2 ⟨reference, hentry, rfl⟩, rfl⟩)
  obtain ⟨hindex, hlink⟩ := Array.getElem?_eq_some_iff.1 hslot
  have hall := Array.all_eq_true.1 (h d hd) site.number hindex
  rw [hlink] at hall
  simpa using List.all_eq_true.1 hall m hm

/-- Definitions suffice among others: what counts for a name of theirs counts there, and a name that
an include of theirs has means the same there. -/
structure Suffice (E : Engine) (documents larger : Definitions) : Prop where
  counts : ∀ name d, documents.present? E name = some d → larger.present? E name = some d
  named : ∀ name d, documents.present? E name = some d → ∀ site : Site E, d.Declares site →
    ∀ reference, site.entry = .link reference → ∀ other, reference.language? = some other →
      larger.present? E other = documents.present? E other

/-- The languages of definitions that suffice are within those of the others. -/
theorem Suffice.within {documents larger : Definitions} (h : Suffice E documents larger)
    {base : String} (hbase : (documents.present? E base).isSome) :
    (Languages.extend E [] documents).Within base (Languages.extend E [] larger) := by
  refine ⟨fun id slot hslot => ?_, fun id link hslot => ?_, isClosed_extend hbase⟩
  · obtain ⟨d, hpresent, hslot⟩ := slot?_extend_iff.1 hslot
    exact slot?_extend_iff.2 ⟨d, h.counts _ d hpresent, hslot⟩
  · obtain ⟨d, site, reference, hstands, hentry, rfl⟩ := slot?_extend_link_iff.1 hslot
    have hfind : ∀ name, reference.language? = some name →
        (Languages.extend E [] larger).find? name =
          (Languages.extend E [] documents).find? name := fun name hname => by
      rw [find?_extend_nil, find?_extend_nil,
        h.named _ d hstands.present site hstands.declared reference hentry name hname]
    -- What a reference names in its own language is found in both.
    cases reference with
    | entry | self | base => rfl
    | language name => simp only [Languages.target?, hfind name rfl]
    | languageEntry name key => simp only [Languages.target?, hfind name rfl]

/-- Definitions suffice among them in another order, and with more that have other names and are not
named. -/
theorem suffice_of_unnamed (haccepted : definition.IsAccepted E)
    (hnames : (others.map Definition.scopeName).Nodup) (hperm : others'.Perm (others ++ more))
    (hnew : ∀ d ∈ more, d.scopeName ∉ others.map Definition.scopeName)
    (hunnamed : Unnamed E (definition :: others) more) :
    Suffice E (definition :: others) (definition :: others') where
  counts _ _ hpresent := present?_eq_some haccepted hnames hperm hnew hpresent
  named _ d hpresent site hdeclared reference hentry name hname := by
    obtain ⟨hmem, -, -⟩ := present?_spec hpresent
    refine present?_eq haccepted hnames hperm (.inr fun m hm heq => ?_)
    exact hunnamed d hmem site hdeclared reference hentry m hm (heq ▸ hname)

end Definitions

namespace Grammar

/-- A graph that is compiled with definitions that suffice among others is embedded in the graph
that is compiled with the others. -/
theorem embeds_of_suffice {definition : Definition} {others others' : List Definition}
    {grammar grammar' : Grammar E}
    (hsuffice : Definitions.Suffice E (definition :: others) (definition :: others'))
    (h : compile E definition others = .ok grammar)
    (h' : compile E definition others' = .ok grammar') : grammar.graph.Embeds grammar'.graph := by
  refine ⟨fun id rule hrule => ?_, fun id rule hrule child => exists_child_of_compile h hrule,
    nodup_names_of_compile h, nodup_names_of_compile h'⟩
  obtain ⟨haccepted, rfl⟩ := compile_eq_ok_iff.1 h
  obtain ⟨-, rfl⟩ := compile_eq_ok_iff.1 h'
  have hbase : (Definitions.present? E (definition :: others) definition.scopeName).isSome := by
    rw [Definitions.present?_head haccepted]
    rfl
  have hwithin := hsuffice.within hbase
  rw [rule?_settle] at hrule ⊢
  obtain ⟨slot, hslot, rfl⟩ := Option.map_eq_some_iff.1 hrule
  rw [hwithin.slot id slot hslot, Option.map_some, hwithin.settle_eq hslot]

/-- A compiled graph is embedded in that of the definitions in another order, and with more that
have other names and are not named. -/
theorem embeds_of_compile {definition : Definition} {others more others' : List Definition}
    {grammar grammar' : Grammar E} (hnames : (others.map Definition.scopeName).Nodup)
    (hperm : others'.Perm (others ++ more))
    (hnew : ∀ d ∈ more, d.scopeName ∉ others.map Definition.scopeName)
    (hunnamed : Definitions.Unnamed E (definition :: others) more)
    (h : compile E definition others = .ok grammar)
    (h' : compile E definition others' = .ok grammar') : grammar.graph.Embeds grammar'.graph :=
  embeds_of_suffice (Definitions.suffice_of_unnamed (compile_eq_ok_iff.1 h).1 hnames hperm hnew
    hunnamed) h h'

end Grammar

end TextScopes
