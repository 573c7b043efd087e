import TextScopes.Proofs.Grammar.Malformed
import TextScopes.Proofs.Grammar.Words
import TextScopes.Proofs.Tokenizer.Renaming

/-!
# Malformed entries contribute nothing

A malformed entry below the top level may be put into a definition, or into one that it refers to,
without any difference: the definition compiles when it did before, and what is found in a text is
the same (`Tokenizer.tokens_of_gainsMalformed`). The malformed entry may declare entries, includes
and repositories itself, which are laid out with the rest. They only take numbers, so that the
grammar reads like the other under other identifiers.
-/

namespace TextScopes

variable {E : Engine}

namespace Definition

open Json (Value)

variable {bad : Value}

/-- A malformed entry may be put into the list of a nest. -/
theorem gains_nestOf_pattern (front back : List Value) (repository : List (String × Value))
    (others : front ++ back ≠ []) (malformed : (Entry.ofValue E bad).isWellFormed = false) :
    (nestOf (front ++ back) repository).GainsMalformed E
      (nestOf (front ++ bad :: back) repository) :=
  @GainsMalformed.inPattern E _ [] [] _ _ rfl
    (.pattern others malformed (Entry.rewrites_setField (.array (front ++ bad :: back)) rfl))

/-- A malformed entry may be put into the repository of a nest. -/
theorem gains_nestOf_named (patterns : List Value) (front back : List (String × Value))
    (key : String) (malformed : (Entry.ofValue E bad).isWellFormed = false) :
    (nestOf patterns (front ++ back)).GainsMalformed E
      (nestOf patterns (front ++ (key, bad) :: back)) :=
  @GainsMalformed.inPattern E _ [] [] _ _ rfl
    (.named malformed (Entry.rewrites_setField (.object (front ++ (key, bad) :: back)) rfl))

end Definition

namespace Grammar

variable {definition definition' : Definition} {others others' : List Definition}
  {grammar grammar' : Grammar E}

/-- With a malformed entry more, definitions are refused when they were, for the same reason. -/
theorem compile_eq_error_iff_of_gains
    (h : Definitions.GainsMalformed E (definition :: others) (definition' :: others'))
    (e : DocumentError) :
    compile E definition' others' = .error e ↔ compile E definition others = .error e := by
  rw [compile_eq_error_iff, compile_eq_error_iff]
  -- Only the definition that is compiled can be the reason.
  cases h with
  | here gains =>
    obtain ⟨place, count, hwidens⟩ := gains.exists_widens
    exact hwidens.ofDefinition_eq_error_iff
  | there _ => rfl

/-- With a malformed entry more, definitions still compile. -/
theorem exists_compile_of_gains
    (h : Definitions.GainsMalformed E (definition :: others) (definition' :: others'))
    (hcompile : compile E definition' others' = .ok grammar') :
    ∃ grammar, compile E definition others = .ok grammar := by
  cases hbefore : compile E definition others with
  | ok grammar => exact ⟨grammar, rfl⟩
  | error e =>
    rw [(compile_eq_error_iff_of_gains h e).2 hbefore] at hcompile
    cases hcompile

/-- With a malformed entry more, the rules of a grammar have other numbers. -/
theorem exists_renames_of_gains
    (h : Definitions.GainsMalformed E (definition :: others) (definition' :: others'))
    (hbefore : compile E definition others = .ok grammar)
    (hbehind : compile E definition' others' = .ok grammar') :
    ∃ ρ, grammar.Renames ρ grammar' := by
  -- No entry that is put in changes the name of the definition.
  have hname : definition'.scopeName = definition.scopeName := by
    cases h with
    | here gains =>
      obtain ⟨place, count, hwidens⟩ := gains.exists_widens
      exact hwidens.scopeName_eq
    | there _ => rfl
  obtain ⟨place, count, hwidens⟩ := h.exists_widensBy
  refine ⟨_, graph_renames_of_widensBy hwidens hname hbefore hbehind, ?_, _,
    rule?_root_of_compile hbefore⟩
  rw [root_of_compile hbefore, root_of_compile hbehind, hname, RuleId.renumber, spread_zero]

end Grammar

namespace Tokenizer

variable {definition definition' : Definition} {others others' : List Definition}

/-- Malformed entries may be put anywhere below the top level of a definition and of those that it
may refer to: the definition compiles as before, and the same is found in every text. -/
theorem tokens_of_gainsMalformed (hE : E.Bounded)
    (h : Relation.ReflTransGen (Definitions.GainsMalformed E) (definition :: others)
      (definition' :: others')) :
    (∀ e, Grammar.compile E definition' others' = .error e ↔
      Grammar.compile E definition others = .error e) ∧
    ∀ grammar grammar', Grammar.compile E definition others = .ok grammar →
      Grammar.compile E definition' others' = .ok grammar' →
      ∀ (maxLineLength : Nat) (text : String),
        (Tokenizer.mk grammar' maxLineLength).tokens text =
          (Tokenizer.mk grammar maxLineLength).tokens text := by
  generalize hlast : definition' :: others' = documents at h
  -- The induction is on the entries that are put in, the last one taken away.
  induction h generalizing definition' others' with
  | refl =>
    obtain ⟨rfl, rfl⟩ := List.cons.inj hlast
    refine ⟨fun e => Iff.rfl, fun grammar grammar' hbefore hbehind maxLineLength text => ?_⟩
    obtain rfl := Except.ok.inj (hbefore.symm.trans hbehind)
    rfl
  | @tail between documents _ gains ih =>
    subst hlast
    obtain ⟨middle, rest, rfl⟩ : ∃ middle rest, between = middle :: rest := by
      cases gains <;> exact ⟨_, _, rfl⟩
    obtain ⟨herror, htokens⟩ := ih rfl
    refine ⟨fun e => (Grammar.compile_eq_error_iff_of_gains gains e).trans (herror e),
      fun grammar grammar' hbefore hbehind maxLineLength text => ?_⟩
    -- Without the last entry the documents compile as well.
    obtain ⟨between, hbetween⟩ := Grammar.exists_compile_of_gains gains hbehind
    obtain ⟨ρ, hrenames⟩ := Grammar.exists_renames_of_gains gains hbetween hbehind
    have hread : Renames ρ ⟨between, maxLineLength⟩ ⟨grammar', maxLineLength⟩ :=
      ⟨hrenames, rfl⟩
    calc (Tokenizer.mk grammar' maxLineLength).tokens text
        = (Tokenizer.mk between maxLineLength).tokens text := tokens_eq_of_renames hE hread text
      _ = (Tokenizer.mk grammar maxLineLength).tokens text :=
        htokens grammar between hbefore hbetween maxLineLength text

/-- With malformed entries below its top level, one of them under the key of another entry in sight,
`nest` reads the text that it reads without. -/
theorem tokens_of_gainsMalformed_nest : ∃ grammar grammar',
    Grammar.compile Engine.literal .nest [] = .ok grammar ∧
      Grammar.compile Engine.literal .crowdedNest [] = .ok grammar' ∧
      (Tokenizer.mk grammar 80).tokens "x1" =
        [⟨"tag", ⟨0, 1⟩, 0⟩, ⟨"one", ⟨1, 2⟩, 0⟩] ∧
      (Tokenizer.mk grammar' 80).tokens "x1" = (Tokenizer.mk grammar 80).tokens "x1" := by
  have hbad : (Entry.ofValue Engine.literal Definition.endless).isWellFormed = false := by
    decide +kernel
  -- One malformed entry comes into the list of patterns, and one over the rule "tag".
  have hlist := Definition.gains_nestOf_pattern [Definition.including "#tag"]
    [Definition.including "#one"] [("one", Definition.matching "one" "1")] (by simp) hbad
  have hnamed := Definition.gains_nestOf_named
    [Definition.including "#tag", Definition.endless, Definition.including "#one"] []
    [("one", Definition.matching "one" "1")] "tag" hbad
  have hgains : Relation.ReflTransGen (Definitions.GainsMalformed Engine.literal) [.nest]
      [.crowdedNest] := .tail (.single (.here hlist)) (.here hnamed)
  have h : Grammar.compile Engine.literal .nest [] = .ok _ :=
    Grammar.compile_eq_ok_iff.2 ⟨by decide +kernel, rfl⟩
  have h' : Grammar.compile Engine.literal .crowdedNest [] = .ok _ :=
    Grammar.compile_eq_ok_iff.2 ⟨by decide +kernel, rfl⟩
  refine ⟨_, _, h, h', ?_, ?_⟩
  · decide +kernel
  · exact (tokens_of_gainsMalformed Engine.literal_bounded hgains).2 _ _ h h' 80 "x1"

end Tokenizer

end TextScopes
