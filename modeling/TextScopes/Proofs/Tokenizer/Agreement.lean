import TextScopes.Proofs.Grammar.Dependencies
import TextScopes.Proofs.Tokenizer.Renaming

/-!
# Grammars that read alike

Of two grammars, the graph of one may be embedded in that of the other: its rules are there under
the identifiers that they have. The one then reads every text as the other does
(`Tokenizer.tokens_eq_of_embeds`), as it would if they were there under other identifiers.

So the definitions beside the one that is compiled may be put in another order, and others added
that no include names, without any difference to what is found in a text
(`Tokenizer.tokens_of_dependencies`).
-/

namespace TextScopes

variable {E : Engine}

namespace Grammar

/-- A grammar is embedded in another of the same root, when its graph is. -/
structure Embeds (grammar larger : Grammar E) : Prop where
  graph : grammar.graph.Embeds larger.graph
  root : larger.root = grammar.root
  rootRule : ∃ rule, grammar.graph.rule? grammar.root = some rule

/-- The rules of an embedded grammar are in the other under the identifiers that they have. -/
theorem Embeds.renames {grammar larger : Grammar E} (h : grammar.Embeds larger) :
    grammar.Renames id larger := ⟨h.graph.renames, h.root, h.rootRule⟩

end Grammar

namespace Tokenizer

variable {t larger : Tokenizer E}

/-- A tokenizer is embedded in another that passes over the same lines, when its grammar is. -/
structure Embeds (t larger : Tokenizer E) : Prop where
  grammar : t.grammar.Embeds larger.grammar
  maxLineLength : larger.maxLineLength = t.maxLineLength

/-- A text is read alike. -/
theorem tokens_eq_of_embeds (hE : E.Bounded) (h : t.Embeds larger) (text : String) :
    larger.tokens text = t.tokens text :=
  tokens_eq_of_renames hE ⟨h.grammar.renames, h.maxLineLength⟩ text

/-- A grammar that is compiled with definitions that suffice among others reads a text as the one
does that is compiled with the others. -/
theorem tokens_eq_of_suffice (hE : E.Bounded) {definition : Definition}
    {others others' : List Definition} {grammar grammar' : Grammar E}
    (hsuffice : Definitions.Suffice E (definition :: others) (definition :: others'))
    (h : Grammar.compile E definition others = .ok grammar)
    (h' : Grammar.compile E definition others' = .ok grammar') (maxLineLength : Nat)
    (text : String) :
    (Tokenizer.mk grammar' maxLineLength).tokens text =
      (Tokenizer.mk grammar maxLineLength).tokens text := by
  -- The one graph is in the other, and the roots have the same name.
  have hgraph := Grammar.embeds_of_suffice hsuffice h h'
  have hroot : grammar'.root = grammar.root :=
    (Grammar.root_of_compile h').trans (Grammar.root_of_compile h).symm
  have hembeds : Embeds ⟨grammar, maxLineLength⟩ ⟨grammar', maxLineLength⟩ :=
    ⟨⟨hgraph, hroot, _, Grammar.rule?_root_of_compile h⟩, rfl⟩
  exact tokens_eq_of_embeds hE hembeds text

/-- The definitions beside the one that is compiled may be put in another order, and others
added whose names are new and named by no include: it compiles as before, and the same is
found in every text. -/
theorem tokens_of_dependencies (hE : E.Bounded) {definition : Definition}
    {others more others' : List Definition} (hnames : (others.map Definition.scopeName).Nodup)
    (hperm : others'.Perm (others ++ more))
    (hnew : ∀ d ∈ more, d.scopeName ∉ others.map Definition.scopeName)
    (hunnamed : Definitions.Unnamed E (definition :: others) more) :
    (∀ e, Grammar.compile E definition others' = .error e ↔
      Grammar.compile E definition others = .error e) ∧
    ∀ grammar grammar', Grammar.compile E definition others = .ok grammar →
      Grammar.compile E definition others' = .ok grammar' →
      ∀ (maxLineLength : Nat) (text : String),
        (Tokenizer.mk grammar' maxLineLength).tokens text =
          (Tokenizer.mk grammar maxLineLength).tokens text := by
  refine ⟨fun e => ?_, fun grammar grammar' h h' maxLineLength text => ?_⟩
  · -- Only the definition itself can be refused.
    rw [Grammar.compile_eq_error_iff, Grammar.compile_eq_error_iff]
  · -- Both graphs have the rules that are reached, under names of their own.
    have hgraph := Grammar.embeds_of_compile hnames hperm hnew hunnamed h h'
    have hroot : grammar'.root = grammar.root :=
      (Grammar.root_of_compile h').trans (Grammar.root_of_compile h).symm
    have hembeds : Embeds ⟨grammar, maxLineLength⟩ ⟨grammar', maxLineLength⟩ :=
      ⟨⟨hgraph, hroot, _, Grammar.rule?_root_of_compile h⟩, rfl⟩
    exact tokens_eq_of_embeds hE hembeds text

/-- With `stray` before `guest`, `host` reads the text that it reads without. -/
theorem tokens_of_dependencies_stray : ∃ grammar grammar',
    Grammar.compile Engine.literal .host [.guest] = .ok grammar ∧
      Grammar.compile Engine.literal .host [.stray, .guest] = .ok grammar' ∧
      (Tokenizer.mk grammar 80).tokens "x1" =
        [⟨"tag", ⟨0, 1⟩, 0⟩, ⟨"number", ⟨1, 2⟩, 0⟩] ∧
      (Tokenizer.mk grammar' 80).tokens "x1" = (Tokenizer.mk grammar 80).tokens "x1" := by
  have haccepted : Definition.host.IsAccepted Engine.literal := by decide +kernel
  have h : Grammar.compile Engine.literal .host [.guest] = .ok _ :=
    Grammar.compile_eq_ok_iff.2 ⟨haccepted, rfl⟩
  have h' : Grammar.compile Engine.literal .host [.stray, .guest] = .ok _ :=
    Grammar.compile_eq_ok_iff.2 ⟨haccepted, rfl⟩
  have hperm : [Definition.stray, .guest].Perm ([.guest] ++ [.stray]) := List.Perm.swap ..
  -- Nothing in the guest and the host names the stray grammar.
  have hunnamed : Definitions.Unnamed Engine.literal [.host, .guest] [.stray] := by
    refine Definitions.unnamed_of_layout ?_
    decide +kernel
  refine ⟨_, _, h, h', ?_, ?_⟩
  · decide +kernel
  · exact (tokens_of_dependencies Engine.literal_bounded (by decide) hperm (by decide) hunnamed).2
      _ _ h h' 80 "x1"

end Tokenizer

end TextScopes
