import TextScopes.Proofs.Grammar.Holding
import TextScopes.Proofs.Grammar.Words

/-!
# Definitions that are refused

A definition that a grammar may refer to can be refused in the midst of its being laid out. The
arena is then the same as before (`Arena.add_of_refused`), and from it the languages and with them
the grammar are what they are without the definition. A later one of the same name takes its place.
-/

namespace TextScopes

variable {E : Engine}

namespace Grammar

/-- Definitions with the same arena compile to the same grammar. -/
theorem compile_eq_of_arena_eq {definition : Definition} {others others' : List Definition}
    (h : Arena.ofDefinitions E definition others = Arena.ofDefinitions E definition others') :
    compile E definition others = compile E definition others' := by
  cases hcompile : compile E definition others' with
  | ok grammar => rwa [compile_eq_ok_iff_holds, h, ← compile_eq_ok_iff_holds]
  | error e => rwa [compile_eq_error_iff, ← compile_eq_error_iff]

end Grammar

namespace Definitions

/-- In place of a definition that is refused counts the next one of its name that is accepted. -/
theorem present?_of_refused {definition refused later : Definition}
    {front middle back : List Definition}
    (hrefused : ¬refused.IsAccepted E) (hlater : later.IsAccepted E)
    (hname : later.scopeName = refused.scopeName)
    (hfirst : ∀ other ∈ definition :: (front ++ middle), other.IsAccepted E →
      other.scopeName ≠ refused.scopeName) :
    present? E (definition :: (front ++ refused :: (middle ++ later :: back))) refused.scopeName =
      some later := by
  rw [present?, List.find?_eq_some_iff_append]
  refine ⟨by simpa using ⟨hname, hlater⟩, definition :: (front ++ refused :: middle),
    back, by simp, fun other hother => ?_⟩
  have hcases : other = refused ∨ other ∈ definition :: (front ++ middle) := by
    simp only [List.mem_cons, List.mem_append] at hother ⊢
    tauto
  -- What stands before the later one is refused or has another name.
  rcases hcases with rfl | hother
  · simp [hrefused]
  · by_cases haccepted : other.IsAccepted E
    · simp [hfirst other hother haccepted]
    · simp [haccepted]

end Definitions

/-- The language of `guest`, with a last pattern that is no entry. -/
def Definition.torn : Definition :=
  { Definition.guest with patterns := Definition.guest.patterns ++ [.string "torn"] }

namespace Grammar

/-- Definitions that are refused leave no trace. A grammar, or the error in its place, is what it is
without them, and so is the arena of the definitions; the grammar is that of the languages which
this arena holds. A refused definition leaves any arena as it is, and in its place counts the next
one of its name that is accepted. -/
theorem compile_without_refused (E : Engine) (definition : Definition) (others : List Definition) :
    compile E definition others = compile E definition (others.filter (·.IsAccepted E)) ∧
    Arena.ofDefinitions E definition others =
      Arena.ofDefinitions E definition (others.filter (·.IsAccepted E)) ∧
    (∀ e, compile E definition others = .error e ↔
      Arena.ofDefinitions E definition others = .error e) ∧
    (∀ grammar, compile E definition others = .ok grammar ↔
      ∃ arena languages, Arena.ofDefinitions E definition others = .ok arena ∧
        arena.Holds languages ∧
        grammar = ⟨definition.uuid, definition.name, definition.scopeName,
          definition.fileTypes, settle languages definition.scopeName⟩) ∧
    (∀ (arena : Arena E) (refused : Definition), ¬refused.IsAccepted E →
      ∃ e, Language.ofDefinition E refused = .error e ∧
        arena.add refused = (.error e, arena)) ∧
    ∀ front refused middle later back, others = front ++ refused :: (middle ++ later :: back) →
      ¬refused.IsAccepted E → later.IsAccepted E → later.scopeName = refused.scopeName →
      (∀ other ∈ definition :: (front ++ middle), other.IsAccepted E →
        other.scopeName ≠ refused.scopeName) →
      ∀ grammar, compile E definition others = .ok grammar →
        ∃ languages, grammar.graph = settle languages definition.scopeName ∧
          languages.find? refused.scopeName = some (later.layout E) := by
  have harena : Arena.ofDefinitions E definition others =
      Arena.ofDefinitions E definition (others.filter (·.IsAccepted E)) := by
    simp only [Arena.ofDefinitions, Arena.addAll_filter]
  refine ⟨compile_eq_of_arena_eq harena, harena, fun e => ?_,
    fun grammar => compile_eq_ok_iff_holds, fun arena refused hrefused => ?_, ?_⟩
  · rw [compile_eq_error_iff, Arena.ofDefinitions_eq_error_iff]
  · obtain ⟨e, herror⟩ := Definition.exists_error_of_not_isAccepted hrefused
    exact ⟨e, herror, Arena.add_of_refused arena herror⟩
  · -- The later one is the first of the name that is not refused.
    rintro front refused middle later back rfl hrefused hlater hname hfirst grammar hcompile
    obtain ⟨-, rfl⟩ := compile_eq_ok_iff.1 hcompile
    refine ⟨_, rfl, ?_⟩
    rw [Definitions.find?_extend_nil,
      Definitions.present?_of_refused hrefused hlater hname hfirst, Option.map_some]

/-- Numbers come from `guest` though `torn`, which has its name, is met before. -/
theorem compile_without_refused_torn : ∃ grammar,
    compile Engine.literal .host [.torn, .guest] = .ok grammar ∧
      compile Engine.literal .host [.guest] = .ok grammar ∧
      ∃ languages, grammar.graph = settle languages "text.host" ∧
        languages.find? "text.guest" = some (Definition.guest.layout Engine.literal) := by
  have hhost : Definition.host.IsAccepted Engine.literal := by decide +kernel
  have hguest : Definition.guest.IsAccepted Engine.literal := by decide +kernel
  have htorn : ¬Definition.torn.IsAccepted Engine.literal := by decide +kernel
  have h : compile Engine.literal .host [.torn, .guest] = .ok _ :=
    compile_eq_ok_iff.2 ⟨hhost, rfl⟩
  obtain ⟨hsame, -, -, -, -, hplace⟩ :=
    compile_without_refused Engine.literal .host [.torn, .guest]
  rw [List.filter_cons_of_neg (by simpa using htorn),
    List.filter_cons_of_pos (by simpa using hguest), List.filter_nil] at hsame
  refine ⟨_, h, hsame.symm.trans h, hplace [] .torn [] .guest [] rfl htorn hguest rfl ?_ _ h⟩
  -- Only the host itself comes before, and it has another name.
  intro other hother _
  rw [List.append_nil, List.mem_singleton] at hother
  rw [hother]
  decide +kernel

end Grammar

end TextScopes
