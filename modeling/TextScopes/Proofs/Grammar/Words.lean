import TextScopes.Proofs.Expression.Literal
import TextScopes.Grammar.Basic

/-!
# Grammars of plain words

Grammars whose expressions are plain words, over the engine of plain text. In `brackets` regions
last from `<` to `>` and hold marks `x` and one another; in `empties` a region is opened and
closed by the empty word, so that it could be opened again and again where it stands. The
expressions of `brackets` take a byte wherever they match (`Expression.span_ne_of_word`).
`Definition.host` and `Definition.guest` are definitions that refer to each other, and
`Definition.stray` is one that they do not refer to. `Definition.crowdedNest` is `Definition.nest`
with malformed entries below its top level.
-/

namespace TextScopes

/-- The expression that stands for a word. -/
def Expression.word (pattern : String) : Expression Engine.literal :=
  ⟨pattern, .grammar, false, Engine.literal.compile (Options.grammar.source pattern), rfl⟩

/-- Wherever a word that is not empty stands, it takes a byte. -/
theorem Expression.span_ne_of_word {pattern : String} (word : List Char)
    (hword : Engine.literalText? (Engine.withoutFlags (Options.grammar.source pattern).toList) =
      some word)
    (hne : word ≠ []) {content : String} {pos : Nat} {found : Match}
    (h : (Expression.word pattern).findAt content pos = some found) (offset : Nat) :
    found.span ≠ ⟨offset, offset⟩ := by
  obtain ⟨program, hp, hs⟩ := Expression.findAt_eq_some_iff.1 h
  obtain rfl : word = program := Option.some.inj (hword.symm.trans hp)
  have hspan : found.span.stop = found.span.start + Text.byteCount word :=
    (Engine.span_of_literal_search hs).2.1
  have hbyte : Text.byteCount word ≠ 0 := mt Text.eq_nil_of_byteCount hne
  -- A word has a byte, so that its match is not empty.
  intro heq
  rw [heq] at hspan
  dsimp only at hspan
  omega

namespace Grammar

/-- The rule with a number in a grammar of words. -/
def wordRule (index : Nat) : RuleId := ⟨"source.words", index⟩

/-- The grammar of some rules, numbered in their order. -/
def ofWordRules (rules : Array (Rule Engine.literal)) : Grammar Engine.literal :=
  ⟨⟨[]⟩, "Words", "source.words", [], ⟨[("source.words", rules)]⟩⟩

/-- The name of the brackets themselves. -/
def bracketCaptures : Captures := Table.ofList [(0, "bracket")]

/-- Regions from `<` to `>`, with marks `x` and further regions in them. -/
def brackets : Grammar Engine.literal :=
  ofWordRules #[
    ⟨none, .container, [wordRule 1, wordRule 2]⟩,
    ⟨some "mark", .matching (.word "x") .empty, []⟩,
    ⟨some "angle", .region (.word "<") (.word ">") bracketCaptures bracketCaptures false,
      [wordRule 1, wordRule 2]⟩]

/-- The only regions of `brackets` last from `<` to `>`. -/
theorem brackets_region {id : RuleId} {opening closing : Expression Engine.literal}
    {openingCaptures closingCaptures : Captures} {last : Bool}
    (h : (brackets.rule id).kind = .region opening closing openingCaptures closingCaptures last) :
    opening = .word "<" ∧ closing = .word ">" := by
  obtain ⟨language, index⟩ := id
  unfold rule Graph.rule? brackets ofWordRules at h
  by_cases hname : "source.words" = language
  · -- The third word rule is the only one of them that opens a region.
    match index with
    | 0 => simp [hname] at h
    | 1 => simp [hname] at h
    | 2 =>
      obtain ⟨rfl, rfl, -⟩ : Expression.word "<" = opening ∧
          Expression.word ">" = closing ∧ _ := by
        simpa [hname] using h
      exact ⟨rfl, rfl⟩
    | n + 3 => simp [hname, Rule.inert] at h
  · simp [hname, Rule.inert] at h

/-- Regions that the empty word opens and closes, and that hold one another. -/
def empties : Grammar Engine.literal :=
  ofWordRules #[
    ⟨none, .container, [wordRule 1]⟩,
    ⟨some "empty", .region (.word "") (.word "") .empty .empty true, [wordRule 1]⟩]

end Grammar

namespace Definition

/-- The document of an include. -/
def including (reference : String) : Json.Value := .object [("include", .string reference)]

/-- The document of a rule that matches a word. -/
def matching (name word : String) : Json.Value :=
  .object [("name", .string name), ("match", .string word)]

/-- Tags, reached through a chain of includes, and numbers of another language. Two more entries
only include each other, and the last is malformed. -/
def host : Definition where
  uuid := ⟨[]⟩
  name := "Host"
  scopeName := "text.host"
  fileTypes := []
  patterns := [including "#word", including "text.guest#number"]
  repository :=
    [("word", including "#tag"), ("tag", matching "tag" "x"), ("here", including "#there"),
    ("there", including "#here"),
      ("lost", .object [("repository", .object [("kept", including "#tag")])])]

/-- Numbers, between rules of the language that is compiled. -/
def guest : Definition where
  uuid := ⟨[]⟩
  name := "Guest"
  scopeName := "text.guest"
  fileTypes := []
  patterns := [including "$base", including "#number"]
  repository := [("number", matching "number" "1")]

/-- A rule that holds others and has a repository, over a repository that names the tags. -/
def nestOf (patterns : List Json.Value) (repository : List (String × Json.Value)) :
    Definition where
  uuid := ⟨[]⟩
  name := "Nest"
  scopeName := "text.nest"
  fileTypes := []
  patterns := [.object [("patterns", .array patterns), ("repository", .object repository)]]
  repository := [("tag", matching "tag" "x")]

/-- A region without an end, which declares entries and includes one of them. -/
def endless : Json.Value :=
  .object [("begin", .string "<"), ("patterns", .array [including "#kept", matching "stray" "x"]),
    ("repository", .object [("kept", matching "kept" "x")])]

/-- Tags and ones below the top level. -/
def nest : Definition := nestOf [including "#tag", including "#one"] [("one", matching "one" "1")]

/-- The same with the region between the includes, and under the key of the tags in
the nearer repository. -/
def crowdedNest : Definition :=
  nestOf [including "#tag", endless, including "#one"]
    [("tag", endless), ("one", matching "one" "1")]

/-- A language that neither `host` nor `guest` names, though it names both. -/
def stray : Definition where
  uuid := ⟨[]⟩
  name := "Stray"
  scopeName := "text.stray"
  fileTypes := []
  patterns := [including "text.host", including "text.guest", matching "stray" "x1"]
  repository := []

end Definition

end TextScopes
