import TextScopes.Grammar.Basic
import TextScopes.Proofs.Expression.Literal

/-!
# An engine that looks around

`Engine.looking` compiles plain text as `Engine.literal` does, and two kinds of look-around:
`(?=..)` matches without a byte where a text stands ahead, and `(?<=..)` where one stands behind. A
search answers the first place with a match (`Engine.looking_leftmost`), and what it answers lies
ahead (`Engine.looking_bounded`). With such expressions regions are opened at the very end of a line
or closed at its very start.
-/

namespace TextScopes

namespace Engine

/-- Where the text of an expression has to stand for a match at a place. -/
inductive Look where
  /-- At the place, and the match takes it. -/
  | here
  /-- At the place, and the match takes none of it. -/
  | ahead
  /-- Right before the place, and the match takes none of it. -/
  | behind
  deriving DecidableEq, Repr

/-- The text inside a group that ends with the characters. -/
def groupText? (cs : List Char) : Option (List Char) :=
  match cs.reverse with
  | ')' :: inner => literalText? inner.reverse
  | _ => none

/-- What an expression looks for, and where. -/
def look? : List Char → Option (Look × List Char)
  | '(' :: '?' :: '=' :: rest => (groupText? rest).map fun word => (.ahead, word)
  | '(' :: '?' :: '<' :: '=' :: rest => (groupText? rest).map fun word => (.behind, word)
  | cs => (literalText? cs).map fun word => (.here, word)

/-- The group of a match at a place of a text. -/
def lookAt (program : Look × List Char) (text : String) (place : Nat) : Option Groups :=
  match Text.split? text.toList place with
  | none => none
  | some (before, after) =>
    match program with
    | (.here, word) =>
      if word.isPrefixOf after then some [some ⟨place, place + Text.byteCount word⟩] else none
    | (.ahead, word) => if word.isPrefixOf after then some [some ⟨place, place⟩] else none
    | (.behind, word) => if word.isSuffixOf before then some [some ⟨place, place⟩] else none

/-- The engine of expressions that stand for a text or look around for one. -/
def looking : Engine where
  Program := Look × List Char
  compile source := look? (withoutFlags source.toList)
  search program text pos :=
    (List.range' pos (text.utf8ByteSize + 1 - pos)).findSome? (lookAt program text)

/-- A match lies between boundaries of the text, from its place on. -/
theorem lookAt_eq_some {program : Look × List Char} {text : String} {place : Nat} {groups : Groups}
    (h : lookAt program text place = some groups) :
    ∃ stop, groups = [some ⟨place, stop⟩] ∧ place ≤ stop ∧
      Text.isBoundary text place = true ∧
      Text.isBoundary text stop = true := by
  unfold lookAt at h
  split at h
  · cases h
  · next before after hsplit =>
    have hplace : Text.isBoundary text place = true := by rw [Text.isBoundary, hsplit]; rfl
    split at h
    · next word =>
      -- The word is taken, and stops at a boundary as it does in plain text.
      have hword : wordAt word text place = some groups := by rw [wordAt, hsplit]; exact h
      obtain ⟨hgroups, -, hstop⟩ := wordAt_eq_some hword
      exact ⟨_, hgroups, Nat.le_add_right _ _, hplace, hstop⟩
    · -- Looking ahead and looking back take no character.
      split at h
      · exact ⟨place, (Option.some.inj h).symm, Nat.le_refl _, hplace, hplace⟩
      · cases h
    · split at h
      · exact ⟨place, (Option.some.inj h).symm, Nat.le_refl _, hplace, hplace⟩
      · cases h

/-- What is found by looking around lies between boundaries, ahead of where the search began. -/
theorem looking_bounded : looking.Bounded := by
  have hfound : ∀ (program : Look × List Char) text pos span others,
      looking.search program text pos = some (some span :: others) →
      pos ≤ span.start ∧ span.start ≤ span.stop ∧ Text.isBoundary text span.start = true ∧
        Text.isBoundary text span.stop = true := by
    intro program text pos span others h
    obtain ⟨place, hle, -, hat, -⟩ := findSome?_range'_eq_some_iff.1 h
    obtain ⟨stop, hgroups, hspan, hstart, hstop⟩ := lookAt_eq_some hat
    obtain rfl := Option.some.inj (List.cons.inj hgroups).1
    exact ⟨hle, hspan, hstart, hstop⟩
  exact ⟨fun program text pos span others _ h => (hfound program text pos span others h).1,
    fun program text pos span others _ h => (hfound program text pos span others h).2.1,
    fun program text pos span others _ h => (hfound program text pos span others h).2.2⟩

/-- What is found by looking around does not depend on where the search began. -/
theorem looking_leftmost : looking.Leftmost := by
  refine ⟨lookAt, fun program text place groups h => ?_, fun program text pos groups _ => ?_⟩
  · obtain ⟨stop, rfl, -⟩ := lookAt_eq_some h
    exact ⟨stop, [], rfl⟩
  · refine findSome?_range'_eq_some_iff.trans ⟨?_, ?_⟩
    · rintro ⟨place, hle, -, hat, hfirst⟩
      exact ⟨place, hle, hat, hfirst⟩
    · rintro ⟨place, hle, hat, hfirst⟩
      obtain ⟨-, -, -, hplace, -⟩ := lookAt_eq_some hat
      have := Text.le_of_isBoundary hplace
      exact ⟨place, hle, by omega, hat, hfirst⟩

end Engine

/-- The expression that stands for a text or looks around for one. -/
def Expression.look (pattern : String) : Expression Engine.looking :=
  ⟨pattern, .grammar, false, Engine.looking.compile (Options.grammar.source pattern), rfl⟩

/-- The grammar of one kind of region, with nothing inside. -/
def Grammar.ofRegion (name opening closing : String) : Grammar Engine.looking :=
  ⟨⟨[]⟩, "Regions", "source.regions", [], ⟨[("source.regions", #[
    ⟨none, .container, [⟨"source.regions", 1⟩]⟩,
    ⟨some name, .region (.look opening) (.look closing) .empty .empty false, []⟩])]⟩⟩

end TextScopes
