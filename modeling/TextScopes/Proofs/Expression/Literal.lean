import TextScopes.Proofs.Expression.Finding

/-!
# An engine for plain text

`Engine.literal` compiles the expressions that stand for a text: ordinary characters, and escaped
ones that would have a meaning of their own, behind flags that make no difference to them. A search
answers the first place where the text stands. It meets all that is assumed of engines
(`literal_bounded`, `literal_groupsBounded`, `literal_leftmost`), so that what is proved of such
engines is proved of something.
-/

namespace TextScopes.Engine

/-- The text that an expression of escaped and ordinary characters stands for. -/
def literalText? : List Char → Option (List Char)
  | [] => some []
  | [c] => if c ∈ Notation.metacharacters then none else some [c]
  | c :: d :: rest =>
    if c = '\\' then
      if d ∈ Notation.metacharacters then (literalText? rest).map (d :: ·) else none
    else if c ∈ Notation.metacharacters then none
    else (literalText? (d :: rest)).map (c :: ·)

/-- Whether a flag is about anchors or dots; a text has neither. -/
def isIdleFlag (flag : Char) : Bool := flag = 'm' || flag = 's'

/-- An expression without the group of flags in front of it, when they are about anchors and
dots. -/
def withoutFlags : List Char → List Char
  | '(' :: '?' :: rest =>
    if (rest.dropWhile isIdleFlag).head? = some ')' then (rest.dropWhile isIdleFlag).tail
    else '(' :: '?' :: rest
  | cs => cs

/-- The group of a word that stands at a place of a text. -/
def wordAt (word : List Char) (text : String) (place : Nat) : Option Groups :=
  match Text.split? text.toList place with
  | some (_, after) =>
    if word.isPrefixOf after then some [some ⟨place, place + Text.byteCount word⟩] else none
  | none => none

/-- The engine of expressions that stand for a text. -/
def literal : Engine where
  Program := List Char
  compile source := literalText? (withoutFlags source.toList)
  search word text pos :=
    (List.range' pos (text.utf8ByteSize + 1 - pos)).findSome? (wordAt word text)

/-- The first number of a stretch for which there is an answer. -/
theorem findSome?_range'_eq_some_iff {α : Type} {f : Nat → Option α}
    {start count : Nat} {a : α} :
    (List.range' start count).findSome? f = some a ↔
      ∃ n, start ≤ n ∧ n < start + count ∧ f n = some a ∧ ∀ m, start ≤ m → m < n →
      f m = none := by
  -- On the number of places that are tried: the first one decides, or is passed.
  induction count generalizing start with
  | zero =>
    simp only [List.range'_zero, List.findSome?_nil, reduceCtorEq, Nat.add_zero, false_iff]
    rintro ⟨n, h1, h2, -⟩
    omega
  | succ count ih =>
    rw [List.range'_succ, List.findSome?_cons]
    cases hf : f start with
    -- The first place answers, so no later one is asked.
    | some b =>
      constructor
      · intro h
        exact ⟨start, le_rfl, by omega, hf.trans h, fun m h1 h2 => by omega⟩
      · rintro ⟨n, h1, -, hn, hfirst⟩
        obtain rfl | hlt := Nat.eq_or_lt_of_le h1
        · rw [← hn, hf]
        · rw [hfirst start le_rfl hlt] at hf
          cases hf
    -- The first place answers nothing and is passed.
    | none =>
      rw [ih]
      constructor
      · rintro ⟨n, h1, h2, hn, hfirst⟩
        refine ⟨n, by omega, by omega, hn, fun m hm1 hm2 => ?_⟩
        obtain rfl | hlt := Nat.eq_or_lt_of_le hm1
        · exact hf
        · exact hfirst m hlt hm2
      · rintro ⟨n, h1, h2, hn, hfirst⟩
        have hne : start ≠ n := by
          rintro rfl
          rw [hf] at hn
          cases hn
        exact ⟨n, by omega, by omega, hn, fun m hm1 hm2 => hfirst m (by omega) hm2⟩

/-- A word that stands at a place lies between boundaries of the text. -/
theorem wordAt_eq_some {word : List Char} {text : String} {place : Nat} {groups : Groups}
    (h : wordAt word text place = some groups) :
    groups = [some ⟨place, place + Text.byteCount word⟩] ∧
      Text.isBoundary text place = true ∧
      Text.isBoundary text (place + Text.byteCount word) = true := by
  unfold wordAt at h
  split at h
  · next before after hsplit =>
    split at h
    · next hword =>
      -- The word stands at the place, so the text is cut there and behind the word.
      obtain ⟨happ, hn⟩ := Text.split?_eq_some_iff.1 hsplit
      obtain ⟨rest, rfl⟩ := List.isPrefixOf_iff_prefix.1 hword
      refine ⟨(Option.some.inj h).symm, Text.isBoundary_iff.2 ⟨before, _, happ, hn⟩,
        Text.isBoundary_iff.2 ⟨before ++ word, rest, by simpa using happ, ?_⟩⟩
      rw [Text.byteCount_append, hn]
    · simp at h
  · simp at h

/-- A search for a text answers the first place where it stands. -/
theorem literal_search_iff {word : List Char} {text : String} {pos : Nat} {groups : Groups} :
    literal.search word text pos = some groups ↔
      ∃ place, pos ≤ place ∧ wordAt word text place = some groups ∧
        ∀ earlier, pos ≤ earlier → earlier < place → wordAt word text earlier = none := by
  refine findSome?_range'_eq_some_iff.trans ⟨?_, ?_⟩
  · rintro ⟨place, h1, -, h3, h4⟩
    exact ⟨place, h1, h3, h4⟩
  · rintro ⟨place, h1, h3, h4⟩
    have := Text.le_of_isBoundary (wordAt_eq_some h3).2.1
    exact ⟨place, h1, by omega, h3, h4⟩

/-- Where plain text is found it lies ahead, between boundaries, and is as long as the
text that is sought. -/
theorem span_of_literal_search {word : List Char} {text : String} {pos : Nat} {span : Span}
    {others : Groups} (h : literal.search word text pos = some (some span :: others)) :
    pos ≤ span.start ∧ span.stop = span.start + Text.byteCount word ∧
      Text.isBoundary text span.start = true ∧ Text.isBoundary text span.stop = true := by
  obtain ⟨place, hle, hword, -⟩ := literal_search_iff.1 h
  obtain ⟨hgroups, hstart, hstop⟩ := wordAt_eq_some hword
  obtain rfl := Option.some.inj (List.cons.inj hgroups).1
  exact ⟨hle, rfl, hstart, hstop⟩

/-- Plain text is matched between boundaries, ahead of where the search began. -/
theorem literal_bounded : literal.Bounded := by
  refine ⟨fun program text pos span others _ h => (span_of_literal_search h).1,
    fun program text pos span others _ h => ?_,
    fun program text pos span others _ h => (span_of_literal_search h).2.2⟩
  rw [(span_of_literal_search h).2.1]
  exact Nat.le_add_right _ _

/-- The only group of plain text is the whole match. -/
theorem literal_groupsBounded : literal.GroupsBounded := by
  intro program text pos groups span _ h hspan
  obtain ⟨place, -, hword, -⟩ := literal_search_iff.1 h
  obtain ⟨rfl, hb1, hb2⟩ := wordAt_eq_some hword
  obtain rfl : span = _ := by simpa using hspan
  exact ⟨hb1, hb2⟩

/-- Where plain text stands does not depend on where the search for it began. -/
theorem literal_leftmost : literal.Leftmost := by
  refine ⟨wordAt, fun program text place groups h => ?_, fun _ _ _ _ _ => literal_search_iff⟩
  obtain ⟨rfl, -⟩ := wordAt_eq_some h
  exact ⟨_, _, rfl⟩

end TextScopes.Engine
