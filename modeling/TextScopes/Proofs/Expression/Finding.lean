import Mathlib.Data.Nat.Find
import TextScopes.Expression.Basic
import TextScopes.Proofs.Text.Boundary

/-!
# What is assumed of engines

Engines are known by their interface, and what a theorem needs of one it takes as a hypothesis.
`Engine.Bounded` says that a search answers a stretch of the text that lies ahead, and
`Engine.GroupsBounded` that the other groups are stretches of the same text as well.
`Engine.Leftmost` says that a search tries one place after the other: what is matched at a place
does not depend on where the search began, and the first place with a match is the answer.

`Expression.Finds` is the trace that a search leaves in a tokenizer: a match that lies ahead and was
found from some place behind. A leftmost engine finds such a match again from any place in between
(`Expression.Finds.findAt_eq`), and finds nothing further on where it found nothing before
(`Expression.findAt_eq_none_of_le`).
-/

namespace TextScopes

/-- A search from a boundary answers a stretch of the text, between boundaries, that lies ahead. -/
structure Engine.Bounded (E : Engine) : Prop where
  /-- The whole match of a search from `pos` starts at or behind `pos`. -/
  le_start : ∀ program text pos span others, Text.isBoundary text pos = true →
    E.search program text pos = some (some span :: others) → pos ≤ span.start
  /-- The whole match does not stop before it starts. -/
  start_le_stop : ∀ program text pos span others, Text.isBoundary text pos = true →
    E.search program text pos = some (some span :: others) → span.start ≤ span.stop
  /-- The whole match lies between boundaries of the text. -/
  boundaries : ∀ program text pos span others, Text.isBoundary text pos = true →
    E.search program text pos = some (some span :: others) →
    Text.isBoundary text span.start = true ∧ Text.isBoundary text span.stop = true

/-- Every group of a search from a boundary lies between boundaries of the text, wherever in the
text it lies. -/
def Engine.GroupsBounded (E : Engine) : Prop :=
  ∀ program text pos groups span, Text.isBoundary text pos = true →
    E.search program text pos = some groups → some span ∈ groups →
    Text.isBoundary text span.start = true ∧ Text.isBoundary text span.stop = true

/-- Whether and what an expression matches at a place does not depend on where the search began, and
a search from `pos` answers the match at the first place from `pos` on that has one. -/
def Engine.Leftmost (E : Engine) : Prop :=
  ∃ matchAt : E.Program → String → Nat → Option Groups,
    (∀ program text place groups, matchAt program text place = some groups →
      ∃ stop others, groups = some ⟨place, stop⟩ :: others) ∧
    ∀ program text pos groups, Text.isBoundary text pos = true →
      (E.search program text pos = some groups ↔
        ∃ place, pos ≤ place ∧ matchAt program text place = some groups ∧
          ∀ earlier, pos ≤ earlier → earlier < place → matchAt program text earlier = none)

namespace Match

/-- The match is a stretch of `content` between boundaries, at or behind `pos`. -/
structure Ahead (found : Match) (content : String) (pos : Nat) : Prop where
  le_start : pos ≤ found.span.start
  start_le_stop : found.span.start ≤ found.span.stop
  boundary_start : Text.isBoundary content found.span.start = true
  boundary_stop : Text.isBoundary content found.span.stop = true

variable {found : Match} {content : String} {pos : Nat}

/-- A match ahead stops inside the text. -/
theorem Ahead.stop_le (h : found.Ahead content pos) : found.span.stop ≤ content.utf8ByteSize :=
  Text.le_of_isBoundary h.boundary_stop

/-- A match that has a byte stops behind its start. -/
theorem start_lt_stop (he : found.isEmpty = false) : found.span.start < found.span.stop := by
  have hle : ¬ found.span.stop ≤ found.span.start := by
    rw [← Span.isEmpty_iff]
    simpa [Match.isEmpty] using he
  omega

end Match

namespace Expression

variable {E : Engine}

/-- The groups that a search answers are those of the match that is made of them. -/
theorem findAt_eq_some_iff {e : Expression E} {content : String} {pos : Nat} {found : Match} :
    e.findAt content pos = some found ↔
      ∃ program, e.program = some program ∧
        E.search program content pos = some found.groups := by
  unfold findAt
  -- Without a program nothing is found.
  cases e.program with
  | none => simp
  | some program =>
    simp only [Option.some.injEq, exists_eq_left', Option.bind_eq_some_iff]
    constructor
    · rintro ⟨groups, hs, hg⟩
      rw [hs]
      match groups, hg with
      | some span :: others, hg => rw [← Option.some.inj hg]; rfl
    · intro hs
      exact ⟨found.groups, hs, Match.ofGroups?_groups found⟩

/-- What a bounded engine finds from a boundary lies ahead of it. -/
theorem ahead_of_findAt (hE : E.Bounded) {e : Expression E} {content : String} {pos : Nat}
    {found : Match} (hpos : Text.isBoundary content pos = true)
    (h : e.findAt content pos = some found) : found.Ahead content pos := by
  obtain ⟨program, -, hs⟩ := findAt_eq_some_iff.1 h
  exact ⟨hE.le_start _ _ _ _ _ hpos hs, hE.start_le_stop _ _ _ _ _ hpos hs,
    (hE.boundaries _ _ _ _ _ hpos hs).1, (hE.boundaries _ _ _ _ _ hpos hs).2⟩

/-- The groups of a match lie between boundaries when the engine's groups do. -/
theorem boundaries_of_group? (hG : E.GroupsBounded) {e : Expression E} {content : String}
    {pos : Nat} {found : Match} (hpos : Text.isBoundary content pos = true)
    (h : e.findAt content pos = some found) {index : Nat} {span : Span}
    (hi : found.group? index = some span) :
    Text.isBoundary content span.start = true ∧ Text.isBoundary content span.stop = true := by
  obtain ⟨program, -, hs⟩ := findAt_eq_some_iff.1 h
  have hmem : some span ∈ found.groups :=
    List.mem_of_getElem? (Option.join_eq_some_iff.1 hi)
  exact hG _ _ _ _ _ hpos hs hmem

/-- A search at a boundary at or before `pos` gave a match that starts at or behind `pos`. -/
def Finds (e : Expression E) (content : String) (pos : Nat) (found : Match) : Prop :=
  pos ≤ found.span.start ∧
    ∃ from_, from_ ≤ pos ∧ Text.isBoundary content from_ = true ∧
      e.findAt content from_ = some found

/-- A match that was found and lies ahead is a stretch of the text ahead. -/
theorem Finds.ahead (hE : E.Bounded) {e : Expression E} {content : String} {pos : Nat}
    {found : Match} (h : e.Finds content pos found) : found.Ahead content pos := by
  obtain ⟨hle, from_, -, hb, hf⟩ := h
  have hahead := ahead_of_findAt hE hb hf
  exact ⟨hle, hahead.start_le_stop, hahead.boundary_start, hahead.boundary_stop⟩

/-- A leftmost engine finds a match again from every place up to its start. -/
theorem Finds.findAt_eq (hE : E.Leftmost) {e : Expression E} {content : String} {pos : Nat}
    {found : Match} (hpos : Text.isBoundary content pos = true) (h : e.Finds content pos found) :
    e.findAt content pos = some found := by
  obtain ⟨hle, from_, hfrom, hb, hf⟩ := h
  obtain ⟨matchAt, hstart, hsearch⟩ := hE
  -- The first place with a match from further back is the first one from here.
  obtain ⟨program, hp, hs⟩ := findAt_eq_some_iff.1 hf
  obtain ⟨place, hplace, hm, hfirst⟩ := (hsearch _ _ _ _ hb).1 hs
  -- The match starts at the place where it was tried, so the place lies behind `pos` as well.
  have heq : found.span.start = place := by
    obtain ⟨stop, others, hg⟩ := hstart _ _ _ _ hm
    have := (List.cons.inj hg).1
    rw [Option.some.inj this]
  refine findAt_eq_some_iff.2 ⟨program, hp,
    (hsearch _ _ _ _ hpos).2 ⟨place, by omega, hm, ?_⟩⟩
  intro earlier h1 h2
  exact hfirst earlier (by omega) h2

/-- Where a leftmost engine finds nothing, it finds nothing further on. -/
theorem findAt_eq_none_of_le (hE : E.Leftmost) {e : Expression E} {content : String}
    {from_ pos : Nat} (hfrom : Text.isBoundary content from_ = true)
    (hpos : Text.isBoundary content pos = true) (hle : from_ ≤ pos)
    (h : e.findAt content from_ = none) : e.findAt content pos = none := by
  by_contra hne
  obtain ⟨found, hf⟩ := Option.ne_none_iff_exists'.1 hne
  obtain ⟨matchAt, hstart, hsearch⟩ := hE
  obtain ⟨program, hp, hs⟩ := findAt_eq_some_iff.1 hf
  obtain ⟨place, hplace, hm, -⟩ := (hsearch _ _ _ _ hpos).1 hs
  -- A search from further back answers the first place with a match, which exists.
  have hex : ∃ n, from_ ≤ n ∧ (matchAt program content n).isSome :=
    ⟨place, by omega, by simp [hm]⟩
  classical
  obtain ⟨hn, hsome⟩ := Nat.find_spec hex
  obtain ⟨groups, hg⟩ := Option.isSome_iff_exists.1 hsome
  have hsfrom : E.search program content from_ = some groups := by
    refine (hsearch _ _ _ _ hfrom).2 ⟨Nat.find hex, hn, hg, fun earlier h1 h2 => ?_⟩
    have := Nat.find_min hex h2
    simpa [h1] using this
  -- So something is found from there, against the assumption.
  obtain ⟨stop, others, rfl⟩ := hstart _ _ _ _ hg
  have : e.findAt content from_ = some ⟨⟨Nat.find hex, stop⟩, others⟩ :=
    findAt_eq_some_iff.2 ⟨program, hp, hsfrom⟩
  rw [h] at this
  cases this

end Expression

end TextScopes
