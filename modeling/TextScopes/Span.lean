/-!
# Half-open spans of byte offsets

A `Span` is the stretch of a text from `start` up to, and not including, `stop`. A span whose `stop`
does not lie after its `start` is empty and has length zero. The two edit functions say what is left
of a span when bytes are deleted from the text under it, and where it lies when bytes are inserted;
the facts beside them say how each acts on the two ends.

Here and in the modules that import this one, a name in brackets behind what a definition is, such
as `remove_indexes`, is the one that it has in the program.
-/

namespace TextScopes

/-- The bytes from `start` up to, and not including, `stop`. -/
structure Span where
  start : Nat
  stop : Nat
  deriving DecidableEq, Inhabited, Repr

namespace Span

/-- The number of bytes in the span; none when it is inverted. -/
def length (s : Span) : Nat := s.stop - s.start

/-- A span with no byte in it. -/
def isEmpty (s : Span) : Bool := s.stop ≤ s.start

/-- Whether `inner` lies within `outer`, ends included (`contains_range`). -/
def contains (outer inner : Span) : Bool := outer.start ≤ inner.start && inner.stop ≤ outer.stop

/-- Whether each span starts before the other stops. -/
def intersects (a b : Span) : Bool := a.start < b.stop && b.start < a.stop

/-- Whether the byte at `offset` belongs to the span. -/
def covers (s : Span) (offset : Nat) : Bool := s.start ≤ offset && offset < s.stop

/-- The span moved `offset` bytes to the right (`shifted`). -/
def shift (s : Span) (offset : Nat) : Span := ⟨s.start + offset, s.stop + offset⟩

/-- The part of the span that lies inside `whole`. -/
def clip (s whole : Span) : Span := ⟨max s.start whole.start, min s.stop whole.stop⟩

/-- Where `offset` lies once the bytes in `deleted` are gone: offsets behind the gap move up to it,
offsets inside it fall on its start. -/
def pull (deleted : Span) (offset : Nat) : Nat :=
  if offset ≤ deleted.start then offset
  else if deleted.stop ≤ offset then offset - deleted.length
  else deleted.start

/-- What is left of the span once the bytes in `deleted` are gone (`remove_indexes`);
empty when nothing is. -/
def afterDelete (s deleted : Span) : Span := ⟨deleted.pull s.start, deleted.pull s.stop⟩

/-- The span once `count` bytes are inserted at `offset` (`insert_indexes`). A span that
starts at or behind the insertion moves, one that holds it strictly inside grows, and one
that stops at it stays. -/
def afterInsert (s : Span) (offset count : Nat) : Span :=
  if offset ≤ s.start then ⟨s.start + count, s.stop + count⟩
  else if offset < s.stop then ⟨s.start, s.stop + count⟩
  else s

theorem isEmpty_iff (s : Span) : s.isEmpty = true ↔ s.stop ≤ s.start := by
  simp [isEmpty]

theorem contains_iff (outer inner : Span) :
    outer.contains inner = true ↔ outer.start ≤ inner.start ∧ inner.stop ≤ outer.stop := by
  simp [contains]

theorem intersects_iff (a b : Span) :
    a.intersects b = true ↔ a.start < b.stop ∧ b.start < a.stop := by
  simp [intersects]

theorem covers_iff (s : Span) (offset : Nat) :
    s.covers offset = true ↔ s.start ≤ offset ∧ offset < s.stop := by
  simp [covers]

end Span

end TextScopes
