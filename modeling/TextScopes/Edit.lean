import TextScopes.Text

/-!
# Edits of a text

An `Edit` puts text in at an offset or takes a span out. `fits` says when it can be applied,
`apply` applies it, and `shift` carries an offset of the old text to the new one.
-/

namespace TextScopes

/-- One contiguous change of a text (`TextEdit`); offsets are those of the text before it. -/
inductive Edit where
  /-- Puts `text` in at `offset`. -/
  | insert (offset : Nat) (text : String)
  /-- Takes the bytes in `span` out. -/
  | delete (span : Span)
  deriving DecidableEq, Repr

namespace Edit

/-- Where the edit begins. -/
def start : Edit → Nat
  | .insert offset _ => offset
  | .delete span => span.start

/-- The offset just behind the edit, in the edited text (`end_after`). -/
def stopAfter : Edit → Nat
  | .insert offset text => offset + text.utf8ByteSize
  | .delete span => span.start

/-- Whether the edit's offsets are character boundaries of `text`, in order (`is_valid_for`). -/
def fits (edit : Edit) (text : String) : Bool :=
  match edit with
  | .insert offset _ => Text.isBoundary text offset
  | .delete span =>
    span.start ≤ span.stop && Text.isBoundary text span.start && Text.isBoundary text span.stop

/-- The text after the edit. -/
def apply (edit : Edit) (text : String) : String :=
  match edit with
  | .insert offset inserted => Text.insert text offset inserted
  | .delete span => Text.delete text span

/-- Where an offset of the old text lies in the new one (`shift_offset`). An offset at an insertion
moves with the inserted text; one inside a deletion falls on its start. -/
def shift (edit : Edit) (offset : Nat) : Nat :=
  match edit with
  | .insert pos text => if pos ≤ offset then offset + text.utf8ByteSize else offset
  | .delete span =>
    if span.stop ≤ offset then offset - span.length
    else if span.start < offset then span.start
    else offset

/-- Edits keep the order of offsets. -/
theorem shift_mono (edit : Edit) {a b : Nat} (h : a ≤ b) :
    edit.shift a ≤ edit.shift b := by
  cases edit with
  | insert pos text => simp only [shift]; split <;> split <;> omega
  | delete span =>
    simp only [shift, Span.length]
    split <;> split <;> (try split) <;> (try split) <;> omega

end Edit

end TextScopes
