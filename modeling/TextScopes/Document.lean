import TextScopes.Tokenizer.Basic

/-!
# Documents that are edited

A document holds a text, its scopes, and the regions that are open at the start of every line, the
program's checkpoints. After an edit the tokenizer starts again at the line of the edit. It goes on
until it comes, behind the edit, to a line before which the same regions are open as were open there
before: what follows has kept its scopes. Regions that reach over such a line are those that are
open there, so that the scopes of the lines before it and behind it fit together.

`Document.edit` does what `edit` does in one go: it carries the checkpoints over
(`shift_checkpoints`), reads lines again (`rescan`), and puts what was read in the place of
what was there (`merge`).
-/

namespace TextScopes

/-- A text that is edited, with its scopes. -/
structure Document (E : Engine) where
  tokenizer : Tokenizer E
  store : Store
  /-- The regions that are open at each line start, and those at the end of the text. -/
  marks : Table Nat (Frames E)

namespace Document

variable {E : Engine}

/-- Notes the regions that are open at the start of each line and behind the last, which stops at
`stop`. -/
def markLines (t : Tokenizer E) (stop : Nat) (marks : Table Nat (Frames E)) :
    List Text.Line → Frames E → Table Nat (Frames E)
  | [], frames => marks.insert stop frames
  | line :: rest, frames =>
    markLines t stop (marks.insert line.start frames) rest (t.line line frames).2

/-- A text that is read from its start (`new`). -/
def ofText (t : Tokenizer E) (text : String) : Document E :=
  ⟨t, t.scopes text, markLines t text.utf8ByteSize .empty (Text.lines text) []⟩

/-- The text of the document. -/
def text (document : Document E) : String := document.store.text

/-- The span of the whole text. -/
def wholeSpan (document : Document E) : Span := ⟨0, document.store.length⟩

/-- Where the start of a line lies after an edit; nothing when the edit takes it out. A line start
at an insertion stays before what is inserted. -/
def moveLine? (edit : Edit) (offset : Nat) : Option Nat :=
  match edit with
  | .insert pos text => some (if pos < offset then offset + text.utf8ByteSize else offset)
  | .delete span =>
    -- A line start right at the stop of a deletion goes with the newline before it.
    if span.stop < offset then some (offset - span.length)
    else if span.start < offset then none
    else some offset

/-- What is known of the line starts, carried over to the edited text (`shift_checkpoints`). -/
def moveMarks (edit : Edit) (marks : Table Nat (Frames E)) : Table Nat (Frames E) :=
  Table.ofList <| marks.entries.filterMap fun (offset, frames) =>
    (moveLine? edit offset).map fun offset => (offset, frames.map (Frame.shift edit.shift))

/-- What reading again from a line on comes to. -/
structure Rescan (E : Engine) where
  tokens : List Token
  /-- The line start where reading stopped early. -/
  stop : Option Nat
  /-- The regions that are open where reading stopped. -/
  frames : Frames E
  marks : Table Nat (Frames E)

/-- Reads lines until one behind `settled` before which the regions that are noted are open. What is
noted inside the lines that are read is forgotten. -/
def rescan (t : Tokenizer E) (settled : Nat) :
    List Text.Line → Frames E → Table Nat (Frames E) → Rescan E
  | [], frames, marks => ⟨[], none, frames, marks⟩
  | line :: rest, frames, marks =>
    if settled < line.start ∧ marks.find? line.start = some frames then
      ⟨[], some line.start, frames, marks⟩
    else
      -- A line start that was noted inside this line is one no longer.
      let marks := (marks.insert line.start frames).filter fun offset =>
        !(line.start < offset && offset < line.stop)
      let (tokens, frames) := t.line line frames
      let later := rescan t settled rest frames marks
      { later with tokens := tokens ++ later.tokens }

/-- Reads again from the start of a line on, to the end of the text unless it stops early; there the
regions that are open are noted and closed. -/
def rescanFrom (t : Tokenizer E) (text : String) (settled start : Nat) (frames : Frames E)
    (marks : Table Nat (Frames E)) : Rescan E :=
  let read := rescan t settled (Text.linesFrom text start) frames marks
  match read.stop with
  | some _ => read
  | none =>
    let length := text.utf8ByteSize
    -- Offsets behind the end of the text are from before the edit.
    let marks := (read.marks.filter (· < length)).insert length read.frames
    ⟨read.tokens ++ read.frames.close length, none, [], marks⟩

/-- The least span that covers two. -/
def cover (a b : Span) : Span := ⟨min a.start b.start, max a.stop b.stop⟩

/-- Takes the scope out that a region which began before `start` had, and widens what has changed by
it. -/
def dropOld (start : Nat) (state : Store × Span) (token : Token) : Store × Span :=
  if token.span.start < start then
    match state.1.removeAt? token.level token.span.start with
    | some (old, store) => (store, cover state.2 old.span)
    | none => state
  else state

/-- Adds the scope of a token, and widens what has changed by it. -/
def addNew (state : Store × Span) (token : Token) : Store × Span :=
  (state.1.addToken token, cover state.2 token.span)

/-- Puts tokens in the place of the scopes inside `window` and of those that reach into it from
before. Beside the store comes what has changed, `changed` included. -/
def merge (store : Store) (window changed : Span) (tokens : List Token) : Store × Span :=
  let (removed, store) := store.removeScopes window
  let changed := removed.foldl (fun span scope => cover span scope.span) changed
  tokens.foldl addNew (tokens.foldl (dropOld window.start) (store, changed))

/-- Edits the text, and reads the lines again that the edit bears on. Beside the document comes the
span of the edited text in which scopes may have changed. -/
def edit (document : Document E) (edit : Edit) : Span × Document E :=
  let t := document.tokenizer
  let store := document.store.apply edit
  let marks := moveMarks edit document.marks
  let start := Text.lineStart store.text edit.start
  match marks.find? start with
  -- Where the line start was not known the text is read from its start.
  | none =>
    let fresh := ofText t store.text
    (fresh.wholeSpan, fresh)
  | some frames =>
    let read := rescanFrom t store.text edit.stopAfter start frames marks
    -- The window is in the edited text, to which the scopes have been carried.
    let window : Span := ⟨start, read.stop.getD store.length⟩
    let (store, changed) := merge store window ⟨edit.start, edit.stopAfter⟩ read.tokens
    (changed, ⟨t, store, read.marks⟩)

/-- Reads another text in place of the document's (`parse`). -/
def replace (document : Document E) (text : String) : Span × Document E :=
  let fresh := ofText document.tokenizer text
  (fresh.wholeSpan, fresh)

end Document

end TextScopes
