import TextScopes.Tokenizer.Event
import TextScopes.Tokenizer.Nesting

/-!
# Tokenizers

A tokenizer reads a text line by line. All that it carries from one line to the next are the regions
that are open, so that it can start again at any line where these are known. Within a line it goes
from event to event; a match of no byte lets it go on one character further, unless it opens a
region or closes one that holds something. `run` is the loop of `tokenize_line`, with a bound.
-/

namespace TextScopes

/-- A grammar, and the length of the lines that are read (`Parser`). -/
structure Tokenizer (E : Engine) where
  grammar : Grammar E
  /-- Lines of more bytes are passed over: they hold no token and keep the open regions. -/
  maxLineLength : Nat

/-- How far a line has been read. -/
structure Scan (E : Engine) where
  pos : Nat
  frames : Frames E
  memo : Memo

namespace Tokenizer

variable {E : Engine}

/-- Where a line is read on behind a match: where it stops, or a character further when it is empty;
past the end of the line when no character is left. -/
def advance (content : String) (found : Match) (pos : Nat) : Nat :=
  if found.isEmpty then
    (Text.next? content (max found.span.stop pos)).getD (content.utf8ByteSize + 1)
  else found.span.stop

/-- Reads a match of a rule. -/
def readOpening (t : Tokenizer E) (content : String) (offset : Nat) (scan : Scan E) (id : RuleId)
    (found : Match) : Option (List Token × Scan E) :=
  let rule := t.grammar.rule id
  let level := scan.frames.contentLevel
  match rule.kind with
  -- The groups of a match lie one level further in than its own token.
  | .matching _ captures =>
    some (Token.ofName rule.name (found.span.shift offset) level
        ++ captures.tokens found offset (level + nameDepth rule.name),
      { scan with pos := advance content found scan.pos })
  -- A region's own token comes when it is closed; the end is looked for right behind.
  | .region _ closing openingCaptures _ _ =>
    let frame : Frame E :=
      ⟨id, rule.name, closing.expand content found, offset + found.span.start, level⟩
    some (openingCaptures.tokens found offset frame.contentLevel,
      { scan with pos := found.span.stop, frames := frame :: scan.frames })
  | _ => none

/-- The names of the groups of the match that closes a region. -/
def closingCaptures (t : Tokenizer E) (id : RuleId) : Captures :=
  match (t.grammar.rule id).kind with
  | .region _ _ _ captures _ => captures
  | _ => .empty

/-- Reads the end of the innermost region. -/
def readClosing (t : Tokenizer E) (content : String) (offset : Nat) (scan : Scan E)
    (found : Match) :
    Option (List Token × Scan E) :=
  match scan.frames with
  | [] => none
  | frame :: outer =>
    let stop := offset + found.span.stop
    -- A region without a byte is passed by a character, or it would be opened again.
    let pos := if frame.start = stop then advance content found scan.pos else found.span.stop
    some ((t.closingCaptures frame.rule).tokens found offset frame.contentLevel ++ frame.close stop,
      { scan with pos := pos, frames := outer })

/-- Reads the next event of a line: the tokens found there, and how far the line is read then. -/
def step? (t : Tokenizer E) (content : String) (offset : Nat) (scan : Scan E) :
    Option (List Token × Scan E) :=
  if content.utf8ByteSize < scan.pos then none
  else
    match t.grammar.nextEvent scan.frames content offset scan.pos scan.memo with
    | (none, _) => none
    | (some (.opening id found), memo) =>
      t.readOpening content offset { scan with memo := memo } id found
    | (some (.closing found), memo) => t.readClosing content offset { scan with memo := memo } found

/-- Reads a line to its end, in `limit` steps at most: its tokens, and the regions open behind
it. -/
def run (t : Tokenizer E) (content : String) (offset : Nat) :
    Nat → Scan E → List Token × Frames E
  | 0, scan => ([], scan.frames)
  | limit + 1, scan =>
    match t.step? content offset scan with
    | none => ([], scan.frames)
    | some (tokens, next) =>
      let (rest, frames) := run t content offset limit next
      (tokens ++ rest, frames)

/-- More steps than a line can take. At one place only regions that were open before can be closed,
and each rule can open one region there. -/
def stepLimit (t : Tokenizer E) (content : String) (frames : Frames E) : Nat :=
  frames.length + 2 * (content.utf8ByteSize + 2) * (t.grammar.graph.size + 2)

/-- The tokens of a line, when some regions are open before it, and the regions open behind
it (`tokenize_line`). -/
def line (t : Tokenizer E) (line : Text.Line) (frames : Frames E) : List Token × Frames E :=
  -- A line that is too long is passed over, and the regions stay open.
  if t.maxLineLength < line.content.utf8ByteSize then ([], frames)
  else t.run line.content line.start (t.stepLimit line.content frames) ⟨0, frames, []⟩

/-- The tokens of lines that follow one another, and the regions open behind them. -/
def lines (t : Tokenizer E) : List Text.Line → Frames E → List Token × Frames E
  | [], frames => ([], frames)
  | line :: rest, frames =>
    let (tokens, frames) := t.line line frames
    let (more, frames) := lines t rest frames
    (tokens ++ more, frames)

/-- The tokens of a text (`tokenize`). Regions that are still open at its end are closed there. -/
def tokens (t : Tokenizer E) (text : String) : List Token :=
  let (tokens, frames) := t.lines (Text.lines text) []
  tokens ++ frames.close text.utf8ByteSize

/-- A text with the scopes that are found in it (`parse_to_scoped_string`). -/
def scopes (t : Tokenizer E) (text : String) : Store :=
  (t.tokens text).foldl Store.addToken (.ofText text)

end Tokenizer

end TextScopes
