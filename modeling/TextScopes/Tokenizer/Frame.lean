import TextScopes.Grammar.Rule
import TextScopes.Token

/-!
# Open regions

A frame is a region that has been opened and not yet closed. The frames that are open at a place,
the innermost first, are all that a tokenizer knows of the text before.
-/

namespace TextScopes

/-- What a name adds to the level of the scopes inside. -/
def nameDepth (name : Option String) : Nat := if name.isSome then 1 else 0

/-- An open region. -/
structure Frame (E : Engine) where
  rule : RuleId
  name : Option String
  /-- The expression that closes the region, filled with the groups of the match that opened it. -/
  closing : Expression E
  /-- Where the opening match starts in the text. -/
  start : Nat
  /-- The level of the region's own scope. -/
  level : Nat
  deriving DecidableEq

namespace Frame

variable {E : Engine}

/-- The level of the scopes right inside the region (`content_level`). -/
def contentLevel (frame : Frame E) : Nat := frame.level + nameDepth frame.name

/-- The token of the region when it is closed at `stop`. -/
def close (frame : Frame E) (stop : Nat) : List Token :=
  Token.ofName frame.name ⟨frame.start, stop⟩ frame.level

/-- The frame in a text whose offsets are carried over by `shift` (`shift_starts`). -/
def shift (shift : Nat → Nat) (frame : Frame E) : Frame E :=
  { frame with start := shift frame.start }

end Frame

/-- The open regions, the innermost first (`RuleStack`). -/
abbrev Frames (E : Engine) := List (Frame E)

namespace Frames

variable {E : Engine}

/-- The level of the scopes right inside the innermost region. -/
def contentLevel : Frames E → Nat
  | [] => 0
  | frame :: _ => frame.contentLevel

/-- Closes all regions at the end of a text, the innermost first (`close_all`). -/
def close (frames : Frames E) (stop : Nat) : List Token := frames.flatMap (Frame.close · stop)

/-- Whether a region of the same rule starts at an offset. -/
def startsAt (frames : Frames E) (rule : RuleId) (offset : Nat) : Bool :=
  frames.any fun frame => frame.rule = rule && frame.start = offset

end Frames

end TextScopes
