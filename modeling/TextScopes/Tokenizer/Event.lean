import TextScopes.Grammar.Basic
import TextScopes.Tokenizer.Frame

/-!
# What comes next in a line

At a place of a line the expressions of the rules inside the innermost region and the one that
closes it are searched for; the match that starts first is the event that comes next. Of two that
start together the closing one wins, unless its rule says otherwise, and then the one whose rule is
declared first. What was found for a rule is remembered as long as it lies ahead. All of this is
`next_event`, and the memory is the cache that it is handed.
-/

namespace TextScopes

/-- What was found for the rules of a line that have been searched for. -/
abbrev Memo := List (RuleId × Option Match)

namespace Memo

/-- What is remembered for a rule. -/
def find? (memo : Memo) (id : RuleId) : Option (Option Match) :=
  (List.find? (·.1 = id) memo).map (·.2)

/-- Remembers what was found for a rule, in place of what was before. -/
def put (id : RuleId) (found : Option Match) : Memo → Memo
  | [] => [(id, found)]
  | (other, old) :: rest =>
    if other = id then (id, found) :: rest else (other, old) :: put id found rest

variable {E : Engine}

/-- Searches anew, and remembers what is found. -/
def refresh (memo : Memo) (id : RuleId) (opening : Expression E) (content : String) (pos : Nat) :
    Option Match × Memo :=
  let found := opening.findAt content pos
  (found, memo.put id found)

/-- The match of a rule at or behind `pos`. What is remembered is taken when there was no match or
it lies at or behind `pos`. -/
def search (memo : Memo) (id : RuleId) (opening : Expression E) (content : String) (pos : Nat) :
    Option Match × Memo :=
  match memo.find? id with
  -- That a line has no match left is remembered, too.
  | some none => (none, memo)
  | some (some found) =>
    if pos ≤ found.span.start then (some found, memo) else memo.refresh id opening content pos
  | none => memo.refresh id opening content pos

theorem find?_put (memo : Memo) (id : RuleId) (found : Option Match) (other : RuleId) :
    find? (put id found memo) other = if id = other then some found else memo.find? other := by
  induction memo with
  | nil => by_cases h : id = other <;> simp [put, find?, h]
  | cons e rest ih =>
    obtain ⟨k, old⟩ := e
    by_cases hk : k = id
    · subst hk
      by_cases h : k = other <;> simp [put, find?, h]
    · by_cases h : k = other
      · subst h
        simp [put, find?, hk, Ne.symm hk]
      · have hne : ¬ k = other := h
        simpa [put, find?, hk, hne] using ih

end Memo

/-- What comes next in a line. -/
inductive Event where
  /-- A match of a rule. -/
  | opening (id : RuleId) (found : Match)
  /-- The end of the innermost region. -/
  | closing (found : Match)
  deriving DecidableEq, Repr

namespace Grammar

variable {E : Engine}

/-- Whether a match would open the same region once more, at the same place, without a byte read. -/
def reopens (grammar : Grammar E) (frames : Frames E) (offset : Nat) (id : RuleId) (found : Match) :
    Bool :=
  found.isEmpty && (grammar.rule id).kind.opensRegion
    && frames.startsAt id (offset + found.span.start)

/-- Of two matches the one that starts earlier, and the first when they start together. -/
def earlier (best : Option (RuleId × Match)) (id : RuleId) (found : Match) :
    Option (RuleId × Match) :=
  match best with
  | some (other, first) =>
    if found.span.start < first.span.start then some (id, found) else some (other, first)
  | none => some (id, found)

/-- Takes a further rule into account. -/
def consider (grammar : Grammar E) (frames : Frames E) (content : String) (offset pos : Nat)
    (state : Option (RuleId × Match) × Memo) (id : RuleId) : Option (RuleId × Match) × Memo :=
  match (grammar.rule id).kind.opening? with
  -- A rule that only holds others is no candidate, and is not searched for.
  | none => state
  | some opening =>
    match state.2.search id opening content pos with
    | (none, memo) => (state.1, memo)
    | (some found, memo) =>
      -- A match that the guard refuses is dropped with all later ones of its rule.
      if grammar.reopens frames offset id found then (state.1, memo)
      else (earlier state.1 id found, memo)

/-- The first match of the rules that are tried inside the innermost region. -/
def firstOpening (grammar : Grammar E) (frames : Frames E) (content : String) (offset pos : Nat)
    (memo : Memo) : Option (RuleId × Match) × Memo :=
  let inside := match frames with
    | [] => grammar.root
    | frame :: _ => frame.rule
  (grammar.candidates inside).foldl (grammar.consider frames content offset pos) (none, memo)

/-- Whether the rules inside a region come before its end. -/
def closesLast (grammar : Grammar E) (id : RuleId) : Bool :=
  match (grammar.rule id).kind with
  | .region _ _ _ _ closingLast => closingLast
  | _ => false

/-- Which of the first match of a rule and that of the innermost region's end comes first. -/
def choose (closesLast : Bool) (opened : Option (RuleId × Match)) (closed : Option Match) :
    Option Event :=
  match opened, closed with
  | none, none => none
  | some (id, found), none => some (.opening id found)
  | none, some found => some (.closing found)
  | some (id, found), some last =>
    -- At one place the end comes first, unless its rule puts it last.
    if last.span.start < found.span.start
        || (last.span.start = found.span.start && !closesLast) then some (.closing last)
    else some (.opening id found)

/-- The event that comes next at or behind `pos` in a line, and what is remembered
then (`next_event`). -/
def nextEvent (grammar : Grammar E) (frames : Frames E) (content : String) (offset pos : Nat)
    (memo : Memo) : Option Event × Memo :=
  let (opened, memo) := grammar.firstOpening frames content offset pos memo
  match frames with
  | [] => (choose false opened none, memo)
  | frame :: _ =>
    (choose (grammar.closesLast frame.rule) opened (frame.closing.findAt content pos), memo)

end Grammar

end TextScopes
