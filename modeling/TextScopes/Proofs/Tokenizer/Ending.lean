import Mathlib.Logic.Relation
import TextScopes.Proofs.Grammar.Walk
import TextScopes.Proofs.Grammar.Words
import TextScopes.Proofs.Text.Lines
import TextScopes.Proofs.Tokenizer.Step

/-!
# Reading ends

A tokenizer reads a line in a loop that goes on while there is an event (`tokenize_line`); `run`
bounds it by a number of steps. Here the loop is written without a bound (`Loop`), and
`reading_ends` shows that it ends on every line, from any open regions, with just what the bounded
reading comes to. It never goes back, it stands at a boundary of the line or one past its end, and
it looks at no place of the line that is none of its boundaries.

The place alone is no measure: opening a region and closing one can leave it where it is. But a rule
opens no second region at one place without reading a byte, and closing a region that starts where
it stops goes a character further. So at one place only the rules without a region there can still
be opened, and only regions that start elsewhere can be closed. `Tokenizer.potential` adds these up,
with enough for every place that is left, and every step lowers it (`Tokenizer.Step.potential_lt`).
-/

namespace TextScopes

variable {E : Engine}

/-- A loop that runs until `step` gives nothing: the tokens of its steps, and where it ends. -/
inductive Loop {σ : Type} (step : σ → Option (List Token × σ)) :
    σ → List Token → σ → Prop
  | done {s : σ} (stops : step s = none) : Loop step s [] s
  | next {s between last : σ} {tokens rest : List Token} (goes : step s = some (tokens, between))
      (later : Loop step between rest last) : Loop step s (tokens ++ rest) last

/-- A loop comes to one end only. -/
theorem Loop.unique {σ : Type} {step : σ → Option (List Token × σ)} {s last last' : σ}
    {tokens tokens' : List Token} (h : Loop step s tokens last) (h' : Loop step s tokens' last') :
    tokens = tokens' ∧ last = last' := by
  -- The step is a function: both loops stop at the same state, or go on to the same one.
  induction h generalizing tokens' with
  | done stops =>
    cases h' with
    | done => exact ⟨rfl, rfl⟩
    | next goes later =>
      rw [stops] at goes
      cases goes
  | next goes later ih =>
    cases h' with
    | done stops =>
      rw [stops] at goes
      cases goes
    | next goes' later' =>
      rw [goes] at goes'
      cases goes'
      obtain ⟨rfl, rfl⟩ := ih later'
      exact ⟨rfl, rfl⟩

/-- Lines are read one after another, when `reads` says what each line comes to. -/
inductive ReadsLines (reads : Text.Line → Frames E → List Token → Frames E → Prop) :
    List Text.Line → Frames E → List Token → Frames E → Prop
  | nil {frames : Frames E} : ReadsLines reads [] frames [] frames
  | cons {line : Text.Line} {rest : List Text.Line} {frames between after : Frames E}
      {tokens later : List Token} (one : reads line frames tokens between)
      (more : ReadsLines reads rest between later after) :
      ReadsLines reads (line :: rest) frames (tokens ++ later) after

namespace Event

/-- The match of an event. -/
def found : Event → Match
  | .opening _ found => found
  | .closing found => found

end Event

namespace Tokenizer

/-- The loop over the events of a line, without a bound on its steps. -/
def ReadsContent (t : Tokenizer E) (content : String) (offset : Nat) (frames : Frames E)
    (tokens : List Token) (after : Frames E) : Prop :=
  ∃ last, Loop (t.step? content offset) ⟨0, frames, []⟩ tokens last ∧ last.frames = after

/-- What a line comes to when it is read without a bound; a line that is too long is passed over. -/
def ReadsLine (t : Tokenizer E) (line : Text.Line) (frames : Frames E) (tokens : List Token)
    (after : Frames E) : Prop :=
  if t.maxLineLength < line.content.utf8ByteSize then tokens = [] ∧ after = frames
  else t.ReadsContent line.content line.start frames tokens after

/-- What a text comes to when its lines are read without a bound. -/
def ReadsText (t : Tokenizer E) (text : String) (tokens : List Token) : Prop :=
  ∃ read after, ReadsLines t.ReadsLine (Text.lines text) [] read after ∧
    tokens = read ++ after.close text.utf8ByteSize

/-- Whether one scan of a line comes after another, after any number of steps. -/
def Reaches (t : Tokenizer E) (content : String) (offset : Nat) : Scan E → Scan E → Prop :=
  Relation.ReflTransGen fun scan next =>
    ∃ tokens, t.step? content offset scan = some (tokens, next)

/-- The places of a line that reading it on looks at: where it searches, and where the match that
comes next starts and stops, behind which it goes on. -/
def looksAt (t : Tokenizer E) (content : String) (offset : Nat) (scan : Scan E) : List Nat :=
  if content.utf8ByteSize < scan.pos then []
  else
    match (t.grammar.nextEvent scan.frames content offset scan.pos scan.memo).1 with
    | none => [scan.pos]
    | some event => [scan.pos, event.found.span.start, event.found.span.stop,
        max event.found.span.stop scan.pos]

end Tokenizer

/-- A rule of a kind that matches something is among the rules of the graph. -/
theorem Grammar.mem_ids {grammar : Grammar E} {id : RuleId}
    (h : (grammar.rule id).kind.opensRegion = true) : id ∈ grammar.graph.ids := by
  cases hr : grammar.graph.rule? id with
  | none => simp [Grammar.rule, hr, Rule.inert, Kind.opensRegion] at h
  | some rule => exact Graph.mem_ids hr

namespace Tokenizer

/-- The rules of which no open region starts at a place of the text. -/
def unopened (t : Tokenizer E) (frames : Frames E) (place : Nat) : Nat :=
  t.grammar.graph.ids.countP fun id => !frames.startsAt id place

/-- What a scan has left: the regions that can be closed, the rules that can open one where it
stands, and twice all rules for every further place. -/
def potential (t : Tokenizer E) (content : String) (offset : Nat) (scan : Scan E) : Nat :=
  scan.frames.length
    + 2 * ((content.utf8ByteSize + 1 - scan.pos) * (t.grammar.graph.size + 1))
    + 2 * t.unopened scan.frames (offset + scan.pos)

variable {t : Tokenizer E} {content : String} {offset : Nat} {scan next : Scan E}
  {tokens : List Token}

/-- There are no more unopened rules than rules. -/
theorem unopened_le (t : Tokenizer E) (frames : Frames E) (place : Nat) :
    t.unopened frames place ≤ t.grammar.graph.size := by
  rw [← Graph.length_ids]
  exact List.countP_le_length

/-- Opening a region leaves one unopened rule less where it starts. -/
theorem unopened_cons_lt {frames : Frames E} (frame : Frame E) {place : Nat}
    (hmem : frame.rule ∈ t.grammar.graph.ids) (hstart : frame.start = place)
    (hnew : frames.startsAt frame.rule place = false) :
    t.unopened (frame :: frames) place < t.unopened frames place := by
  obtain ⟨front, back, heq⟩ := List.append_of_mem hmem
  -- With a region more no rule becomes unopened, and that of the region is no longer.
  have hmono : ∀ ids : List RuleId,
      ids.countP (fun id => !Frames.startsAt (frame :: frames) id place)
        ≤ ids.countP fun id => !Frames.startsAt frames id place := by
    intro ids
    refine List.countP_mono_left fun id _ h => ?_
    simp only [Frames.startsAt, List.any_cons, Bool.not_or, Bool.and_eq_true] at h
    exact h.2
  -- Rules before and behind it count no more than they did.
  have hfront := hmono front
  have hback := hmono back
  have hself : Frames.startsAt (frame :: frames) frame.rule place = true := by
    simp [Frames.startsAt, hstart]
  simp only [unopened, heq, List.countP_append, List.countP_cons, hself, hnew]
  simp only [Bool.not_true, Bool.not_false, Bool.false_eq_true, if_true, if_false]
  omega

/-- Closing a region that starts elsewhere leaves the unopened rules of a place as they are. -/
theorem unopened_cons_of_ne {frames : Frames E} {frame : Frame E} {place : Nat}
    (hstart : frame.start ≠ place) :
    t.unopened (frame :: frames) place = t.unopened frames place := by
  simp [unopened, Frames.startsAt, hstart]

/-- Going forward pays for opening a region, whatever can be opened further on. -/
theorem potential_lt_of_lt (hlt : scan.pos < next.pos) (hle : next.pos ≤ content.utf8ByteSize + 1)
    (hframes : next.frames.length ≤ scan.frames.length + 1) :
    t.potential content offset next < t.potential content offset scan := by
  have hu := t.unopened_le next.frames (offset + next.pos)
  have hmul := Nat.mul_le_mul_right (t.grammar.graph.size + 1)
    (show content.utf8ByteSize + 1 - next.pos + 1 ≤ content.utf8ByteSize + 1 - scan.pos by omega)
  rw [Nat.add_mul, Nat.one_mul] at hmul
  unfold potential
  omega

/-- Every step lowers what is left. -/
theorem Step.potential_lt (hE : E.Bounded) (hb : Text.isBoundary content scan.pos = true)
    (h : t.Step content offset scan tokens next) :
    t.potential content offset next < t.potential content offset scan := by
  -- The next place lies at most one behind the end.
  have hle : next.pos ≤ content.utf8ByteSize + 1 := by
    rcases (h.forward hE hb).2 with hb' | hp
    · have := Text.le_of_isBoundary hb'
      omega
    · exact Nat.le_of_eq hp
  cases h with
  | matching inside kind finds =>
    -- A match goes forward also when it has no byte.
    exact potential_lt_of_lt (advance_spec (finds.ahead hE)).1 hle (Nat.le_succ _)
  | @opening id found opening closing _ _ _ memo inside kind finds new =>
    have hahead := finds.ahead hE
    have h1 := hahead.le_start
    have h2 := hahead.start_le_stop
    obtain hlt | heq := Nat.lt_or_eq_of_le (Nat.le_trans h1 h2)
    · exact potential_lt_of_lt hlt hle (by simp)
    · -- The match has no byte and the region starts where the scan stands.
      have hempty : found.isEmpty = true := (Span.isEmpty_iff _).2 (by omega)
      have hstart : found.span.start = scan.pos := by omega
      have hmem : id ∈ t.grammar.graph.ids := Grammar.mem_ids (by rw [kind]; rfl)
      have hu := unopened_cons_lt (t := t) ⟨id, (t.grammar.rule id).name,
        closing.expand content found, offset + found.span.start, scan.frames.contentLevel⟩ hmem
          rfl
        (new hempty)
      unfold potential
      simp only [List.length_cons, ← heq]
      dsimp only at hu
      rw [hstart] at hu ⊢
      omega
  | @closing frame outer found memo inside frames finds =>
    have hahead := Expression.ahead_of_findAt hE hb finds
    have h1 := hahead.le_start
    have h2 := hahead.start_le_stop
    have hlen : outer.length ≤ scan.frames.length + 1 := by
      rw [frames, List.length_cons]
      omega
    dsimp only at hle ⊢
    -- A region that stops where it starts is left behind; any other can stop where the scan stands.
    by_cases hs : frame.start = offset + found.span.stop
    · rw [if_pos hs] at hle ⊢
      exact potential_lt_of_lt (advance_spec hahead).1 hle hlen
    · rw [if_neg hs] at hle ⊢
      obtain hlt | heq := Nat.lt_or_eq_of_le (Nat.le_trans h1 h2)
      · exact potential_lt_of_lt hlt hle hlen
      · -- The region that is closed does not start where the scan stands.
        have hu : t.unopened (frame :: outer) (offset + found.span.stop) =
            t.unopened outer (offset + found.span.stop) := unopened_cons_of_ne hs
        unfold potential
        rw [frames, heq, hu, List.length_cons]
        dsimp only
        omega

/-- Reading in enough steps is the loop without a bound. -/
theorem loop_run (hE : E.Bounded) (offset : Nat) {limit : Nat} (hs : scan.Sound t.grammar content)
    (hlimit : t.potential content offset scan ≤ limit) :
    ∃ last, Loop (t.step? content offset) scan (t.run content offset limit scan).1 last ∧
      last.frames = (t.run content offset limit scan).2 := by
  induction limit generalizing scan with
  | zero =>
    cases hstep : t.step? content offset scan with
    | none => exact ⟨scan, .done hstep, rfl⟩
    | some x =>
      -- A step would leave less than nothing.
      have hb := hs.boundary (le_length_of_step? hstep)
      have := (hs.step hE hstep).1.potential_lt hE hb
      omega
  | succ limit ih =>
    unfold run
    cases hstep : t.step? content offset scan with
    | none => exact ⟨scan, .done hstep, rfl⟩
    | some x =>
      -- The step brings the rest of the way below the limit that is left.
      obtain ⟨tokens, next⟩ := x
      obtain ⟨hkind, -, hnext⟩ := hs.step hE hstep
      have hlt := hkind.potential_lt hE (hs.boundary (le_length_of_step? hstep))
      obtain ⟨last, hloop, hlast⟩ := ih hnext (by omega)
      exact ⟨last, .next hstep hloop, hlast⟩

/-- The bound on the steps of a line is enough for it. -/
theorem potential_start_le (t : Tokenizer E) (content : String) (offset : Nat) (frames : Frames E) :
    t.potential content offset ⟨0, frames, []⟩ ≤ t.stepLimit content frames := by
  have hu := t.unopened_le frames (offset + 0)
  have hmul : (content.utf8ByteSize + 1) * (t.grammar.graph.size + 1) + t.grammar.graph.size + 1 ≤
      (content.utf8ByteSize + 2) * (t.grammar.graph.size + 2) := by
    -- One more rule than the graph has makes up for the rest.
    calc (content.utf8ByteSize + 1) * (t.grammar.graph.size + 1) + t.grammar.graph.size + 1
        = (content.utf8ByteSize + 2) * (t.grammar.graph.size + 1) := by
          rw [show content.utf8ByteSize + 2 = content.utf8ByteSize + 1 + 1 from rfl,
            Nat.add_mul (content.utf8ByteSize + 1), Nat.one_mul, Nat.add_assoc]
      _ ≤ (content.utf8ByteSize + 2) * (t.grammar.graph.size + 2) :=
          Nat.mul_le_mul_left _ (Nat.le_succ _)
  unfold potential stepLimit
  dsimp only
  rw [Nat.mul_assoc, Nat.sub_zero]
  omega

/-- Reading a line is the loop without a bound. -/
theorem readsContent_iff (hE : E.Bounded) {frames after : Frames E} :
    t.ReadsContent content offset frames tokens after ↔
      (tokens, after) =
        t.run content offset (t.stepLimit content frames) ⟨0, frames, []⟩ := by
  obtain ⟨last, hloop, hlast⟩ := loop_run hE offset (Scan.Sound.start t.grammar content frames)
    (t.potential_start_le content offset frames)
  constructor
  · -- A loop has one end only, and reading in enough steps comes to it.
    rintro ⟨last', hloop', rfl⟩
    obtain ⟨rfl, rfl⟩ := hloop'.unique hloop
    rw [hlast]
  · intro h
    obtain ⟨rfl, rfl⟩ := Prod.mk.inj h
    exact ⟨last, hloop, hlast⟩

/-- What a line comes to is what it comes to without a bound. -/
theorem readsLine_iff (hE : E.Bounded) {line : Text.Line} {frames after : Frames E} :
    t.ReadsLine line frames tokens after ↔ (tokens, after) = t.line line frames := by
  unfold ReadsLine Tokenizer.line
  split
  · rw [Prod.mk.injEq]
  · exact readsContent_iff hE

/-- What lines come to one after another is what they come to without a bound. -/
theorem readsLines_iff {reads : Text.Line → Frames E → List Token → Frames E → Prop}
    (hreads : ∀ line frames tokens after,
      reads line frames tokens after ↔ (tokens, after) = t.line line frames)
    {lines : List Text.Line} {frames after : Frames E} :
    ReadsLines reads lines frames tokens after ↔ (tokens, after) = t.lines lines frames := by
  constructor
  · intro h
    induction h with
    | nil => rfl
    | cons one more ih =>
      rw [Tokenizer.lines, ← (hreads _ _ _ _).1 one]
      dsimp only
      rw [← ih]
  · -- Line by line each reading is the function's.
    intro h
    induction lines generalizing frames tokens with
    | nil =>
      obtain ⟨rfl, rfl⟩ := Prod.mk.inj h
      exact .nil
    | cons line rest ih =>
      rw [Tokenizer.lines] at h
      obtain ⟨rfl, rfl⟩ := Prod.mk.inj h
      exact .cons ((hreads _ _ _ _).2 rfl) (ih rfl)

/-- What a text comes to is what it comes to without a bound. -/
theorem readsText_iff (hE : E.Bounded) {text : String} :
    t.ReadsText text tokens ↔ tokens = t.tokens text := by
  unfold ReadsText Tokenizer.tokens
  constructor
  · rintro ⟨read, after, hread, rfl⟩
    rw [← (readsLines_iff fun _ _ _ _ => readsLine_iff hE).1 hread]
  · rintro rfl
    exact ⟨_, _, (readsLines_iff fun _ _ _ _ => readsLine_iff hE).2 rfl, rfl⟩

/-- Every scan that a line's reading reaches is sound. -/
theorem Reaches.sound (hE : E.Bounded) {frames : Frames E}
    (h : t.Reaches content offset ⟨0, frames, []⟩ scan) : scan.Sound t.grammar content := by
  induction h with
  | refl => exact Scan.Sound.start t.grammar content frames
  | tail _ hstep ih =>
    obtain ⟨tokens, hstep⟩ := hstep
    exact (ih.step hE hstep).2.2

/-- Reading on from a sound scan looks at boundaries of the line only. -/
theorem isBoundary_of_mem_looksAt (hE : E.Bounded) (hs : scan.Sound t.grammar content) {place : Nat}
    (h : place ∈ t.looksAt content offset scan) : Text.isBoundary content place = true := by
  unfold looksAt at h
  split at h
  · simp at h
  · next hin =>
    have hb := hs.boundary (by omega)
    obtain ⟨hopen, hclose, -⟩ :=
      Grammar.nextEvent_spec hE scan.frames offset hb hs.sourced
    have hahead : ∀ event ∈
        (t.grammar.nextEvent scan.frames content offset scan.pos scan.memo).1,
        event.found.Ahead content scan.pos := by
      -- An event is a match at or behind the scan.
      intro event hev
      cases event with
      | opening id found =>
        obtain ⟨⟨opening, -, hfinds⟩, -⟩ := hopen id found hev
        exact hfinds.ahead hE
      | closing found =>
        obtain ⟨frame, outer, -, hfinds⟩ := hclose found hev
        exact Expression.ahead_of_findAt hE hb hfinds
    split at h
    · rw [List.mem_singleton.1 h]
      exact hb
    · next event hev =>
      have ha := hahead event hev
      have h1 := ha.le_start
      have h2 := ha.start_le_stop
      rw [Nat.max_eq_left (by omega)] at h
      simp only [List.mem_cons, List.not_mem_nil, or_false] at h
      -- The looks are at the scan, at both ends of the match and where it is closed.
      rcases h with rfl | rfl | rfl | rfl
      · exact hb
      · exact ha.boundary_start
      · exact ha.boundary_stop
      · exact ha.boundary_stop

/-- Reading ends. On every line, behind any open regions, the loop over its events takes finitely
many steps and comes to what the bounded reading comes to; it goes forward, stands at a boundary of
the line or one past its end, and looks at boundaries of the line only. So every text is read to its
end, along lines that are stretches of it. -/
theorem reading_ends (hE : E.Bounded) (t : Tokenizer E) :
    (∀ (content : String) (offset : Nat) (frames : Frames E),
      (∀ tokens after, t.ReadsContent content offset frames tokens after ↔
        (tokens, after) = t.run content offset (t.stepLimit content frames) ⟨0, frames, []⟩) ∧
      ∀ scan, t.Reaches content offset ⟨0, frames, []⟩ scan →
        (Text.isBoundary content scan.pos = true ∨ scan.pos = content.utf8ByteSize + 1) ∧
        (∀ place ∈ t.looksAt content offset scan, Text.isBoundary content place = true) ∧
        ∀ tokens next, t.step? content offset scan = some (tokens, next) →
          scan.pos ≤ next.pos) ∧
    ∀ text : String,
      (∀ tokens, t.ReadsText text tokens ↔ tokens = t.tokens text) ∧
      ∀ line ∈ Text.lines text, Text.slice? text ⟨line.start, line.stop⟩ =
        some line.content := by
  constructor
  · intro content offset frames
    refine ⟨fun tokens after => readsContent_iff hE, fun scan hreach => ?_⟩
    have hs := hreach.sound hE
    exact ⟨hs.place, fun place => isBoundary_of_mem_looksAt hE hs,
      fun tokens next hstep => (hs.step hE hstep).2.1⟩
  · intro text
    exact ⟨fun tokens => readsText_iff hE, fun line => Text.slice?_of_mem_lines⟩

/-- Also a text whose regions are opened and closed without a byte is read to its end. -/
theorem reading_ends_empties :
    Engine.literal.Bounded ∧
      ReadsText ⟨Grammar.empties, 80⟩ "ab"
        [⟨"empty", ⟨0, 0⟩, 0⟩, ⟨"empty", ⟨1, 1⟩, 0⟩,
        ⟨"empty", ⟨2, 2⟩, 0⟩] :=
  ⟨Engine.literal_bounded,
    (((reading_ends Engine.literal_bounded ⟨Grammar.empties, 80⟩).2 "ab").1 _).2
      (by decide +kernel)⟩

end Tokenizer

end TextScopes
