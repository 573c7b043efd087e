import TextScopes.Proofs.Tokenizer.Block
import TextScopes.Proofs.Tokenizer.Ending
import TextScopes.Proofs.Tokenizer.Stretch

/-!
# Tokens stop inside the text

When an engine answers matches that stop inside the line that is searched (`Engine.Inside`),
then no token reaches behind the text, whatever regions were open before: also those that no
reading of the text comes to. A token of a match stops with it or before, and one of a region
with the match that closes it.

What is known of the matches that are searched for is known of the event that comes next
(`Grammar.nextEvent_all`), since what is remembered was searched for. So it goes from the steps of a
line to the line, and from there to the lines of a text.
-/

namespace TextScopes

variable {E : Engine}

/-- A search from a place in a text answers a match that stops in the text. -/
def Engine.Inside (E : Engine) : Prop :=
  ∀ program text pos span others, pos ≤ text.utf8ByteSize →
    E.search program text pos = some (some span :: others) → span.stop ≤ text.utf8ByteSize

/-- Plain text is matched inside the text. -/
theorem Engine.literal_inside : Engine.literal.Inside := by
  intro program text pos span others _ h
  exact Text.le_of_isBoundary (Engine.span_of_literal_search h).2.2.2

/-- What is found from a place in a text stops in the text. -/
theorem Expression.stop_le_of_findAt (hE : E.Inside) {e : Expression E} {content : String}
    {pos : Nat}
    {found : Match} (hpos : pos ≤ content.utf8ByteSize) (h : e.findAt content pos = some found) :
    found.span.stop ≤ content.utf8ByteSize := by
  obtain ⟨program, -, hs⟩ := findAt_eq_some_iff.1 h
  exact hE _ _ _ _ _ hpos hs

variable {p : Match → Prop} {content : String} {offset pos : Nat} {memo : Memo}

namespace Memo

/-- All matches that are remembered are such. -/
def All (p : Match → Prop) (memo : Memo) : Prop :=
  ∀ id found, memo.find? id = some (some found) → p found

/-- An empty memo remembers no match. -/
theorem all_nil : All p [] := by
  intro id found h
  simp [find?] at h

/-- Searching for a rule answers and remembers such matches only. -/
theorem All.search (h : memo.All p) {opening : Expression E}
    (hfind : ∀ found, opening.findAt content pos = some found → p found) (id : RuleId) :
    (∀ found ∈ (memo.search id opening content pos).1, p found) ∧
      (memo.search id opening content pos).2.All p := by
  -- A new search answers such a match, and remembers it in place of another.
  have hfresh : (∀ found ∈ (memo.refresh id opening content pos).1, p found) ∧
      (memo.refresh id opening content pos).2.All p := by
    refine ⟨hfind, fun other found hother => ?_⟩
    rw [Memo.refresh, find?_put] at hother
    split at hother
    · exact hfind found (Option.some.inj hother)
    · exact h other found hother
  unfold Memo.search
  split
  · -- That nothing was found is remembered, too.
    exact ⟨by simp, h⟩
  · next old hold =>
    split
    · -- A match that lies ahead is answered as it was remembered.
      refine ⟨fun found hf => ?_, h⟩
      obtain rfl := Option.some.inj hf
      exact h id _ hold
    · exact hfresh
  · exact hfresh

end Memo

namespace Grammar

variable {grammar : Grammar E} {frames : Frames E}

/-- Taking a further rule into account keeps to such matches. -/
theorem consider_all {state : Option (RuleId × Match) × Memo} (id : RuleId)
    (hbest : ∀ x ∈ state.1, p x.2) (hmemo : state.2.All p)
    (hfind : ∀ (e : Expression E) found, e.findAt content pos = some found → p found) :
    (∀ x ∈ (grammar.consider frames content offset pos state id).1, p x.2) ∧
      (grammar.consider frames content offset pos state id).2.All p := by
  unfold consider
  split
  · exact ⟨hbest, hmemo⟩
  · next opening _ =>
    obtain ⟨hanswer, hsearch⟩ := hmemo.search (hfind opening) id
    split
    · -- The candidate has no match.
      next hs =>
      rw [hs] at hsearch
      exact ⟨hbest, hsearch⟩
    · next found memo hs =>
      rw [hs] at hanswer hsearch
      have hfound := hanswer found rfl
      -- The guard passes over the match, or it competes with the best so far.
      split
      · exact ⟨hbest, hsearch⟩
      · refine ⟨fun x hx => ?_, hsearch⟩
        rcases eq_or_mem_of_earlier hx with rfl | hx
        · exact hfound
        · exact hbest x hx

/-- What holds of all matches that are searched for from a place, and of those that are remembered,
holds of the event that comes next and of what is remembered then. -/
theorem nextEvent_all (grammar : Grammar E) (frames : Frames E) (offset : Nat) (hmemo : memo.All p)
    (hfind : ∀ (e : Expression E) found, e.findAt content pos = some found → p found) :
    (∀ event ∈ (grammar.nextEvent frames content offset pos memo).1, p event.found) ∧
      (grammar.nextEvent frames content offset pos memo).2.All p := by
  -- Candidate by candidate the best match and the memory keep it.
  have hfold : ∀ (ids : List RuleId) (state : Option (RuleId × Match) × Memo),
      (∀ x ∈ state.1, p x.2) → state.2.All p →
      (∀ x ∈ (ids.foldl (grammar.consider frames content offset pos) state).1, p x.2) ∧
        (ids.foldl (grammar.consider frames content offset pos) state).2.All p := by
    intro ids
    induction ids with
    | nil => exact fun state hbest hall => ⟨hbest, hall⟩
    | cons id ids ih =>
      intro state hbest hall
      obtain ⟨hbest', hall'⟩ := consider_all id hbest hall hfind
      exact ih _ hbest' hall'
  -- Either the opening or the closing is chosen.
  have hchoose : ∀ (closesLast : Bool) (opened : Option (RuleId × Match))
      (closed : Option Match),
      (∀ x ∈ opened, p x.2) → (∀ found ∈ closed, p found) →
      ∀ event ∈ choose closesLast opened closed, p event.found := by
    intro closesLast opened closed hopened hclosed event hevent
    rcases opened_or_closed_of_choose hevent with ⟨x, hx, rfl⟩ | ⟨found, hfound, rfl⟩
    · exact hopened x hx
    · exact hclosed found hfound
  have hfirst : (∀ x ∈ (grammar.firstOpening frames content offset pos memo).1, p x.2) ∧
      (grammar.firstOpening frames content offset pos memo).2.All p :=
    hfold _ _ (by simp) hmemo
  cases frames with
  | nil => exact ⟨hchoose _ _ _ hfirst.1 (by simp), hfirst.2⟩
  | cons frame outer => exact ⟨hchoose _ _ _ hfirst.1 (hfind _), hfirst.2⟩

end Grammar

namespace Tokenizer

variable {t : Tokenizer E} {scan next : Scan E} {tokens : List Token}

/-- The tokens of a step stop inside the line. -/
theorem stop_le_of_step? (hE : E.Inside)
    (hmemo : scan.memo.All fun found => found.span.stop ≤ content.utf8ByteSize)
    (h : t.step? content offset scan = some (tokens, next)) :
    (∀ token ∈ tokens, token.span.stop ≤ offset + content.utf8ByteSize) ∧
      next.memo.All fun found => found.span.stop ≤ content.utf8ByteSize := by
  have hin := le_length_of_step? h
  obtain ⟨hevent, hnext⟩ := t.grammar.nextEvent_all scan.frames offset hmemo
    fun e found hf => e.stop_le_of_findAt hE hin hf
  -- The groups of a match stop with it or before.
  have hblock : ∀ {base start : Nat} {found : Match} {tokens : List Token},
      found.span.stop ≤ content.utf8ByteSize →
      Block base start (offset + found.span.stop) tokens →
      ∀ token ∈ tokens, token.span.stop ≤ offset + content.utf8ByteSize := by
    intro base start found tokens hfound hblock token ht
    have := (hblock.inside token ht).2
    omega
  unfold step? at h
  rw [if_neg (Nat.not_lt_of_le hin)] at h
  split at h
  · cases h
  · next id found memo hev =>
    rw [hev] at hevent hnext
    have hfound : found.span.stop ≤ content.utf8ByteSize := hevent _ rfl
    unfold readOpening at h
    dsimp only at h
    split at h
    · -- A single match.
      next captures _ =>
      obtain ⟨rfl, rfl⟩ := Prod.mk.inj (Option.some.inj h)
      exact ⟨hblock hfound (block_matching _ captures found offset _), hnext⟩
    · -- The start of a region.
      next captures _ _ _ =>
      obtain ⟨rfl, rfl⟩ := Prod.mk.inj (Option.some.inj h)
      exact ⟨hblock hfound (captures.block_tokens found offset _), hnext⟩
    · cases h
  · next found memo hev =>
    rw [hev] at hevent hnext
    have hfound : found.span.stop ≤ content.utf8ByteSize := hevent _ rfl
    unfold readClosing at h
    dsimp only at h
    split at h
    · cases h
    · -- The end of one, whose token stops with the match.
      next frame outer _ =>
      obtain ⟨rfl, rfl⟩ := Prod.mk.inj (Option.some.inj h)
      refine ⟨List.forall_mem_append.2 ⟨hblock hfound (Captures.block_tokens _ found offset _),
        fun token ht => ?_⟩, hnext⟩
      rw [Frame.span_of_mem_close ht]
      exact Nat.add_le_add_left hfound offset

/-- The tokens of a line stop inside it. -/
theorem stop_le_of_line (hE : E.Inside) (t : Tokenizer E) (line : Text.Line) (frames : Frames E) :
    ∀ token ∈ (t.line line frames).1, token.span.stop ≤ line.stop := by
  -- Step by step the memory has only matches of the line.
  have hrun : ∀ (limit : Nat) (scan : Scan E),
      (scan.memo.All fun found => found.span.stop ≤ line.content.utf8ByteSize) →
      ∀ token ∈ (t.run line.content line.start limit scan).1,
        token.span.stop ≤ line.stop := by
    intro limit
    induction limit with
    | zero => simp [run]
    | succ limit ih =>
      intro scan hmemo
      unfold run
      cases hstep : t.step? line.content line.start scan with
      | none => simp
      | some x =>
        obtain ⟨tokens, next⟩ := x
        obtain ⟨htokens, hnext⟩ := stop_le_of_step? hE hmemo hstep
        exact List.forall_mem_append.2 ⟨htokens, ih next hnext⟩
  unfold Tokenizer.line
  split
  · simp
  · exact hrun _ _ Memo.all_nil

/-- The tokens of lines stop inside what holds them. -/
theorem stop_le_of_lines (hE : E.Inside) (t : Tokenizer E) {stop : Nat} {lines : List Text.Line}
    (hlines : ∀ line ∈ lines, line.stop ≤ stop) (frames : Frames E) :
    ∀ token ∈ (t.lines lines frames).1, token.span.stop ≤ stop := by
  induction lines generalizing frames with
  | nil => simp [lines]
  | cons line rest ih =>
    obtain ⟨hline, hrest⟩ := List.forall_mem_cons.1 hlines
    refine List.forall_mem_append.2 ⟨fun token ht => ?_, ih hrest _⟩
    exact Nat.le_trans (t.stop_le_of_line hE line frames token ht) hline

/-- The tokens of a text stop inside it. -/
theorem stop_le_of_tokens (hE : E.Inside) (t : Tokenizer E) (text : String) :
    ∀ token ∈ t.tokens text, token.span.stop ≤ text.utf8ByteSize := by
  refine List.forall_mem_append.2
    ⟨t.stop_le_of_lines hE (fun _ => Text.stop_le_of_mem_linesFrom) [], fun token ht => ?_⟩
  exact Nat.le_of_eq (Frames.stop_of_mem_close ht)

end Tokenizer

end TextScopes
