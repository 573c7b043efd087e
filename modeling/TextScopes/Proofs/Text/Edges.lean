import TextScopes.Proofs.Text.Cuts

/-!
# Where lines start and the last one stops

An edge of a text is an offset where a line starts or the text stops (`IsEdge`). The edges are the
starts of the text's lines, in ascending order, and behind them its length (`mem_edges`,
`pairwise_edges`). Whether an offset is an edge is decided by the characters on one side of it
alone: by those before it up to a place where a line stops (`isEdge_before`), and by those behind a
place before it (`isEdge_behind`). No edge lies inside a line (`not_isEdge_inside`).
-/

namespace TextScopes.Text

/-- A line starts at the offset, or the characters stop there. -/
def IsEdge (cs : List Char) (offset : Nat) : Prop :=
  ∃ front back, cs = front ++ back ∧ (Ended front ∨ back = []) ∧ byteCount front = offset

/-- Characters that stop where a line does stop at an edge. -/
theorem isEdge_of_ended {front : List Char} (h : Ended front) (back : List Char) :
    IsEdge (front ++ back) (byteCount front) :=
  ⟨front, back, rfl, .inl h, rfl⟩

/-- The characters stop at an edge. -/
theorem isEdge_length (cs : List Char) : IsEdge cs (byteCount cs) :=
  ⟨cs, [], (List.append_nil cs).symm, .inr rfl, rfl⟩

/-- No edge lies behind the last character. -/
theorem IsEdge.le {cs : List Char} {offset : Nat} (h : IsEdge cs offset) :
    offset ≤ byteCount cs := by
  obtain ⟨front, back, rfl, -, rfl⟩ := h
  rw [byteCount_append]
  exact Nat.le_add_right _ _

/-- The edges up to a place where a line stops do not depend on what is behind it. -/
theorem isEdge_before {front : List Char} (hfront : Ended front) {offset : Nat}
    (hle : offset ≤ byteCount front) (back back' : List Char) :
    IsEdge (front ++ back) offset ↔ IsEdge (front ++ back') offset := by
  -- An edge there is the end of a front part that stops where a line does.
  have key : ∀ back, IsEdge (front ++ back) offset ↔
      ∃ first more, front = first ++ more ∧ Ended first ∧ byteCount first = offset := by
    intro back
    constructor
    · rintro ⟨first, rest, hcut, hended, rfl⟩
      obtain ⟨more, rfl, rfl⟩ := exists_append_of_le hcut.symm hle
      rcases hended with hended | hnil
      · exact ⟨first, more, rfl, hended, rfl⟩
      · obtain ⟨rfl, -⟩ := List.append_eq_nil_iff.1 hnil
        rw [List.append_nil] at hfront
        exact ⟨first, [], rfl, hfront, rfl⟩
    · rintro ⟨first, more, rfl, hended, rfl⟩
      exact ⟨first, more ++ back, List.append_assoc _ _ _, .inl hended, rfl⟩
  rw [key, key]

/-- The edges behind a place do not depend on what is before it. -/
theorem isEdge_behind (front front' tail : List Char) {count : Nat} (hcount : 0 < count) :
    IsEdge (front ++ tail) (byteCount front + count) ↔
      IsEdge (front' ++ tail) (byteCount front' + count) := by
  -- An edge there is where some of the characters behind the place stop, with a
  -- newline or all of them.
  have key : ∀ front, IsEdge (front ++ tail) (byteCount front + count) ↔
      ∃ mid rest, tail = mid ++ rest ∧ (mid.getLast? = some '\n' ∨ rest = []) ∧
        byteCount mid = count := by
    intro front
    constructor
    · -- The part up to the edge goes beyond the front, by at least one character.
      rintro ⟨first, rest, hcut, hended, hfirst⟩
      obtain ⟨mid, rfl, rfl⟩ := exists_append_of_le hcut (by omega)
      rw [byteCount_append] at hfirst
      have hmid : mid ≠ [] := by
        rintro rfl
        rw [byteCount] at hfirst
        omega
      exact ⟨mid, rest, rfl, hended.imp_left (·.getLast? hmid), by omega⟩
    · rintro ⟨mid, rest, rfl, hlast, rfl⟩
      exact ⟨front ++ mid, rest, (List.append_assoc _ _ _).symm,
        hlast.imp_left (ended_append front), byteCount_append _ _⟩
  rw [key, key]

/-- No edge lies inside a line. -/
theorem not_isEdge_inside {front cs : List Char} (hline : splitLines cs = [cs]) {offset : Nat}
    (hstart : byteCount front < offset) (hstop : offset < byteCount (front ++ cs))
    (back : List Char) :
    ¬ IsEdge (front ++ cs ++ back) offset := by
  rintro ⟨first, rest, hcut, hended, rfl⟩
  obtain ⟨rest', hcs, rfl⟩ := exists_append_of_le hcut.symm (Nat.le_of_lt hstop)
  obtain ⟨mid, rfl, hmid⟩ := exists_append_of_le hcs (Nat.le_of_lt hstart)
  subst hmid
  have hne : mid ≠ [] := by
    rintro rfl
    rw [List.append_nil] at hstart
    exact Nat.lt_irrefl _ hstart
  -- Both parts of the line have a character.
  have hne' : rest' ≠ [] := by
    rintro rfl
    rw [List.append_nil] at hstop
    exact Nat.lt_irrefl _ hstop
  -- A newline inside the line would part it into two.
  have hlast : mid.getLast? = some '\n' := by
    rcases hended with hended | hnil
    · exact hended.getLast? hne
    · exact absurd (List.append_eq_nil_iff.1 hnil).1 hne'
  rw [splitLines_append rest' (.inr hlast)] at hline
  have hlen := congrArg List.length hline
  have h1 := List.length_pos_iff.2 (mt splitLines_eq_nil_iff.1 hne)
  have h2 := List.length_pos_iff.2 (mt splitLines_eq_nil_iff.1 hne')
  rw [List.length_append, List.length_singleton] at hlen
  omega

/-- The starts of lines and where the last one stops. -/
def edges (text : String) : List Nat := (lines text).map (·.start) ++ [text.utf8ByteSize]

/-- The edges of a text are where a line starts or its characters stop. -/
theorem mem_edges {text : String} {offset : Nat} :
    offset ∈ edges text ↔ IsEdge text.toList offset := by
  rw [edges, List.mem_append, List.mem_singleton, List.mem_map]
  constructor
  · -- A line starts where the lines before it stop.
    rintro (⟨line, hline, rfl⟩ | rfl)
    · rw [lines_eq] at hline
      obtain ⟨before, cs, after, hcss, rfl⟩ := exists_of_mem_placeLines hline
      have hended := (of_splitLines_eq_append hcss).2.2 (List.cons_ne_nil _ _)
      have htext : text.toList = before.flatten ++ (cs :: after).flatten := by
        rw [← flatten_splitLines text.toList, hcss, List.flatten_append]
      rw [htext]
      simpa using isEdge_of_ended hended (cs :: after).flatten
    · rw [utf8ByteSize_eq]
      exact isEdge_length _
  · rintro ⟨front, back, hcut, hended, rfl⟩
    rcases List.eq_nil_or_concat back with rfl | ⟨init, last, rfl⟩
    · rw [List.append_nil] at hcut
      exact .inr (by rw [utf8ByteSize_eq, hcut])
    · have hne : init.concat last ≠ [] := by simp
      -- The first of the lines behind the front part starts there.
      obtain ⟨first, more, hfirst⟩ :=
        List.exists_cons_of_ne_nil (mt splitLines_eq_nil_iff.1 hne)
      refine .inl ⟨⟨byteCount front, String.ofList first⟩, ?_, rfl⟩
      rw [lines_eq, hcut, splitLines_append _ (hended.resolve_right hne), placeLines_append,
        flatten_splitLines, hfirst, Nat.zero_add]
      exact List.mem_append_right _ List.mem_cons_self

/-- Lines that follow one another and are not empty start one behind the other, before they stop. -/
theorem Consecutive.pairwise {start stop : Nat} {lines : List Line}
    (h : Consecutive start lines stop) (hbyte : ∀ line ∈ lines, line.start < line.stop) :
    (lines.map (·.start) ++ [stop]).Pairwise (· < ·) ∧
      ∀ offset ∈ lines.map (·.start) ++ [stop], start ≤ offset := by
  induction lines generalizing start with
  | nil =>
    obtain rfl : start = stop := h
    simp
  | cons line rest ih =>
    obtain ⟨rfl, hrest⟩ := h
    -- Each line has a byte, so that the starts go up.
    obtain ⟨hfirst, hothers⟩ := List.forall_mem_cons.1 hbyte
    obtain ⟨hpair, hle⟩ := ih hrest hothers
    rw [List.map_cons, List.cons_append]
    refine ⟨List.pairwise_cons.2 ⟨fun offset ho => Nat.lt_of_lt_of_le hfirst (hle offset ho),
      hpair⟩, List.forall_mem_cons.2 ⟨Nat.le_refl _, fun offset ho => ?_⟩⟩
    exact Nat.le_of_lt (Nat.lt_of_lt_of_le hfirst (hle offset ho))

/-- The edges of a text are listed in ascending order. -/
theorem pairwise_edges (text : String) : (edges text).Pairwise (· < ·) := by
  refine ((consecutive_lines text).pairwise fun line hline => ?_).1
  -- No line is empty.
  obtain ⟨before, cs, after, -, rfl, hmem⟩ := exists_of_mem_lines hline
  have hbyte : byteCount cs ≠ 0 := mt eq_nil_of_byteCount (ne_nil_of_mem_splitLines hmem)
  rw [Line.stop, utf8ByteSize_ofList]
  dsimp only
  omega

end TextScopes.Text
