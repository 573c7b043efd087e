import TextScopes.Text

/-!
# Character boundaries of a text

`Text.split?` cuts a list of characters at a byte. It succeeds exactly at the byte counts of the
list's front parts (`split?_eq_some_iff`), which are the character boundaries. From this follow
where boundaries lie, that `next?` goes from one boundary to a later one, and that the boundaries of
a part of a text, moved to where the part starts, are boundaries of the text
(`isBoundary_ofList_append`).
-/

namespace TextScopes.Text

/-- Byte counts add up over parts. -/
@[simp] theorem byteCount_append (as bs : List Char) :
    byteCount (as ++ bs) = byteCount as + byteCount bs := by
  induction as with
  | nil => simp [byteCount]
  | cons c as ih =>
    simp only [List.cons_append, byteCount, ih]
    omega

/-- Byte counts do not depend on the order. -/
theorem byteCount_reverse (cs : List Char) : byteCount cs.reverse = byteCount cs := by
  induction cs with
  | nil => rfl
  | cons c cs ih =>
    rw [List.reverse_cons, byteCount_append, ih]
    simp only [byteCount]
    omega

/-- The byte count of characters is the size of the string that they make. -/
@[simp] theorem utf8ByteSize_ofList (cs : List Char) :
    (String.ofList cs).utf8ByteSize = byteCount cs := by
  induction cs with
  | nil => simp [byteCount]
  | cons c cs ih =>
    rw [show c :: cs = [c] ++ cs from rfl, String.ofList_append, String.utf8ByteSize_append, ih,
      byteCount_append]
    simp [byteCount]

/-- The size of a text is the byte count of its characters. -/
theorem utf8ByteSize_eq (text : String) : text.utf8ByteSize = byteCount text.toList := by
  rw [← utf8ByteSize_ofList, String.ofList_toList]

/-- Characters that take no byte are none. -/
theorem eq_nil_of_byteCount {cs : List Char} (h : byteCount cs = 0) : cs = [] := by
  cases cs with
  | nil => rfl
  | cons c cs =>
    have := c.utf8Size_pos
    simp only [byteCount] at h
    omega

/-- Of two cuts of one text the one with fewer bytes before it lies in the front part of the
other. -/
theorem exists_append_of_le {front back front' back' : List Char}
    (h : front ++ back = front' ++ back') (hle : byteCount front ≤ byteCount front') :
    ∃ more, front' = front ++ more ∧ back = more ++ back' := by
  rcases List.append_eq_append_iff.1 h with ⟨more, rfl, rfl⟩ | ⟨more, rfl, rfl⟩
  · exact ⟨more, rfl, rfl⟩
  · rw [byteCount_append] at hle
    obtain rfl : more = [] := eq_nil_of_byteCount (by omega)
    exact ⟨[], by simp⟩

/-- Two cuts of one text with as many bytes before them are the same. -/
theorem append_inj_of_count {front back front' back' : List Char}
    (h : front ++ back = front' ++ back') (hcount : byteCount front = byteCount front') :
    front = front' ∧ back = back' := by
  obtain ⟨more, rfl, rfl⟩ := exists_append_of_le h (Nat.le_of_eq hcount)
  rw [byteCount_append] at hcount
  obtain rfl : more = [] := eq_nil_of_byteCount (by omega)
  simp

/-- A text is cut at the byte count of a front part. -/
theorem split?_byteCount (before after : List Char) :
    split? (before ++ after) (byteCount before) = some (before, after) := by
  induction before with
  | nil => simp [byteCount, split?]
  | cons c before ih =>
    -- A character has a byte, so that the count is not zero before it.
    obtain ⟨n, hn⟩ : ∃ n, c.utf8Size = n + 1 :=
      Nat.exists_eq_succ_of_ne_zero (by have := c.utf8Size_pos; omega)
    have hsum : byteCount (c :: before) = n + byteCount before + 1 := by
      simp only [byteCount, hn]
      omega
    have hrest : n + byteCount before + 1 - c.utf8Size = byteCount before := by omega
    rw [hsum, List.cons_append, split?, if_pos (by omega), hrest, ih]
    rfl

/-- A text is cut exactly at the byte counts of its front parts. -/
theorem split?_eq_some_iff {cs before after : List Char} {n : Nat} :
    split? cs n = some (before, after) ↔ before ++ after = cs ∧ byteCount before = n := by
  constructor
  · intro h
    exact ⟨append_of_split? h, byteCount_of_split? h⟩
  · rintro ⟨rfl, rfl⟩
    exact split?_byteCount before after

/-- An offset is a boundary exactly when it is the byte count of a front part of the text. -/
theorem isBoundary_iff {text : String} {offset : Nat} :
    isBoundary text offset = true ↔
      ∃ before after, before ++ after = text.toList ∧ byteCount before = offset := by
  unfold isBoundary
  rw [Option.isSome_iff_exists]
  constructor
  · rintro ⟨⟨before, after⟩, h⟩
    exact ⟨before, after, split?_eq_some_iff.1 h⟩
  · rintro ⟨before, after, h⟩
    exact ⟨(before, after), split?_eq_some_iff.2 h⟩

/-- A text starts at a boundary. -/
theorem isBoundary_zero (text : String) : isBoundary text 0 = true :=
  isBoundary_iff.2 ⟨[], text.toList, rfl, rfl⟩

/-- A text stops at a boundary. -/
theorem isBoundary_length (text : String) : isBoundary text text.utf8ByteSize = true :=
  isBoundary_iff.2 ⟨text.toList, [], by simp, (utf8ByteSize_eq text).symm⟩

/-- No boundary lies behind the end of a text. -/
theorem le_of_isBoundary {text : String} {offset : Nat} (h : isBoundary text offset = true) :
    offset ≤ text.utf8ByteSize := by
  obtain ⟨before, after, happ, hn⟩ := isBoundary_iff.1 h
  rw [utf8ByteSize_eq, ← happ, byteCount_append]
  omega

/-- The next boundary lies further on. -/
theorem lt_of_next? {text : String} {offset next : Nat} (h : next? text offset = some next) :
    offset < next := by
  simp only [next?, Option.bind_eq_bind, Option.bind_eq_some_iff, Option.pure_def] at h
  obtain ⟨_, _, c, _, h⟩ := h
  have := c.utf8Size_pos
  have := Option.some.inj h
  omega

/-- What comes next behind a boundary is a boundary. -/
theorem isBoundary_next? {text : String} {offset next : Nat} (h : next? text offset = some next) :
    isBoundary text next = true := by
  simp only [next?, Option.bind_eq_bind, Option.bind_eq_some_iff, Option.pure_def] at h
  -- The next offset is behind the character that follows.
  obtain ⟨⟨before, after⟩, hsplit, c, hc, h⟩ := h
  obtain ⟨happ, hn⟩ := split?_eq_some_iff.1 hsplit
  obtain ⟨tail, rfl⟩ : ∃ tail, after = c :: tail := by
    cases after with
    | nil => simp at hc
    | cons d tail => exact ⟨tail, by simp_all⟩
  refine isBoundary_iff.2 ⟨before ++ [c], tail, by simp [← happ], ?_⟩
  rw [byteCount_append, hn, ← Option.some.inj h]
  simp [byteCount]

/-- A boundary of a part is a boundary of the whole, behind what comes before the part. -/
theorem isBoundary_ofList_append {before part after : List Char} {offset : Nat}
    (h : isBoundary (String.ofList part) offset = true) :
    isBoundary (String.ofList (before ++ part ++ after)) (byteCount before + offset) = true := by
  obtain ⟨front, back, happ, hn⟩ := isBoundary_iff.1 h
  rw [String.toList_ofList] at happ
  refine isBoundary_iff.2 ⟨before ++ front, back ++ after, ?_, by rw [byteCount_append, hn]⟩
  simp [← happ]

/-- A text has a boundary behind each front part. -/
theorem isBoundary_byteCount (before after : List Char) :
    isBoundary (String.ofList (before ++ after)) (byteCount before) = true :=
  isBoundary_iff.2 ⟨before, after, String.toList_ofList.symm, rfl⟩

/-- A text is made of what is before a boundary and what is behind it. -/
theorem exists_of_isBoundary {text : String} {offset : Nat} (h : isBoundary text offset = true) :
    ∃ before after, text = String.ofList (before ++ after) ∧ byteCount before = offset := by
  obtain ⟨before, after, happ, hn⟩ := isBoundary_iff.1 h
  exact ⟨before, after, by rw [happ, String.ofList_toList], hn⟩

/-- A text is made of what is before a boundary, what is from it up to a later one,
and what is behind. -/
theorem exists_of_isBoundary_le {text : String} {a b : Nat} (ha : isBoundary text a = true)
    (hb : isBoundary text b = true) (hle : a ≤ b) : ∃ before taken after,
      text = String.ofList (before ++ taken ++ after) ∧ byteCount before = a ∧
        byteCount (before ++ taken) = b := by
  obtain ⟨before, rest, happ, rfl⟩ := isBoundary_iff.1 ha
  obtain ⟨front, after, htext, rfl⟩ := exists_of_isBoundary hb
  rw [htext, String.toList_ofList] at happ
  -- The part before the first boundary is in front of the part before the second.
  obtain ⟨taken, rfl, -⟩ := exists_append_of_le happ hle
  exact ⟨before, taken, after, htext, rfl, rfl⟩

/-- What is inserted behind a front part comes to stand there. -/
theorem insert_byteCount (before after : List Char) (inserted : String) :
    insert (String.ofList (before ++ after)) (byteCount before) inserted =
      String.ofList (before ++ inserted.toList ++ after) := by
  rw [insert, String.toList_ofList, split?_byteCount]

/-- What is deleted behind a front part is gone, and the rest follows the front part. -/
theorem delete_byteCount (before taken after : List Char) :
    delete (String.ofList (before ++ taken ++ after))
      ⟨byteCount before, byteCount (before ++ taken)⟩ =
      String.ofList (before ++ after) := by
  have hstart := split?_byteCount before (taken ++ after)
  rw [← List.append_assoc] at hstart
  rw [delete, String.toList_ofList, hstart, split?_byteCount]

end TextScopes.Text
