import Mathlib.Data.List.TakeWhile
import TextScopes.Text.Blank

/-!
# Pieces of a text and blanks around them

A text is cut at some characters into pieces, and blanks are taken off both ends of a piece. Both
are said here by where the parts of the text lie: a piece has no cut inside and one, or an end of
the text, on either side (`Text.mem_splitOn_iff`), and a trimmed text has only blanks around it and
none at its ends (`Text.trim_eq_iff`).
-/

namespace TextScopes.Text

variable {α : Type} {cut : Char → Bool} {cs piece inner : List Char}

/-- A piece of a text between the characters that `cut` marks: it has none of them, and stands
between two of them or the ends of the text. -/
def IsPiece (cut : Char → Bool) (cs piece : List Char) : Prop :=
  ∃ front back, cs = front ++ piece ++ back ∧ (∀ c ∈ piece, cut c = false) ∧
    (∀ c ∈ front.getLast?, cut c = true) ∧ ∀ c ∈ back.head?, cut c = true

/-- The part of a text inside the blanks around it: what lies before and behind it is blank, and it
neither starts nor ends with a blank. -/
def IsInside (cs inner : List Char) : Prop :=
  ∃ front back, cs = front ++ inner ++ back ∧ (∀ c ∈ front, isBlank c = true) ∧
    (∀ c ∈ back, isBlank c = true) ∧ (∀ c ∈ inner.head?, isBlank c = false) ∧
    ∀ c ∈ inner.getLast?, isBlank c = false

/-- A list is parted where a condition first fails just when the front part satisfies it and the
back part does not begin with what does. -/
theorem parted_iff (p : α → Bool) (xs front back : List α) :
    front = xs.takeWhile p ∧ back = xs.dropWhile p ↔
      xs = front ++ back ∧ (∀ x ∈ front, p x = true) ∧
      ∀ x ∈ back.head?, p x = false := by
  constructor
  · rintro ⟨rfl, rfl⟩
    refine ⟨List.takeWhile_append_dropWhile.symm, fun x hx => List.mem_takeWhile_imp hx,
      fun x hx => ?_⟩
    have hhead := List.head?_dropWhile_not p xs
    rw [hx] at hhead
    exact hhead
  · -- The first element behind the front fails the test, and the run stops there.
    rintro ⟨rfl, hfront, hback⟩
    rw [List.takeWhile_append_of_pos hfront, List.dropWhile_append_of_pos hfront]
    cases back with
    | nil => simp
    | cons b back =>
      have hb : ¬ p b = true := by simp [hback b rfl]
      rw [List.takeWhile_cons_of_neg hb, List.dropWhile_cons_of_neg hb, List.append_nil]
      exact ⟨rfl, rfl⟩

/-! ### Pieces -/

/-- A piece behind the first one: it stands behind a cut. -/
def IsLaterPiece (cut : Char → Bool) (cs piece : List Char) : Prop :=
  ∃ front c back, cs = front ++ c :: (piece ++ back) ∧ cut c = true ∧
    (∀ c ∈ piece, cut c = false) ∧
    ∀ c ∈ back.head?, cut c = true

/-- A piece of a text is the part up to the first cut, or stands behind a cut. -/
theorem isPiece_iff : IsPiece cut cs piece ↔
    piece = cs.takeWhile (fun c => !cut c) ∨ IsLaterPiece cut cs piece := by
  -- The first piece is what stands before the first cut.
  have hfirst : piece = cs.takeWhile (fun c => !cut c) ↔ ∃ back, cs = piece ++ back ∧
      (∀ c ∈ piece, cut c = false) ∧ ∀ c ∈ back.head?, cut c = true := by
    have hparted := parted_iff (fun c => !cut c) cs piece
    simp only [Bool.not_eq_true', Bool.not_eq_false'] at hparted
    simp only [← hparted, exists_and_left, exists_eq, and_true]
  rw [hfirst]
  constructor
  · -- Before the piece there is nothing, or it ends in a cut.
    rintro ⟨front, back, rfl, hpiece, hfront, hback⟩
    rcases List.eq_nil_or_concat front with rfl | ⟨front, c, rfl⟩
    · exact .inl ⟨back, rfl, hpiece, hback⟩
    · rw [List.concat_eq_append] at hfront ⊢
      exact .inr ⟨front, c, back, by simp, hfront c (by simp), hpiece, hback⟩
  · rintro (⟨back, rfl, hpiece, hback⟩ | ⟨front, c, back, rfl, hc, hpiece, hback⟩)
    · exact ⟨[], back, rfl, hpiece, by simp, hback⟩
    · exact ⟨front ++ [c], back, by simp, hpiece, by simpa using hc, hback⟩

/-- Behind a cut the later pieces are the first piece of the rest and the later ones of it. -/
theorem isLaterPiece_cons_of_cut {c : Char} (h : cut c = true) :
    IsLaterPiece cut (c :: cs) piece ↔ IsPiece cut cs piece := by
  constructor
  · rintro ⟨front, d, back, heq, hd, hpiece, hback⟩
    -- Either this cut is the one before the piece, or a later one is.
    rcases front with _ | ⟨e, front⟩
    · obtain ⟨rfl, rfl⟩ : c = d ∧ cs = piece ++ back := by simpa using heq
      exact ⟨[], back, rfl, hpiece, by simp, hback⟩
    · obtain ⟨rfl, rfl⟩ : c = e ∧ cs = front ++ d :: (piece ++ back) := by simpa using heq
      exact isPiece_iff.2 (.inr ⟨front, d, back, rfl, hd, hpiece, hback⟩)
  · rintro ⟨front, back, rfl, hpiece, hfront, hback⟩
    rcases List.eq_nil_or_concat front with rfl | ⟨front, d, rfl⟩
    · exact ⟨[], c, back, rfl, h, hpiece, hback⟩
    · rw [List.concat_eq_append] at hfront ⊢
      exact ⟨c :: front, d, back, by simp, hfront d (by simp), hpiece, hback⟩

/-- A character that is no cut belongs to the first piece. -/
theorem isLaterPiece_cons_of_not {c : Char} (h : cut c = false) :
    IsLaterPiece cut (c :: cs) piece ↔ IsLaterPiece cut cs piece := by
  constructor
  · rintro ⟨front, d, back, heq, hd, hpiece, hback⟩
    -- This character is no cut, so that the one before the piece comes later.
    rcases front with _ | ⟨e, front⟩
    · obtain ⟨rfl, -⟩ : c = d ∧ cs = piece ++ back := by simpa using heq
      rw [h] at hd
      cases hd
    · obtain ⟨rfl, rfl⟩ : c = e ∧ cs = front ++ d :: (piece ++ back) := by simpa using heq
      exact ⟨front, d, back, rfl, hd, hpiece, hback⟩
  · rintro ⟨front, d, back, rfl, hd, hpiece, hback⟩
    exact ⟨c :: front, d, back, rfl, hd, hpiece, hback⟩

/-- The first run of a text is the part up to the first cut, and the others are its later pieces. -/
theorem splitOn_eq_cons (cut : Char → Bool) (cs : List Char) : ∃ runs,
    splitOn cut cs = cs.takeWhile (fun c => !cut c) :: runs ∧
      ∀ piece, piece ∈ runs ↔ IsLaterPiece cut cs piece := by
  induction cs with
  | nil => exact ⟨[], rfl, fun piece => by simp [IsLaterPiece]⟩
  | cons c cs ih =>
    obtain ⟨runs, hruns, hmem⟩ := ih
    rw [splitOn, hruns]
    cases hc : cut c with
    -- A cut ends a piece: what was the first one follows it.
    | true =>
      refine ⟨cs.takeWhile (fun c => !cut c) :: runs, by simp [hc], fun piece => ?_⟩
      rw [isLaterPiece_cons_of_cut hc, isPiece_iff, List.mem_cons, hmem]
    -- Any other character lengthens the first piece.
    | false =>
      refine ⟨runs, by simp [hc], fun piece => ?_⟩
      rw [isLaterPiece_cons_of_not hc, hmem]

/-- What a text is split into are its pieces. -/
theorem mem_splitOn_iff : piece ∈ splitOn cut cs ↔ IsPiece cut cs piece := by
  obtain ⟨runs, hruns, hmem⟩ := splitOn_eq_cons cut cs
  rw [hruns, List.mem_cons, hmem, isPiece_iff]

/-! ### Blanks -/

/-- Trimming a text leaves the part inside the blanks around it. -/
theorem trim_eq_iff : trim cs = inner ↔ IsInside cs inner := by
  constructor
  · rintro rfl
    -- The blanks in front are cut off first, and then those behind, which are in front
    -- in the reversed text.
    obtain ⟨hcs, hfront, hhead⟩ := (parted_iff isBlank cs _ _).1 ⟨rfl, rfl⟩
    unfold trim
    generalize cs.dropWhile isBlank = rest at hcs hhead ⊢
    obtain ⟨hrest, hback, hlast⟩ := (parted_iff isBlank rest.reverse _ _).1 ⟨rfl, rfl⟩
    generalize rest.reverse.dropWhile isBlank = inner at hrest hlast ⊢
    have hrest := congrArg List.reverse hrest
    rw [List.reverse_reverse, List.reverse_append] at hrest
    refine ⟨cs.takeWhile isBlank, (rest.reverse.takeWhile isBlank).reverse, ?_, hfront,
      fun c hc => hback c (List.mem_reverse.1 hc), fun c hc => hhead c ?_, fun c hc => hlast c ?_⟩
    · rw [List.append_assoc, ← hrest]
      exact hcs
    · rw [hrest, List.head?_append, hc]
      rfl
    · rwa [List.getLast?_reverse] at hc
  · -- The blanks on both sides are what is cut off, as the inner part has none at its ends.
    rintro ⟨front, back, rfl, hfront, hback, hhead, hlast⟩
    unfold trim
    rw [List.append_assoc, List.dropWhile_append_of_pos hfront]
    cases inner with
    | nil =>
      rw [List.nil_append, List.dropWhile_eq_nil_iff.2 hback]
      rfl
    | cons c inner =>
      have hc : ¬ isBlank c = true := by simp [hhead c rfl]
      have hback' : ∀ c ∈ back.reverse, isBlank c = true :=
        fun c hc => hback c (List.mem_reverse.1 hc)
      rw [List.cons_append, List.dropWhile_cons_of_neg hc, ← List.cons_append,
        List.reverse_append, List.dropWhile_append_of_pos hback']
      have hkept : (c :: inner).reverse = (c :: inner).reverse.dropWhile isBlank :=
        ((parted_iff _ _ _ _).2
          ⟨(List.nil_append _).symm, by simp, by rwa [List.head?_reverse]⟩).2
      rw [← hkept, List.reverse_reverse]

end TextScopes.Text
