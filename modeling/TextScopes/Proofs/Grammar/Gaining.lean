import TextScopes.Proofs.Grammar.Reading
import TextScopes.Proofs.Grammar.Splicing

/-!
# Malformed entries put in

A value may write the entry that another writes with a malformed one more, in the list that it
holds, in its repository, or inside an entry of these at any depth (`Entry.GainsMalformed`). The
malformed one may be of any form, and may declare entries and includes itself. The list has to hold
something before, since an entry is malformed without anything to hold.

What such a value writes is wider than what the other writes: the entry is of the same kind, for
this does not depend on what is in a list but on whether there is something, and the row with the
malformed entry is laid out with its places put in (`Entry.GainsMalformed.exists_widens`). A
definition is wider in the same way (`Definition.GainsMalformed.exists_widens`).
-/

namespace TextScopes

open Json (Value)

variable {E : Engine}

namespace Entry

/-! ### Entries -/

/-- One value writes an entry, and the other writes it with a malformed entry more somewhere in
it. -/
inductive GainsMalformed (E : Engine) : Value → Value → Prop
  /-- The malformed entry is in the list, which held something before. -/
  | pattern {v v' bad : Value} {front back : List Value} (others : front ++ back ≠ [])
      (malformed : (ofValue E bad).isWellFormed = false)
      (rewrites : Rewrites "patterns" (.array (front ++ back))
        (.array (front ++ bad :: back)) v v') :
      GainsMalformed E v v'
  /-- The malformed entry is in the repository. -/
  | named {v v' bad : Value} {front back : List (String × Value)} {key : String}
      (malformed : (ofValue E bad).isWellFormed = false)
      (rewrites : Rewrites "repository" (.object (front ++ back))
        (.object (front ++ (key, bad) :: back)) v v') :
      GainsMalformed E v v'
  /-- The malformed entry is inside an entry of the list. -/
  | inPattern {v v' w w' : Value} {front back : List Value} (inside : GainsMalformed E w w')
      (rewrites : Rewrites "patterns" (.array (front ++ w :: back))
        (.array (front ++ w' :: back)) v v') :
      GainsMalformed E v v'
  /-- The malformed entry is inside an entry of the repository. -/
  | inNamed {v v' w w' : Value} {front back : List (String × Value)} {key : String}
      (inside : GainsMalformed E w w')
      (rewrites : Rewrites "repository" (.object (front ++ (key, w) :: back))
        (.object (front ++ (key, w') :: back)) v v') :
      GainsMalformed E v v'

variable {v v' : Value} {items items' : List Value} {entries entries' : List (String × Value)}
  {fields : Fields} {place count : Nat}

/-- What kind of rule fields make depends on a list only by whether it holds something. -/
theorem Fields.kind?_with_patterns (hitems : fields.patterns = some items)
    (hempty : items' = [] ↔ items = []) :
    Fields.kind? E { fields with patterns := some items' } = fields.kind? E := by
  unfold Fields.kind?
  dsimp only
  rw [hitems, Option.getD_some, Option.getD_some]
  -- Only whether the list is empty counts.
  cases items with
  | nil => rw [hempty.2 rfl]
  | cons item rest =>
    cases items' with
    | nil => exact absurd (hempty.1 rfl) (List.cons_ne_nil _ _)
    | cons item' rest' => rfl

/-- An entry is wider when it holds a wider row. -/
theorem exists_widens_of_patterns
    (h : WidensRow place count (unnamed (items.map (ofValue E))) (unnamed (items'.map (ofValue E))))
    (hempty : items' = [] ↔ items = [])
    (hrewrites : Rewrites "patterns" (.array items) (.array items') v v') :
    ∃ place count, Widens place count (ofValue E v) (ofValue E v') := by
  obtain ⟨hfields', hitems⟩ := hrewrites.ofValue?_patterns
  rw [ofValue_eq v, ofValue_eq v', hfields']
  cases hfields : Fields.ofValue? v with
  -- What is no record is read as malformed, before and after.
  | none => exact ⟨0, 0, .refl _⟩
  | some fields =>
    have hitems := hitems fields hfields
    rw [Option.map_some, Option.map_some, Option.map_some, Option.getD_some,
      Option.getD_some, ofFields, ofFields, Fields.kind?_with_patterns hitems hempty]
    dsimp only
    cases fields.link with
    -- An include has no entries inside.
    | some text => exact ⟨0, 0, .refl _⟩
    | none =>
      unfold Fields.inner
      dsimp only
      split
      -- A match holds nothing of the list.
      · exact ⟨0, 0, .refl _⟩
      · rw [hitems, Option.getD_some, Option.getD_some]
        cases fields.kind? E with
        -- What a malformed rule would hold is not laid out, so that the places are
        -- those of its repository.
        | none => exact ⟨_, _, .of_repository (.refl _) _ _ _⟩
        | some kind => exact ⟨_, _, .of_body (.of_patterns h _) _ kind⟩

/-- An entry is wider when its repository is. -/
theorem exists_widens_of_repository (h : WidensRow place count (row E entries) (row E entries'))
    (hrewrites : Rewrites "repository" (.object entries) (.object entries') v v') :
    ∃ place count, Widens place count (ofValue E v) (ofValue E v') := by
  obtain ⟨hfields', hentries⟩ := hrewrites.ofValue?_repository
  rw [ofValue_eq v, ofValue_eq v', hfields']
  cases hfields : Fields.ofValue? v with
  | none => exact ⟨0, 0, .refl _⟩
  | some fields =>
    have hentries := hentries fields hfields
    have hkind : Fields.kind? E { fields with repository := some entries' } = fields.kind? E := rfl
    rw [Option.map_some, Option.map_some, Option.map_some, Option.getD_some,
      Option.getD_some, ofFields, ofFields, hkind, hentries, Option.getD_some]
    dsimp only
    cases fields.link with
    | some text => exact ⟨0, 0, .refl _⟩
    | none =>
      cases fields.kind? E with
      | none => exact ⟨_, _, .of_repository h _ _ _⟩
      | some kind => exact ⟨_, _, .of_body (.of_repository h _) _ kind⟩

/-- The entries of a list are those of its parts and the one between them. -/
theorem unnamed_split (front back : List Value) (w : Value) :
    unnamed ((front ++ w :: back).map (ofValue E)) =
      unnamed (front.map (ofValue E)) ++ ("", ofValue E w) :: unnamed (back.map (ofValue E)) := by
  simp only [unnamed, List.map_append, List.map_cons]

/-- The entries of a row are those of its parts and the one between them. -/
theorem row_split (front back : List (String × Value)) (key : String) (w : Value) :
    row E (front ++ (key, w) :: back) = row E front ++ (key, ofValue E w) :: row E back := by
  simp only [row, List.map_append, List.map_cons]

/-- What a value writes is wider with a malformed entry more in it. -/
theorem GainsMalformed.exists_widens (h : GainsMalformed E v v') :
    ∃ place count, Widens place count (ofValue E v) (ofValue E v') := by
  -- On how deep the malformed entry is put.
  induction h with
  | @pattern v v' bad front back others malformed rewrites =>
    have hrow :=
      WidensRow.insert (unnamed (front.map (ofValue E))) (unnamed (back.map (ofValue E))) ""
      malformed
    have happend : unnamed (front.map (ofValue E)) ++ unnamed (back.map (ofValue E)) =
        unnamed ((front ++ back).map (ofValue E)) := by
      simp only [unnamed, List.map_append]
    rw [← unnamed_split, happend] at hrow
    exact exists_widens_of_patterns hrow (iff_of_false (by simp) others) rewrites
  | @named v v' bad front back key malformed rewrites =>
    have hrow := WidensRow.insert (row E front) (row E back) key malformed
    have happend : row E front ++ row E back = row E (front ++ back) := List.map_append.symm
    rw [← row_split, happend] at hrow
    exact exists_widens_of_repository hrow rewrites
  | @inPattern v v' w w' front back _ rewrites ih =>
    obtain ⟨place, count, hwidens⟩ := ih
    have hrow := WidensRow.replace hwidens (unnamed (front.map (ofValue E)))
      (unnamed (back.map (ofValue E))) ""
    rw [← unnamed_split, ← unnamed_split] at hrow
    exact exists_widens_of_patterns hrow (iff_of_false (by simp) (by simp)) rewrites
  | @inNamed v v' w w' front back key _ rewrites ih =>
    obtain ⟨place, count, hwidens⟩ := ih
    have hrow := WidensRow.replace hwidens (row E front) (row E back) key
    rw [← row_split, ← row_split] at hrow
    exact exists_widens_of_repository hrow rewrites

end Entry

/-! ### Definitions -/

namespace Definition

/-- One definition is another with a malformed entry more: in its repository, or somewhere inside
one of its entries. -/
inductive GainsMalformed (E : Engine) (definition : Definition) : Definition → Prop
  /-- The malformed entry is in the repository. -/
  | named {front back : List (String × Value)} {key : String} {bad : Value}
      (split : definition.repository = front ++ back)
      (malformed : (Entry.ofValue E bad).isWellFormed = false) :
      GainsMalformed E definition { definition with repository := front ++ (key, bad) :: back }
  /-- The malformed entry is inside a top-level pattern. -/
  | inPattern {front back : List Value} {v v' : Value}
    (split : definition.patterns = front ++ v :: back)
      (inside : Entry.GainsMalformed E v v') :
      GainsMalformed E definition { definition with patterns := front ++ v' :: back }
  /-- The malformed entry is inside an entry of the repository. -/
  | inNamed {front back : List (String × Value)} {key : String} {v v' : Value}
      (split : definition.repository = front ++ (key, v) :: back)
      (inside : Entry.GainsMalformed E v v') :
      GainsMalformed E definition { definition with repository := front ++ (key, v') :: back }

/-- A definition is of the same language as another, and declares `count` places more, from a place
on. Its top-level patterns are well-formed where those of the other are. -/
structure Widens (E : Engine) (place count : Nat) (definition wider : Definition) : Prop where
  scopeName_eq : wider.scopeName = definition.scopeName
  wellFormed_eq : (wider.rules E).map Entry.isWellFormed =
    (definition.rules E).map Entry.isWellFormed
  body : Entry.WidensBody place count (definition.rules E) (definition.entries E) (wider.rules E)
    (wider.entries E)

variable {definition wider : Definition}

/-- A definition is as wide as it is. -/
theorem Widens.refl (definition : Definition) : Widens E 0 0 definition definition :=
  ⟨rfl, rfl, .of_repository (.refl _) _⟩

/-- A definition is wider with a malformed entry more. -/
theorem GainsMalformed.exists_widens (h : definition.GainsMalformed E wider) :
    ∃ place count, Widens E place count definition wider := by
  cases h with
  | @named front back key bad split malformed =>
    have hrow := Entry.WidensRow.insert (Entry.row E front) (Entry.row E back) key malformed
    -- The repository that gains the entry is all of the definition's.
    have happend : Entry.row E front ++ Entry.row E back = definition.entries E := by
      rw [entries, split]
      exact List.map_append.symm
    rw [← Entry.row_split, happend] at hrow
    exact ⟨_, _, rfl, rfl, .of_repository hrow _⟩
  | @inPattern front back v v' split inside =>
    obtain ⟨place, count, hwidens⟩ := inside.exists_widens
    have hrow := Entry.WidensRow.replace hwidens (Entry.unnamed (front.map (Entry.ofValue E)))
      (Entry.unnamed (back.map (Entry.ofValue E))) ""
    rw [← Entry.unnamed_split, ← Entry.unnamed_split, ← split] at hrow
    refine ⟨_, _, rfl, ?_, .of_patterns hrow _⟩
    -- A pattern that gains an entry inside stays well-formed or malformed.
    simp only [rules, split, List.map_append, List.map_cons, hwidens.isWellFormed_eq]
  | @inNamed front back key v v' split inside =>
    obtain ⟨place, count, hwidens⟩ := inside.exists_widens
    have hrow := Entry.WidensRow.replace hwidens (Entry.row E front) (Entry.row E back) key
    rw [← Entry.row_split, ← Entry.row_split, ← split] at hrow
    exact ⟨_, _, rfl, rfl, .of_repository hrow _⟩

end Definition

end TextScopes
