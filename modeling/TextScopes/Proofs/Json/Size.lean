import Mathlib.Algebra.GroupWithZero.Nat
import Mathlib.Data.List.Basic
import TextScopes.Json.Reader
import TextScopes.Json.Record

/-!
# How much a document holds

A document holds no more values than its text has characters (`Json.count_le_of_read?`): reading a
value takes at least as many characters as there are values in it (`Json.count_value_add_le`), for
each of them has a character of its own.
-/

namespace TextScopes.Json

/-! ## Fields -/

section Fields

variable {fields : List (String × Value)} {key : String} {v : Value}

/-- What is found under a key stands in the fields. -/
theorem mem_of_getField? (h : getField? fields key = some v) : (key, v) ∈ fields := by
  obtain ⟨⟨k, w⟩, hfind, rfl⟩ := Option.map_eq_some_iff.1 h
  have hkey : k = key := by simpa using List.find?_some hfind
  exact hkey ▸ List.mem_of_find?_eq_some hfind

/-- An optional field that gives something is there. -/
theorem exists_of_optional {α : Type} {read : Value → Option α} {a : α}
    (h : optional fields key read = some (some a)) :
    ∃ v, getField? fields key = some v ∧ read v = some a := by
  unfold optional at h
  split at h
  next => cases h
  next => cases h
  next v _ hv =>
    obtain ⟨b, hread, hb⟩ := Option.map_eq_some_iff.1 h
    exact ⟨v, hv, hread.trans hb⟩

/-- Only an array is one. -/
theorem Value.asArray?_eq_some {items : List Value} (h : v.asArray? = some items) :
    v = .array items := by
  cases v <;> cases h
  rfl

/-- Only an object is one. -/
theorem Value.asObject?_eq_some (h : v.asObject? = some fields) : v = .object fields := by
  cases v <;> cases h
  rfl

/-- Only a string is one. -/
theorem Value.asString?_eq_some {text : String} (h : v.asString? = some text) :
    v = .string text := by
  cases v <;> cases h
  rfl

end Fields

/-! ## Values in a value -/

/-- The values in a value, itself included. -/
def Value.count : Value → Nat
  | array items => 1 + ofItems items
  | object fields => 1 + ofFields fields
  | _ => 1
where
  ofItems : List Value → Nat
    | [] => 0
    | v :: rest => count v + ofItems rest
  ofFields : List (String × Value) → Nat
    | [] => 0
    | (_, v) :: rest => count v + ofFields rest

namespace Value.count

/-- The values in an array are those in its items. -/
theorem ofItems_eq (items : List Value) : ofItems items = (items.map count).sum := by
  induction items with
  | nil => rfl
  | cons item rest ih => rw [ofItems, List.map_cons, List.sum_cons, ih]

/-- The values in an object are those in its fields. -/
theorem ofFields_eq (fields : List (String × Value)) :
    ofFields fields = ofItems (fields.map (·.2)) := by
  induction fields with
  | nil => rfl
  | cons field rest ih => rw [ofFields, List.map_cons, ofItems, ih]

/-- In another order the items of an array hold the same number of values. -/
theorem ofItems_reverse (items : List Value) : ofItems items.reverse = ofItems items := by
  rw [ofItems_eq, ofItems_eq, List.map_reverse, List.sum_reverse]

/-- Two rows of items hold the values of both. -/
theorem ofItems_append (items others : List Value) :
    ofItems (items ++ others) = ofItems items + ofItems others := by
  rw [ofItems_eq, ofItems_eq, ofItems_eq, List.map_append, List.sum_append]

/-- Putting a value under a key adds no more values than are in it. -/
theorem ofFields_setField_le (fields : List (String × Value)) (key : String) (v : Value) :
    ofFields (setField fields key v) ≤ ofFields fields + v.count := by
  induction fields with
  | nil => simp [setField, ofFields]
  | cons field rest ih =>
    obtain ⟨k, w⟩ := field
    rw [setField]
    split
    · rw [ofFields, ofFields]
      omega
    · rw [ofFields, ofFields]
      omega

/-- The values under two keys are among those in the fields. -/
theorem getField?_add_le {key other : String} (hne : key ≠ other)
    (fields : List (String × Value)) :
    ((getField? fields key).elim 0 count) + ((getField? fields other).elim 0 count) ≤
      ofFields fields := by
  induction fields with
  | nil => exact Nat.le_refl _
  | cons field rest ih =>
    obtain ⟨k, w⟩ := field
    have hfind : ∀ name, getField? ((k, w) :: rest) name =
        if k = name then some w else getField? rest name := by
      intro name
      unfold getField?
      by_cases h : k = name <;> simp [h]
    rw [hfind, hfind, ofFields]
    -- The first pair is the one key, the other one, or neither.
    by_cases hkey : k = key
    · have hother : k ≠ other := fun heq => hne (hkey.symm.trans heq)
      rw [if_pos hkey, if_neg hother, Option.elim_some]
      omega
    · rw [if_neg hkey]
      by_cases hother : k = other
      · rw [if_pos hother, Option.elim_some]
        omega
      · rw [if_neg hother]
        omega

/-- The fields of a record hold no more values than what writes it. -/
theorem fields?_le {shape : Shape} {v : Value} {fields : List (String × Value)}
    (h : shape.fields? v = some fields) : ofFields fields ≤ v.count := by
  unfold Shape.fields? at h
  split at h
  -- An object's own fields.
  next =>
    obtain rfl := Option.some.inj h
    exact Nat.le_add_left _ _
  next items =>
    split at h
    -- An array's items, under as many of the keys.
    next hlength =>
      obtain rfl := Option.some.inj h
      rw [ofFields_eq, List.map_snd_zip hlength.2]
      exact Nat.le_add_left _ _
    next => cases h
  next => cases h

end Value.count

/-! ## What reading takes -/

section Reading

variable {cs rest : List Char}

/-- Blanks that are passed over leave no more characters. -/
theorem length_skipBlanks_le (cs : List Char) : (skipBlanks cs).length ≤ cs.length :=
  (List.dropWhile_sublist _).length_le

/-- A character behind blanks is one of the text. -/
theorem length_lt_of_skipBlanks {c : Char} (h : skipBlanks cs = c :: rest) :
    rest.length < cs.length := by
  have hle := length_skipBlanks_le cs
  rw [h, List.length_cons] at hle
  exact hle

/-- A literal leaves no more characters. -/
theorem length_le_of_expect {word : List Char} (h : expect word cs = some rest) :
    rest.length ≤ cs.length := by
  induction word generalizing cs with
  | nil =>
    obtain rfl := Option.some.inj h
    exact Nat.le_refl _
  | cons w word ih =>
    cases cs with
    | nil => cases h
    | cons c cs =>
      rw [expect] at h
      split at h
      · exact Nat.le_succ_of_le (ih h)
      · cases h

/-- Four digits leave no more characters. -/
theorem length_le_of_hexUnit {n : Nat} (h : hexUnit cs = some (n, rest)) :
    rest.length ≤ cs.length := by
  unfold hexUnit at h
  split at h
  next a b c d tail =>
    simp only [Option.bind_eq_bind, Option.bind_eq_some_iff, Option.pure_def, Option.some.injEq,
      Prod.mk.injEq] at h
    obtain ⟨-, -, -, -, -, -, -, -, -, rfl⟩ := h
    simp only [List.length_cons]
    omega
  next => cases h

/-- An escape leaves no more characters. -/
theorem length_le_of_unicodeEscape {c : Char} (h : unicodeEscape cs = some (c, rest)) :
    rest.length ≤ cs.length := by
  simp only [unicodeEscape, Option.bind_eq_bind, Option.bind_eq_some_iff] at h
  obtain ⟨⟨high, behind⟩, hhigh, h⟩ := h
  have hle := length_le_of_hexUnit hhigh
  split at h
  · cases h
  · split at h
    · split at h
      -- The second half of a pair of units.
      next _ tail hbehind =>
        obtain ⟨⟨low, after⟩, hlow, h⟩ := Option.bind_eq_some_iff.1 h
        obtain rfl : behind = _ := hbehind
        have hlow : after.length ≤ tail.length := length_le_of_hexUnit hlow
        split at h
        · obtain ⟨-, rfl⟩ := Prod.mk.inj (Option.some.inj h)
          simp only [List.length_cons] at hle
          show after.length ≤ cs.length
          omega
        · cases h
      next => cases h
    · obtain ⟨-, rfl⟩ := Prod.mk.inj (Option.some.inj h)
      exact hle

/-- A string leaves no more characters. -/
theorem length_le_of_stringBody {fuel : Nat} {read : List Char} {s : String}
    (h : stringBody fuel read cs = some (s, rest)) : rest.length ≤ cs.length := by
  induction fuel generalizing read cs with
  | zero => cases h
  | succ fuel ih =>
    cases cs with
    | nil => cases h
    | cons c cs =>
      unfold stringBody at h
      split at h
      · -- The closing quote.
        obtain ⟨-, rfl⟩ := Prod.mk.inj (Option.some.inj h)
        exact Nat.le_succ _
      · split at h
        · split at h
          -- An escaped code unit, or a pair of them.
          next tail =>
            simp only [Option.bind_eq_bind, Option.bind_eq_some_iff] at h
            obtain ⟨⟨d, behind⟩, hescape, h⟩ := h
            have hle := length_le_of_unicodeEscape hescape
            have hrest : rest.length ≤ behind.length := ih h
            simp only [List.length_cons]
            omega
          -- Any other escape has two characters.
          next e tail _ =>
            simp only [Option.bind_eq_bind, Option.bind_eq_some_iff] at h
            obtain ⟨d, -, h⟩ := h
            have hrest := ih h
            simp only [List.length_cons]
            omega
          next => cases h
        · -- A plain character, unless it may not stand in a string.
          split at h
          · cases h
          · exact Nat.le_succ_of_le (ih h)

/-- Digits that are passed over leave no more characters. -/
theorem length_dropWhile_digits_le (cs : List Char) :
    (cs.dropWhile Char.isDigit).length ≤ cs.length :=
  (List.dropWhile_sublist _).length_le

/-- Digits that are there take a character. -/
theorem length_dropWhile_digits_lt (h : cs.takeWhile Char.isDigit ≠ []) :
    (cs.dropWhile Char.isDigit).length < cs.length := by
  have hlength :=
    congrArg List.length (List.takeWhile_append_dropWhile (p := Char.isDigit) (l := cs))
  rw [List.length_append] at hlength
  have hpos := List.length_pos_iff.2 h
  omega

/-- An exponent leaves no more characters. -/
theorem length_le_of_exponentPart {e : Option Int} (h : exponentPart cs = some (e, rest)) :
    rest.length ≤ cs.length := by
  unfold exponentPart at h
  split at h
  next c cs =>
    split at h
    · dsimp only at h
      -- A sign is passed over too.
      split at h <;> dsimp only at h <;> split at h
      all_goals first
        | cases h; done
        | obtain ⟨-, rfl⟩ := Prod.mk.inj (Option.some.inj h)
          refine Nat.le_trans (length_dropWhile_digits_le _) ?_
          simp only [List.length_cons]
          omega
    · obtain ⟨-, rfl⟩ := Prod.mk.inj (Option.some.inj h)
      exact Nat.le_refl _
  next =>
    obtain ⟨-, rfl⟩ := Prod.mk.inj (Option.some.inj h)
    exact Nat.le_refl _

/-- A number takes a character. -/
theorem length_lt_of_numberParts {parts : NumberParts} (h : numberParts cs = some (parts, rest)) :
    rest.length < cs.length := by
  unfold numberParts at h
  dsimp only at h
  split at h
  · cases h
  next hdigits =>
    have hlt := length_dropWhile_digits_lt fun hnil => hdigits (.inl hnil)
    split at h
    -- A fraction has digits of its own before the exponent.
    next _ fraction hpoint =>
      split at h
      · cases h
      · have hfraction := length_dropWhile_digits_le fraction
        rw [hpoint, List.length_cons] at hlt
        rw [Option.bind_eq_bind, Option.bind_some] at h
        obtain ⟨⟨e, after⟩, he, h⟩ := Option.bind_eq_some_iff.1 h
        have hle := length_le_of_exponentPart he
        have hafter : after.length < cs.length := by
          dsimp only at hle
          omega
        cases e <;> obtain ⟨-, rfl⟩ := Prod.mk.inj (Option.some.inj h) <;> exact hafter
    next =>
      rw [Option.bind_eq_bind, Option.bind_some] at h
      obtain ⟨⟨e, after⟩, he, h⟩ := Option.bind_eq_some_iff.1 h
      have hle := length_le_of_exponentPart he
      have hafter : after.length < cs.length := by
        dsimp only at hle
        omega
      cases e <;> obtain ⟨-, rfl⟩ := Prod.mk.inj (Option.some.inj h) <;> exact hafter

/-- A number takes a character, and is one value. -/
theorem count_number_add_le {v : Value} (h : number cs = some (v, rest)) :
    v.count + rest.length ≤ cs.length := by
  unfold number at h
  split at h
  -- The sign counts for the character that it is.
  next cs =>
    simp only [Option.bind_eq_bind, Option.bind_eq_some_iff, Option.pure_def, Option.some.injEq,
      Prod.mk.injEq] at h
    obtain ⟨⟨parts, behind⟩, hparts, n, -, rfl, rfl⟩ := h
    have hlt : behind.length < cs.length := length_lt_of_numberParts hparts
    show 1 + behind.length ≤ cs.length + 1
    omega
  next =>
    simp only [Option.bind_eq_bind, Option.bind_eq_some_iff, Option.pure_def, Option.some.injEq,
      Prod.mk.injEq] at h
    obtain ⟨⟨parts, behind⟩, hparts, n, -, rfl, rfl⟩ := h
    have hlt : behind.length < cs.length := length_lt_of_numberParts hparts
    show 1 + behind.length ≤ cs.length
    omega

mutual

/-- Reading a value takes as many characters as there are values in it. -/
theorem count_value_add_le {fuel depth : Nat} {cs rest : List Char} {v : Value}
    (h : value fuel depth cs = some (v, rest)) : v.count + rest.length ≤ cs.length := by
  cases fuel with
  | zero => cases h
  | succ fuel =>
    -- A word counts for one, and its first letter has been passed over.
    have hliteral : ∀ {word cs : List Char} {w : Value}, w.count = 1 →
        (expect word cs).map (w, ·) = some (v, rest) →
        v.count + rest.length ≤ cs.length + 1 := by
      intro word cs w hcount h
      obtain ⟨behind, hbehind, heq⟩ := Option.map_eq_some_iff.1 h
      obtain ⟨rfl, rfl⟩ := Prod.mk.inj heq
      have hle := length_le_of_expect hbehind
      omega
    unfold value at h
    split at h
    -- The three words.
    next tail hcs => exact Nat.le_trans (hliteral rfl h) (length_lt_of_skipBlanks hcs)
    next tail hcs => exact Nat.le_trans (hliteral rfl h) (length_lt_of_skipBlanks hcs)
    next tail hcs => exact Nat.le_trans (hliteral rfl h) (length_lt_of_skipBlanks hcs)
    -- A string.
    next tail hcs =>
      obtain ⟨⟨s, behind⟩, hbehind, heq⟩ := Option.map_eq_some_iff.1 h
      obtain ⟨rfl, rfl⟩ := Prod.mk.inj heq
      have hle := length_le_of_stringBody hbehind
      have hlt := length_lt_of_skipBlanks hcs
      show 1 + behind.length ≤ cs.length
      omega
    -- An array, which is closed at once or has items.
    next tail hcs =>
      have hlt := length_lt_of_skipBlanks hcs
      have hinner := length_skipBlanks_le tail
      split at h
      · cases h
      · split at h
        next behind hclosed =>
          obtain ⟨rfl, rfl⟩ := Prod.mk.inj (Option.some.inj h)
          have hclosed := length_lt_of_skipBlanks hclosed
          show 1 + behind.length ≤ cs.length
          omega
        next =>
          have hitems := count_items_add_le h
          rw [Value.count.ofItems] at hitems
          omega
    -- An object, which is closed at once or has fields.
    next tail hcs =>
      have hlt := length_lt_of_skipBlanks hcs
      have hinner := length_skipBlanks_le tail
      split at h
      · cases h
      · split at h
        next behind hclosed =>
          obtain ⟨rfl, rfl⟩ := Prod.mk.inj (Option.some.inj h)
          have hclosed := length_lt_of_skipBlanks hclosed
          show 1 + behind.length ≤ cs.length
          omega
        next =>
          have hfields := count_fields_add_le h
          rw [Value.count.ofFields] at hfields
          omega
    next => exact Nat.le_trans (count_number_add_le h) (length_skipBlanks_le cs)
termination_by fuel

/-- Reading items takes as many characters as there are values in them. -/
theorem count_items_add_le {fuel depth : Nat} {before : List Value} {cs rest : List Char}
    {v : Value} (h : items fuel depth before cs = some (v, rest)) :
    v.count + rest.length ≤ Value.count.ofItems before + cs.length := by
  cases fuel with
  | zero => cases h
  | succ fuel =>
    unfold items at h
    obtain ⟨⟨w, behind⟩, hw, h⟩ := Option.bind_eq_some_iff.1 h
    have hle := count_value_add_le hw
    dsimp only at h
    split at h
    -- A comma: the item counts among those before the rest.
    next tail hcs =>
      have hlt := length_lt_of_skipBlanks hcs
      have hrest := count_items_add_le h
      rw [Value.count.ofItems] at hrest
      omega
    -- The closing bracket.
    next tail hcs =>
      obtain ⟨rfl, rfl⟩ := Prod.mk.inj (Option.some.inj h)
      have hlt := length_lt_of_skipBlanks hcs
      rw [Value.count, Value.count.ofItems_reverse, Value.count.ofItems]
      omega
    next => cases h
termination_by fuel

/-- Reading fields takes as many characters as there are values in them. -/
theorem count_fields_add_le {fuel depth : Nat} {before : List (String × Value)}
    {cs rest : List Char} {v : Value} (h : fields fuel depth before cs = some (v, rest)) :
    v.count + rest.length ≤ Value.count.ofFields before + cs.length := by
  cases fuel with
  | zero => cases h
  | succ fuel =>
    unfold fields at h
    split at h
    -- The key, the colon and the value are read before the rest.
    next quoted hquoted =>
      have hquoted := length_lt_of_skipBlanks hquoted
      obtain ⟨⟨key, named⟩, hkey, h⟩ := Option.bind_eq_some_iff.1 h
      have hnamed := length_le_of_stringBody hkey
      dsimp only at h
      split at h
      next told htold =>
        have htold := length_lt_of_skipBlanks htold
        obtain ⟨⟨w, behind⟩, hw, h⟩ := Option.bind_eq_some_iff.1 h
        have hle := count_value_add_le hw
        have hset := Value.count.ofFields_setField_le before key w
        dsimp only at h
        split at h
        next tail hcs =>
          have hlt := length_lt_of_skipBlanks hcs
          have hrest := count_fields_add_le h
          omega
        next tail hcs =>
          obtain ⟨rfl, rfl⟩ := Prod.mk.inj (Option.some.inj h)
          have hlt := length_lt_of_skipBlanks hcs
          rw [Value.count]
          omega
        next => cases h
      next => cases h
    next => cases h
termination_by fuel

end

/-- A document holds no more values than its text has characters. -/
theorem count_le_of_read? {text : String} {depth : Nat} {v : Value}
    (h : read? text depth = some v) :
    v.count ≤ text.length := by
  unfold read? at h
  obtain ⟨⟨w, rest⟩, hw, h⟩ := Option.bind_eq_some_iff.1 h
  have hle := count_value_add_le hw
  rw [String.length_toList] at hle
  dsimp only at h
  split at h
  · obtain rfl := Option.some.inj h
    omega
  · cases h

end Reading

end TextScopes.Json
