import TextScopes.Proofs.Text.Pieces
import TextScopes.Theme.Color

/-!
# Which texts are colours

A colour is written as a hash with three, six or eight hexadecimal digits behind it, blanks around
it aside (`Color.IsWritten`). Every text of that form is read as the colour that it writes. A little
more is read than that: of the two digits of a channel the first may be a plus sign, which counts as
a zero (`Color.ofHex?_eq_some_iff`). The form with one digit for each channel takes no sign, and no
other text is a colour.
-/

namespace TextScopes

/-- The hexadecimal digits with their values. -/
def hexDigits : List (Char × Nat) :=
  [('0', 0), ('1', 1), ('2', 2), ('3', 3), ('4', 4), ('5', 5), ('6', 6), ('7', 7),
    ('8', 8), ('9', 9), ('a', 10), ('b', 11), ('c', 12), ('d', 13), ('e', 14), ('f', 15),
    ('A', 10), ('B', 11), ('C', 12), ('D', 13), ('E', 14), ('F', 15)]

/-- A character with a value is one of ASCII. -/
theorem toNat_lt_of_hexDigit? {c : Char} {n : Nat} (h : Json.hexDigit? c = some n) :
    c.toNat < 128 := by
  have h9 : ('9' : Char).val.toNat = 57 := rfl
  have hf : ('f' : Char).val.toNat = 102 := rfl
  have hF : ('F' : Char).val.toNat = 70 := rfl
  unfold Json.hexDigit? at h
  simp only [Char.isDigit, Bool.and_eq_true, decide_eq_true_eq, Char.le_def,
    UInt32.le_iff_toNat_le] at h
  split at h
  · -- A decimal digit, a small letter, a capital.
    next hdigit => exact Nat.lt_of_le_of_lt hdigit.2 (by decide)
  · split at h
    · next hlower => exact Nat.lt_of_le_of_lt hlower.2 (by omega)
    · split at h
      · next hupper => exact Nat.lt_of_le_of_lt hupper.2 (by omega)
      · cases h

/-- The characters with a value are the hexadecimal digits. -/
theorem hexDigit?_eq_some_iff {c : Char} {n : Nat} :
    Json.hexDigit? c = some n ↔ (c, n) ∈ hexDigits := by
  constructor
  · -- There are few characters among which the digits are, and they are looked through.
    intro h
    have hall : ∀ k < 128, ∀ n ∈ Json.hexDigit? (Char.ofNat k),
        (Char.ofNat k, n) ∈ hexDigits := by
      decide
    have hc := hall c.toNat (toNat_lt_of_hexDigit? h)
    rw [Char.ofNat_toNat] at hc
    exact hc n h
  · have hall : ∀ digit ∈ hexDigits, Json.hexDigit? digit.1 = some digit.2 := by decide
    exact hall (c, n)

/-- No digit is a plus sign, and none has a value that takes more than four bits. -/
theorem of_mem_hexDigits {c : Char} {n : Nat} (h : (c, n) ∈ hexDigits) :
    c ≠ '+' ∧ n < 16 := by
  have hall : ∀ digit ∈ hexDigits, digit.1 ≠ '+' ∧ digit.2 < 16 := by decide
  exact hall (c, n) h

namespace Color

/-- Two digits that write a channel. -/
def WritesChannel (high low : Char) (channel : UInt8) : Prop :=
  ∃ m n, (high, m) ∈ hexDigits ∧ (low, n) ∈ hexDigits ∧ channel.toNat = 16 * m + n

/-- The digits that write a colour: one for each channel, which stands for itself twice, or two;
without an alpha channel the colour is opaque. -/
inductive Writes : List Char → Color → Prop
  | single {r g b : Char} {color : Color} (red : WritesChannel r r color.red)
      (green : WritesChannel g g color.green) (blue : WritesChannel b b color.blue)
      (solid : color.alpha = 255) : Writes [r, g, b] color
  | double {r r' g g' b b' : Char} {color : Color} (red : WritesChannel r r' color.red)
      (green : WritesChannel g g' color.green) (blue : WritesChannel b b' color.blue)
      (solid : color.alpha = 255) : Writes [r, r', g, g', b, b'] color
  | withAlpha {r r' g g' b b' a a' : Char} {color : Color} (red : WritesChannel r r' color.red)
      (green : WritesChannel g g' color.green) (blue : WritesChannel b b' color.blue)
      (alpha : WritesChannel a a' color.alpha) : Writes [r, r', g, g', b, b', a, a'] color

/-- A text that writes a colour: inside the blanks around it a hash, and digits that write the
colour. -/
def IsWritten (text : String) (color : Color) : Prop :=
  ∃ digits, Text.IsInside text.toList ('#' :: digits) ∧ Writes digits color

/-- A leading digit, for which a plus sign may stand. -/
def unsigned (c : Char) : Char := if c = '+' then '0' else c

/-- The digits with a zero in place of a plus sign in front of a pair. -/
def unsignedPairs : List Char → List Char
  | high :: low :: rest => unsigned high :: low :: unsignedPairs rest
  | rest => rest

/-- The digits that are read: where each channel has two, a plus sign in front of them counts as a
zero. -/
def withoutSigns (digits : List Char) : List Char :=
  if digits.length = 3 then digits else unsignedPairs digits

/-! ### Channels -/

/-- A number of eight bits is a channel. -/
theorem toUInt8_eq_iff {k : Nat} (h : k < 256) {channel : UInt8} :
    k.toUInt8 = channel ↔ channel.toNat = k := by
  constructor
  · rintro rfl
    exact Nat.mod_eq_of_lt h
  · intro heq
    rw [← UInt8.toNat_inj, heq]
    exact Nat.mod_eq_of_lt h

/-- A single digit writes the channel that the digit writes twice. -/
theorem single?_eq_some_iff {d : Char} {channel : UInt8} :
    single? d = some channel ↔ WritesChannel d d channel := by
  unfold single? WritesChannel
  simp only [Option.map_eq_some_iff, hexDigit?_eq_some_iff]
  constructor
  · -- Seventeen times a digit is the number that it writes twice.
    rintro ⟨n, hn, hchannel⟩
    have hlt := (of_mem_hexDigits hn).2
    have hvalue := (toUInt8_eq_iff (by omega)).1 hchannel
    exact ⟨n, n, hn, hn, by omega⟩
  · rintro ⟨m, n, hm, hn, hchannel⟩
    have hsame : m = n := by
      have h := (hexDigit?_eq_some_iff.2 hm).symm.trans (hexDigit?_eq_some_iff.2 hn)
      exact Option.some.inj h
    have hlt := (of_mem_hexDigits hn).2
    exact ⟨n, hn, (toUInt8_eq_iff (by omega)).2 (by omega)⟩

/-- Two characters are read as two digits are, when a plus sign in front is a zero. -/
theorem pair?_eq (a b : Char) : pair? a b = (Json.hexDigit? (unsigned a)).bind fun high =>
    (Json.hexDigit? b).map fun low => (high * 16 + low).toUInt8 := by
  unfold pair? unsigned
  split
  · cases Json.hexDigit? b <;> rfl
  · cases Json.hexDigit? a <;> cases Json.hexDigit? b <;> rfl

/-- Two characters write a channel as two digits do, where a plus sign may stand for the first. -/
theorem pair?_eq_some_iff {a b : Char} {channel : UInt8} :
    pair? a b = some channel ↔ WritesChannel (unsigned a) b channel := by
  rw [pair?_eq]
  unfold WritesChannel
  simp only [Option.bind_eq_some_iff, Option.map_eq_some_iff, hexDigit?_eq_some_iff]
  constructor
  · -- Two digits are below 256, so that the byte loses nothing.
    rintro ⟨m, hm, n, hn, hchannel⟩
    have hm' := (of_mem_hexDigits hm).2
    have hn' := (of_mem_hexDigits hn).2
    have hvalue := (toUInt8_eq_iff (by omega)).1 hchannel
    exact ⟨m, n, hm, hn, by omega⟩
  · rintro ⟨m, n, hm, hn, hchannel⟩
    have hm' := (of_mem_hexDigits hm).2
    have hn' := (of_mem_hexDigits hn).2
    exact ⟨m, hm, n, hn, (toUInt8_eq_iff (by omega)).2 (by omega)⟩

/-! ### Colours -/

/-- To take signs away leaves as many digits. -/
theorem length_withoutSigns (digits : List Char) :
    (withoutSigns digits).length = digits.length := by
  have hpairs : ∀ digits, (unsignedPairs digits).length = digits.length := by
    intro digits
    fun_induction unsignedPairs digits with
    | case1 high low rest ih => simp [ih]
    | case2 => rfl
  unfold withoutSigns
  split
  · rfl
  · exact hpairs digits

/-- Digits without a plus sign stay as they are. -/
theorem withoutSigns_of_not_mem {digits : List Char} (h : '+' ∉ digits) :
    withoutSigns digits = digits := by
  have hpairs : ∀ digits, '+' ∉ digits → unsignedPairs digits = digits := by
    intro digits h
    fun_induction unsignedPairs digits with
    | case1 high low rest ih =>
      rw [List.mem_cons, List.mem_cons, not_or, not_or] at h
      rw [ih h.2.2, unsigned, if_neg (Ne.symm h.1)]
    | case2 => rfl
  unfold withoutSigns
  split
  · -- Three characters are left as they are, the others pair by pair.
    rfl
  · exact hpairs digits h

/-- Digits that write a channel are no plus signs. -/
theorem WritesChannel.ne_plus {high low : Char} {channel : UInt8}
    (h : WritesChannel high low channel) :
    '+' ≠ high ∧ '+' ≠ low := by
  obtain ⟨m, n, hm, hn, -⟩ := h
  exact ⟨(of_mem_hexDigits hm).1.symm, (of_mem_hexDigits hn).1.symm⟩

/-- Digits that write a colour have no plus sign among them. -/
theorem Writes.not_mem {digits : List Char} {color : Color} (h : Writes digits color) :
    '+' ∉ digits := by
  cases h with
  | single red green blue => simp [red.ne_plus, green.ne_plus, blue.ne_plus]
  | double red green blue => simp [red.ne_plus, green.ne_plus, blue.ne_plus]
  | withAlpha red green blue alpha =>
    simp [red.ne_plus, green.ne_plus, blue.ne_plus, alpha.ne_plus]

/-- A colour is written by three, six or eight digits. -/
theorem Writes.length_eq {digits : List Char} {color : Color} (h : Writes digits color) :
    digits.length = 3 ∨ digits.length = 6 ∨ digits.length = 8 := by
  cases h with
  | single => exact .inl rfl
  | double => exact .inr (.inl rfl)
  | withAlpha => exact .inr (.inr rfl)

/-- Characters are read as a colour just when they write it, but for the signs. -/
theorem ofDigits?_eq_some_iff {digits : List Char} {color : Color} :
    ofDigits? digits = some color ↔ Writes (withoutSigns digits) color := by
  unfold ofDigits?
  split
  · -- Three digits.
    next r g b =>
    simp only [Option.bind_eq_bind, Option.bind_eq_some_iff, Option.pure_def, Option.some.injEq,
      single?_eq_some_iff]
    constructor
    · rintro ⟨red, hred, green, hgreen, blue, hblue, rfl⟩
      exact .single hred hgreen hblue rfl
    · intro h
      cases h with
      | single red green blue solid =>
        exact ⟨_, red, _, green, _, blue, by rw [opaqueColor, ← solid]⟩
  · -- Six digits.
    next r r' g g' b b' =>
    simp only [Option.bind_eq_bind, Option.bind_eq_some_iff, Option.pure_def, Option.some.injEq,
      pair?_eq_some_iff]
    constructor
    · rintro ⟨red, hred, green, hgreen, blue, hblue, rfl⟩
      exact .double hred hgreen hblue rfl
    · intro h
      cases h with
      | double red green blue solid =>
        exact ⟨_, red, _, green, _, blue, by rw [opaqueColor, ← solid]⟩
  · -- Eight digits.
    next r r' g g' b b' a a' =>
    simp only [Option.bind_eq_bind, Option.bind_eq_some_iff, Option.pure_def, Option.some.injEq,
      pair?_eq_some_iff]
    constructor
    · rintro ⟨red, hred, green, hgreen, blue, hblue, alpha, halpha, rfl⟩
      exact .withAlpha hred hgreen hblue halpha
    · intro h
      cases h with
      | withAlpha red green blue alpha => exact ⟨_, red, _, green, _, blue, _, alpha, rfl⟩
  · next hthree hsix height =>
    refine ⟨fun h => (nomatch h), fun h => ?_⟩
    -- There are as many characters as digits that write a colour, and so they have one of the
    -- shapes.
    rcases h.length_eq with hlength | hlength | hlength
    · rw [length_withoutSigns] at hlength
      match digits, hlength with
      | [r, g, b], _ => exact (hthree r g b rfl).elim
    · rw [length_withoutSigns] at hlength
      match digits, hlength with
      | [r, r', g, g', b, b'], _ => exact (hsix r r' g g' b b' rfl).elim
    · rw [length_withoutSigns] at hlength
      match digits, hlength with
      | [r, r', g, g', b, b', a, a'], _ => exact (height r r' g g' b b' a a' rfl).elim

/-- Which texts are read as which colours. A text is read as a colour just when it writes the colour
once its signs are left out: where each channel has two digits, a plus sign may stand for the first,
and counts as a zero. So every text that writes a colour is read as that, and of the texts without a
plus sign no others are. -/
theorem ofHex?_eq_some_iff (text : String) (color : Color) :
    (ofHex? text = some color ↔ ∃ digits, Text.IsInside text.toList ('#' :: digits) ∧
      Writes (withoutSigns digits) color) ∧
    (IsWritten text color → ofHex? text = some color) ∧
    ('+' ∉ text.toList → (ofHex? text = some color ↔ IsWritten text color)) := by
  -- What is read is the text without the blanks around it.
  have hread : ofHex? text = some color ↔
      ∃ digits, Text.IsInside text.toList ('#' :: digits) ∧
      Writes (withoutSigns digits) color := by
    simp only [← Text.trim_eq_iff, ← ofDigits?_eq_some_iff]
    unfold ofHex?
    split
    · next digits htrim => simp [htrim]
    · next hnone =>
      refine ⟨fun h => (nomatch h), ?_⟩
      rintro ⟨digits, htrim, -⟩
      exact (hnone digits htrim).elim
  -- A written colour has no sign, and none is left out of it.
  have hwritten : IsWritten text color → ofHex? text = some color := by
    rintro ⟨digits, hinside, hwrites⟩
    exact hread.2 ⟨digits, hinside, by rwa [withoutSigns_of_not_mem hwrites.not_mem]⟩
  refine ⟨hread, hwritten, fun hplus => ⟨fun h => ?_, hwritten⟩⟩
  obtain ⟨digits, hinside, hwrites⟩ := hread.1 h
  -- The digits are a part of the text, and so have no sign to leave out.
  have hdigits : '+' ∉ digits := by
    obtain ⟨front, back, htext, -⟩ := hinside
    intro hmem
    exact hplus (by rw [htext]; simp [hmem])
  rw [withoutSigns_of_not_mem hdigits] at hwrites
  exact ⟨digits, hinside, hwrites⟩

/-- A colour with an alpha channel is read, in upper and lower case, with blanks around it. -/
theorem ofHex?_eq_some_iff_blanks : '+' ∉ " #1e90FF80\n".toList ∧
    IsWritten " #1e90FF80\n" ⟨0x1e, 0x90, 0xff, 0x80⟩ ∧
    ofHex? " #1e90FF80\n" = some ⟨0x1e, 0x90, 0xff, 0x80⟩ := by
  have hplus : '+' ∉ " #1e90FF80\n".toList := by decide
  have hwritten : IsWritten " #1e90FF80\n" ⟨0x1e, 0x90, 0xff, 0x80⟩ :=
    ((ofHex?_eq_some_iff _ _).2.2 hplus).1 (by decide)
  exact ⟨hplus, hwritten, (ofHex?_eq_some_iff _ _).2.1 hwritten⟩

/-- A text with plus signs among its digits is read as a colour, though it writes none. -/
theorem signs_read : ofHex? "#+1+2+3" = some ⟨1, 2, 3, 255⟩ ∧
    ∀ color, ¬ IsWritten "#+1+2+3" color := by
  refine ⟨by decide, ?_⟩
  rintro color ⟨digits, hinside, hwrites⟩
  have htrim := Text.trim_eq_iff.2 hinside
  have hdigits : Text.trim "#+1+2+3".toList = '#' :: ['+', '1', '+', '2', '+', '3'] := by decide
  obtain rfl : ['+', '1', '+', '2', '+', '3'] = digits :=
    (List.cons.inj (hdigits.symm.trans htrim)).2
  exact hwrites.not_mem (by decide)

end Color

end TextScopes
