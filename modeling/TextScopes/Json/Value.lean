import TextScopes.Decimal.Shortest

/-!
# JSON values

A `Value` keeps the fields of an object in the order of the document. `setField` is how a document's
fields are put together: a repeated key keeps its first place and takes its last value. Numbers are
naturals below `2 ^ 64`, negative integers down to `-2 ^ 63`, and doubles for all else.
-/

namespace TextScopes.Json

/-- A number of a document. -/
inductive Number where
  | natural (n : Nat)
  /-- The integer `-n`. -/
  | negative (n : Nat)
  /-- A double, by its bits. -/
  | double (bits : UInt64)
  deriving DecidableEq, Inhabited, Repr

/-- A value of a document. -/
inductive Value where
  | null
  | bool (b : Bool)
  | number (n : Number)
  | string (s : String)
  | array (items : List Value)
  | object (fields : List (String × Value))
  deriving Inhabited

/-- Puts `value` under `key`: in its place when the key is there, and last when it is new. -/
def setField (fields : List (String × Value)) (key : String) (value : Value) :
    List (String × Value) :=
  match fields with
  | [] => [(key, value)]
  | (k, v) :: rest => if k = key then (k, value) :: rest else (k, v) :: setField rest key value

/-- The value under `key`. -/
def getField? (fields : List (String × Value)) (key : String) : Option Value :=
  (fields.find? (·.1 = key)).map (·.2)

namespace Value

/-- The value under `key`, when this is an object that has one. -/
def get? : Value → String → Option Value
  | object fields, key => getField? fields key
  | _, _ => none

/-- The text of a string. -/
def asString? : Value → Option String
  | string s => some s
  | _ => none

/-- The truth value. -/
def asBool? : Value → Option Bool
  | bool b => some b
  | _ => none

/-- The number, when it is a natural one. -/
def asNatural? : Value → Option Nat
  | number (.natural n) => some n
  | _ => none

/-- The items of an array. -/
def asArray? : Value → Option (List Value)
  | array items => some items
  | _ => none

/-- The fields of an object. -/
def asObject? : Value → Option (List (String × Value))
  | object fields => some fields
  | _ => none

/-- The levels of nesting, that of the value itself included. -/
def depth : Value → Nat
  | array items => 1 + ofItems items
  | object fields => 1 + ofFields fields
  | _ => 1
where
  ofItems : List Value → Nat
    | [] => 0
    | v :: rest => max (depth v) (ofItems rest)
  ofFields : List (String × Value) → Nat
    | [] => 0
    | (_, v) :: rest => max (depth v) (ofFields rest)

end Value

/-- The bits of the double nearest to a number. -/
def Number.toBits : Number → UInt64
  | natural n => n.toUInt64.toFloat.toBits
  | negative n => (-n.toUInt64.toFloat).toBits
  | double bits => bits

theorem getField?_setField_self (fields : List (String × Value)) (key : String) (value : Value) :
    getField? (setField fields key value) key = some value := by
  induction fields with
  | nil => simp [setField, getField?]
  | cons f rest ih =>
    obtain ⟨k, v⟩ := f
    by_cases h : k = key
    · simp [setField, getField?, h]
    · simpa [setField, getField?, h] using ih

theorem getField?_setField_of_ne (fields : List (String × Value)) {key other : String}
    (value : Value) (h : key ≠ other) :
    getField? (setField fields key value) other = getField? fields other := by
  induction fields with
  | nil => simp [setField, getField?, h]
  | cons f rest ih =>
    obtain ⟨k, v⟩ := f
    by_cases hk : k = key
    · subst hk
      simp [setField, getField?, h]
    · by_cases ho : k = other
      · subst ho
        simp [setField, getField?, hk]
      · simpa [setField, getField?, hk, ho] using ih

end TextScopes.Json
