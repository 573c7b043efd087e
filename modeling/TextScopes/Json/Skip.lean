import TextScopes.Json.Reader
import TextScopes.Json.Record

/-!
# Passing over JSON values

A value that nobody reads only has to be written by the grammar of JSON: its brackets may nest to
any depth, its numbers may be of any size, and `\u` escapes in its strings need not pair up. The
functions give the text behind what they pass over.
-/

namespace TextScopes.Json

/-- Passes over the rest of a string, up to its closing quote. -/
def skipString : Nat → List Char → Option (List Char)
  | 0, _ => none
  | _ + 1, [] => none
  | fuel + 1, c :: cs =>
    if c = '"' then some cs
    else if c = '\\' then
      match cs with
      | 'u' :: cs => do
        let (_, cs) ← hexUnit cs
        skipString fuel cs
      | e :: cs => do
        let _ ← simpleEscape? e
        skipString fuel cs
      | [] => none
    else if c < ' ' then none
    else skipString fuel cs

/-- Passes over a number. -/
def skipNumber (cs : List Char) : Option (List Char) :=
  let cs := match cs with
    | '-' :: cs => cs
    | cs => cs
  (numberParts cs).map (·.2)

mutual

/-- Passes over a value. -/
def skipValue : Nat → List Char → Option (List Char)
  | 0, _ => none
  | fuel + 1, cs =>
    match skipBlanks cs with
    | 'n' :: cs => expect ['u', 'l', 'l'] cs
    | 't' :: cs => expect ['r', 'u', 'e'] cs
    | 'f' :: cs => expect ['a', 'l', 's', 'e'] cs
    | '"' :: cs => skipString (cs.length + 1) cs
    | '[' :: cs =>
      match skipBlanks cs with
      | ']' :: cs => some cs
      | cs => skipItems fuel cs
    | '\x7b' :: cs =>
      match skipBlanks cs with
      | '\x7d' :: cs => some cs
      | cs => skipFields fuel cs
    | cs => skipNumber cs

/-- Passes over the items of an array from the next one on, and its closing bracket. -/
def skipItems : Nat → List Char → Option (List Char)
  | 0, _ => none
  | fuel + 1, cs => do
    let cs ← skipValue fuel cs
    match skipBlanks cs with
    | ',' :: cs => skipItems fuel cs
    | ']' :: cs => return cs
    | _ => none

/-- Passes over the fields of an object from the next one on, and its closing brace. -/
def skipFields : Nat → List Char → Option (List Char)
  | 0, _ => none
  | fuel + 1, cs => do
    let '"' :: cs := skipBlanks cs | none
    let cs ← skipString (cs.length + 1) cs
    let ':' :: cs := skipBlanks cs | none
    let cs ← skipValue fuel cs
    match skipBlanks cs with
    | ',' :: cs => skipFields fuel cs
    | '\x7d' :: cs => return cs
    | _ => none

end

/-- Reads the fields of an object that belong to a record, from the next one on. A field of the
record may be written once only; other fields are passed over. -/
def recordFields (shape : Shape) :
    Nat → List (String × Value) → List Char → Option (List (String × Value) × List Char)
  | 0, _, _ => none
  | fuel + 1, before, cs => do
    let '"' :: cs := skipBlanks cs | none
    let (key, cs) ← stringBody (cs.length + 1) [] cs
    let ':' :: cs := skipBlanks cs | none
    let (now, cs) ←
      if key ∈ shape.names then
        if (getField? before key).isSome then none
        else (value (2 * cs.length + 2) (nestingLimit - 1) cs).map fun (v, cs) =>
          (before ++ [(key, v)], cs)
      else (skipValue (2 * cs.length + 2) cs).map fun cs => (before, cs)
    match skipBlanks cs with
    | ',' :: cs => recordFields shape fuel now cs
    | '\x7d' :: cs => return (now, cs)
    | _ => none

/-- The fields of the record that `text` writes, read straight from the text: a field written twice
is an error, and values under unknown keys are passed over. -/
def recordText? (shape : Shape) (text : String) : Option (List (String × Value)) := do
  let cs := skipBlanks text.toList
  match cs with
  | '\x7b' :: cs =>
    let (fields, rest) ← match skipBlanks cs with
      | '\x7d' :: cs => some ([], cs)
      | cs => recordFields shape (cs.length + 1) [] cs
    if skipBlanks rest = [] then some fields else none
  | '[' :: _ => shape.fields? (← read? text nestingLimit)
  | _ => none

end TextScopes.Json
