/-!
# References between grammars

An include names what it stands for: an entry of a repository, the grammar that declares it, the
grammar that is being compiled, another language, or an entry of that language's repository.
-/

namespace TextScopes

/-- What an include stands for. -/
inductive Reference where
  /-- The entry under `key` in the nearest repository that has one. -/
  | entry (key : String)
  /-- The grammar that declares the include. -/
  | self
  /-- The grammar that is compiled. -/
  | base
  /-- Another language. -/
  | language (scopeName : String)
  /-- The entry under `key` in the outermost repository of another language. -/
  | languageEntry (scopeName : String) (key : String)
  deriving DecidableEq, Inhabited, Repr

namespace Reference

/-- The text before the first `c`, and the text behind it when there is one. -/
def cut (c : Char) : List Char → List Char × Option (List Char)
  | [] => ([], none)
  | d :: ds =>
    if d = c then ([], some ds)
    else
      let (before, after) := cut c ds
      (d :: before, after)

/-- Reads a reference (`parse`); every text is one. -/
def ofText (text : String) : Reference :=
  if text = "$self" then .self
  else if text = "$base" then .base
  else
    match cut '#' text.toList with
    | ([], some key) => .entry (String.ofList key)
    | (name, some key) => .languageEntry (String.ofList name) (String.ofList key)
    | (_, none) => .language text

/-- The other language that has to be there for the reference (`language`). -/
def language? : Reference → Option String
  | language name => some name
  | languageEntry name _ => some name
  | _ => none

/-- Whether the reference stays in the grammar that declares it, whatever is compiled
(`is_internal`). -/
def isInternal : Reference → Bool
  | entry _ => true
  | self => true
  | _ => false

end Reference

end TextScopes
