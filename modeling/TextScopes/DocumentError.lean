import TextScopes.Json.Record
import TextScopes.Uuid

/-!
# Errors in documents

Grammars and themes are read from documents in the same steps: the fields have to be of the right
types, then the required ones present and the identifier well formed, in the order of the reading.
-/

namespace TextScopes

/-- Why a document is refused. -/
inductive DocumentError where
  /-- A required key is absent. -/
  | missingKey (key : String)
  | invalidUuid (text : String)
  /-- The document is not of the right form, or it is no JSON. -/
  | malformed
  /-- The entry with this number in the list of top-level patterns is invalid. -/
  | invalidPattern (index : Nat) (scopeName : String)
  deriving DecidableEq, Repr

namespace DocumentError

/-- The wording of an error in a document of the given kind. -/
def message (kind : String) : DocumentError → String
  | missingKey key => "Missing " ++ kind ++ " key: " ++ key
  | invalidUuid text => "Invalid " ++ kind ++ " uuid: " ++ text
  | malformed => "Malformed " ++ kind
  | invalidPattern index scopeName =>
    "Malformed " ++ kind ++ ": top-level pattern " ++ toString index ++ " of " ++ scopeName
      ++ " is invalid"

/-- A required field of a document. -/
def require {α : Type} (key : String) : Option α → Except DocumentError α
  | some a => .ok a
  | none => .error (.missingKey key)

/-- The identifier that a document's field writes. -/
def readUuid (text : String) : Except DocumentError Uuid :=
  match Uuid.ofText? text with
  | some uuid => .ok uuid
  | none => .error (.invalidUuid text)

end DocumentError

end TextScopes
