import TextScopes.Library.Basic

/-!
# Libraries held in memory

Documents held in memory stand under their file names. Names that are the same as paths name the
same document, and a document replaces the one that stands under its name.
-/

namespace TextScopes

/-- Texts by file name, each name once. -/
structure Embedded where
  files : List (String × String)
  deriving DecidableEq, Inhabited, Repr

namespace Embedded

/-- No documents. -/
def empty : Embedded := ⟨[]⟩

/-- The text under a file name. -/
def text? (embedded : Embedded) (path : String) : Option String :=
  (embedded.files.find? fun file => Path.same file.1 path).map (·.2)

/-- Puts a document under its file name. -/
def insert (embedded : Embedded) (identifier : String) (kind : DocumentKind) (text : String) :
    Embedded :=
  let name := kind.fileName identifier
  ⟨(name, text) :: embedded.files.filter fun file => !Path.same file.1 name⟩

/-- The library of the documents. -/
def library (embedded : Embedded) : Library where
  locate? kind identifier :=
    let name := kind.fileName identifier
    (embedded.text? name).map fun _ => name
  read path :=
    match embedded.text? path with
    | some text => .ok text
    | none => .error .notFound
  extent := (embedded.files.map fun file => file.2.utf8ByteSize).foldr (· + ·) 0

end Embedded

end TextScopes
