import TextScopes.Path

/-!
# Trees of files

What is at the paths from a directory: files with their bytes, and directories. Nothing is known of
what lies outside the directory.
-/

namespace TextScopes

/-- Why a file cannot be read. -/
inductive ReadError where
  | notFound
  /-- The path leads on behind a file. -/
  | notDirectory
  | isDirectory
  /-- The bytes are no text. -/
  | invalidText
  deriving DecidableEq, Inhabited, Repr

/-- Files by their steps from the root, and directories that may hold none. Whatever lies on the way
to one of these is a directory. -/
structure FileTree where
  files : List (List String × ByteArray)
  directories : List (List String)

namespace FileTree

/-- What is at a path. -/
inductive Node where
  | file (bytes : ByteArray)
  | directory (steps : List String)

/-- The file tree of paths with the bytes of files, directories having none. -/
def ofList (entries : List (String × Option ByteArray)) : FileTree where
  files := entries.filterMap fun (path, bytes) => bytes.map fun bytes => (Path.inner path, bytes)
  directories := (entries.filter (·.2.isNone)).map fun (path, _) => Path.inner path

/-- Whether there is a directory at some steps from the root. -/
def isDirectory (tree : FileTree) (steps : List String) : Bool :=
  steps = [] || tree.directories.any (steps.isPrefixOf ·)
    || tree.files.any fun file => steps.isPrefixOf file.1 && steps ≠ file.1

/-- What is some steps from the root. -/
def at? (tree : FileTree) (steps : List String) : Option Node :=
  match tree.files.lookup steps with
  | some bytes => some (.file bytes)
  | none => if tree.isDirectory steps then some (.directory steps) else none

/-- Walks along the pieces of a path. -/
def walk (tree : FileTree) (node : Node) : List String → Except ReadError Node
  | [] => .ok node
  | piece :: rest =>
    match node with
    | .file _ => .error .notDirectory
    | .directory steps =>
      if !Path.isStep piece then walk tree node rest
      else
        let next := if piece = ".." then (if steps = [] then none else tree.at? steps.dropLast)
          else tree.at? (steps ++ [piece])
        match next with
        | some node => walk tree node rest
        | none => .error .notFound

/-- What is at a path from the root of the tree; nothing lies outside. -/
def node (tree : FileTree) (path : String) : Except ReadError Node :=
  if path.startsWith "/" then .error .notFound
  else tree.walk (.directory []) (Path.pieces path)

/-- Whether there is a file at a path. -/
def isFile (tree : FileTree) (path : String) : Bool :=
  match tree.node path with
  | .ok (.file _) => true
  | _ => false

/-- The text of the file at a path. -/
def read (tree : FileTree) (path : String) : Except ReadError String := do
  match ← tree.node path with
  | .directory _ => .error .isDirectory
  | .file bytes =>
    match String.fromUTF8? bytes with
    | some text => .ok text
    | none => .error .invalidText

/-- The tree with a file of the given bytes at a path, in place of the one that is there. Fails
where there is a directory, or none to hold the file. -/
def write? (tree : FileTree) (path : String) (bytes : ByteArray) : Option FileTree :=
  let pieces := Path.pieces path
  let name := pieces.getLast?.getD ""
  if path.startsWith "/" ∨ !Path.isStep name ∨ name = ".." then none
  else
    match tree.walk (.directory []) pieces.dropLast with
    | .ok (.directory outer) =>
      let steps := outer ++ [name]
      if tree.isDirectory steps then none
      else some { tree with files := (steps, bytes) :: tree.files.filter (·.1 ≠ steps) }
    | _ => none

/-- The bytes of all files. -/
def extent (tree : FileTree) : Nat := (tree.files.map (·.2.size)).foldr (· + ·) 0

end FileTree

end TextScopes
