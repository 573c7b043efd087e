import TextScopes.Library.Basic
import TextScopes.FileTree

/-!
# Libraries in directories

Documents in directories stand under their file names in one of the directories that are searched,
or in that of their kind below a configuration directory.
-/

namespace TextScopes

/-- Directories that hold documents. -/
structure Directories where
  /-- The directory for configuration, if there is one. -/
  configDir : Option String
  /-- The directories searched before it, the first one first. -/
  searchDirs : List String
  deriving DecidableEq, Inhabited, Repr

namespace Directories

/-- The place of documents of a kind below the configuration directory. -/
def bundle : DocumentKind → String
  | .language => "scoped-syntax/grammars"
  | .theme => "scoped-syntax/themes"

/-- The directory of documents of a kind below the configuration directory (`bundle_dir`). -/
def bundleDir? (directories : Directories) (kind : DocumentKind) : Option String :=
  directories.configDir.map fun dir => Path.join dir (bundle kind)

/-- The library of the documents that a file tree has in the directories. -/
def library (directories : Directories) (tree : FileTree) : Library where
  locate? kind identifier :=
    ((directories.searchDirs ++ (directories.bundleDir? kind).toList).map fun dir =>
      Path.join dir (kind.fileName identifier)).find? tree.isFile
  read path := tree.read path
  extent := tree.extent

end Directories

end TextScopes
