import GoPages.Analysis
import GoPages.Sorting

/-!
# Directories

A `Directory` is what a listing says about a directory: its path, and its files with their contents,
or the reason why one of these cannot be read. Directories in it do not belong to it.

The source files of a directory are the Go files that are no tests. `Directory.load` loads them as
one package; files are read in the order of their names, and all of them before the first one is
parsed.
-/

namespace GoPages

/-- A file of a directory with its text, or the reason why the text cannot be read. -/
structure DirectoryFile where
  name : String
  text : Except String String

/-- A directory with its files, or the reason why it cannot be listed. -/
structure Directory where
  path : String
  files : Except String (List DirectoryFile)

namespace Directory

/-- Does a file of this name belong to the package? -/
def isSourceName (name : String) : Bool :=
  (Text.stripEnd? ".go".toList name.toList).isSome &&
    (Text.stripEnd? "_test.go".toList name.toList).isNone

/-- The source files in the order of their names. -/
def sourceFiles (files : List DirectoryFile) : List DirectoryFile :=
  sortBy (fun a b => !decide (b.name < a.name)) (files.filter fun file => isSourceName file.name)

/-- The texts of files of a directory, up to the first one that cannot be read. -/
def readAll (path : String) : List DirectoryFile → Except LoadError (List Source)
  | [] => .ok []
  | file :: rest =>
    match file.text with
    | .error reason => .error (.unreadable (path ++ "/" ++ file.name) reason)
    | .ok text => (readAll path rest).map (⟨file.name, text⟩ :: ·)

/-- Loads the source files of a directory as one package. -/
def load (d : Directory) : Except LoadError Package :=
  match d.files with
  | .error reason => .error (.unreadable d.path reason)
  | .ok files =>
    match sourceFiles files with
    | [] => .error (.noGoFiles d.path)
    | file :: rest => (readAll d.path (file :: rest)).bind Package.load

end Directory

/-- The analysis of a directory. -/
def Analysis.ofDirectory (c : Conventions) (plugins : List Plugin) (d : Directory) : Analysis :=
  ofLoaded c plugins d.load

end GoPages
