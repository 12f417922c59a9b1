import PacScript.FileTree
import PacScript.Scan

/-!
# Batches of files

The script files of a directory are those whose name ends in `.pac`, in letters of any case. They
are taken in the order of their paths, which are compared name by name.
-/

namespace PacScript.Batch

/-- True for the names of script files. What stands before the last point must not be empty, since a
point at the start of a name begins no extension. -/
def isScriptName (name : String) : Bool :=
  let reversed := name.toList.reverse
  let extension := (reversed.takeWhile (· != '.')).reverse
  let stem := (reversed.dropWhile (· != '.')).drop 1
  !stem.isEmpty && extension.map Char.toLower == ['p', 'a', 'c']

/-- The path to names under a directory. -/
def join (root : String) (names : List String) : String :=
  root ++ (if root.isEmpty || root.endsWith "/" then "" else "/") ++ "/".intercalate names

/-- The paths of the script files among the files under a directory, in order. -/
def scriptPaths (root : String) (files : List (List String)) : List String :=
  let scripts := files.filter fun names => names.getLast?.any isScriptName
  (scripts.mergeSort fun a b => !decide (b < a)).map (join root)

/-- The first directory below the one at a path that is too deep to be listed by its own path. -/
def tooDeep? (root : String) (found : FileTree) : Option String :=
  (found.directories.map (join root)).find? (FileTree.maxPathSize < ·.utf8ByteSize)

/-- The paths of the script files in a directory of a file tree, and below it if `recursive` is
set. Each directory is listed by its path, so none of those paths may be too long; that of a file
may, as long as the file is not read. -/
def collect (tree : FileTree) (root : String) (recursive : Bool) : Except Failure (List String) :=
  match tree.find root with
  | .error fault => .error (.listing root fault)
  | .ok found =>
    match if recursive then tooDeep? root found else none with
    | some path => .error (.listing path .tooLong)
    | none => .ok (scriptPaths root (found.files recursive))

/-- The script in a file of a file tree. -/
def scanFile (tree : FileTree) (scanner : Scanner) (path : String) : Except Failure Script :=
  match tree.read path with
  | .error fault => .error (.file fault)
  | .ok data => scanner.scan data

/-- The scripts in files of a file tree, in the order of the paths. -/
def scanFiles (tree : FileTree) (scanner : Scanner) (paths : List String) :
    List (String × Except Failure Script) :=
  paths.map fun path => (path, scanFile tree scanner path)

end PacScript.Batch
