import PacScript.Failure

/-!
# File trees

A file tree is a directory with all that is in it. Paths are relative to its root and are resolved
name by name, as a file system does: every name but the last has to be that of a directory, and the
lengths of names and paths are limited. Nothing is known of the directories above the root, so they
are taken to be empty.
-/

namespace PacScript

/-- A file or a directory. -/
inductive FileTree where
  /-- A file with its bytes. -/
  | file (content : ByteArray)
  /-- A directory with its entries. -/
  | directory (entries : List (String × FileTree))

namespace FileTree

/-- The names of a path. -/
def names (path : String) : List String :=
  path.splitOn "/"

/-- How many bytes a name in a path may have. -/
def maxNameSize : Nat := 255

/-- How many bytes a path may have. -/
def maxPathSize : Nat := 4095

/-- Goes from a file or directory on by the given names. The directories above it are in `above`,
the nearest one first. A name is looked at only when its turn comes, so the first name that leads
nowhere decides which fault there is. -/
def descend (above : List FileTree) (tree : FileTree) : List String → Except FileFault FileTree
  | [] => .ok tree
  | name :: rest =>
    match tree with
    | file _ => .error .notDirectory
    | directory entries =>
      if name = "" ∨ name = "." then descend above tree rest
      else if name = ".." then
        match above with
        | [] => descend [] (directory []) rest
        | parent :: ancestors => descend ancestors parent rest
      else if maxNameSize < name.utf8ByteSize then .error .tooLong
      else match entries.lookup name with
        | none => .error .missing
        | some entry => descend (tree :: above) entry rest

/-- What a path leads to. An absolute path starts above the root, and an empty one leads nowhere. -/
def find (tree : FileTree) (path : String) : Except FileFault FileTree :=
  if path.toList.contains '\u0000' then .error .nulInPath
  else if maxPathSize < path.utf8ByteSize then .error .tooLong
  else match names path with
    | [""] => .error .missing
    | "" :: names => descend [] (directory []) names
    | names => descend [] tree names

/-- The bytes of the file that a path leads to. -/
def read (tree : FileTree) (path : String) : Except FileFault ByteArray :=
  match tree.find path with
  | .error fault => .error fault
  | .ok (file content) => .ok content
  | .ok (directory _) => .error .isDirectory

mutual

/-- The files in a directory, each as the names that lead to it. Those of directories in it are
included if `recursive` is set. -/
def files (recursive : Bool) : FileTree → List (List String)
  | file _ => []
  | directory entries => entryFiles recursive entries

/-- The files among the entries of a directory. -/
def entryFiles (recursive : Bool) : List (String × FileTree) → List (List String)
  | [] => []
  | (name, file _) :: rest => [name] :: entryFiles recursive rest
  | (name, directory entries) :: rest =>
    (if recursive then (entryFiles recursive entries).map (name :: ·) else []) ++
      entryFiles recursive rest

end

mutual

/-- The directories below a directory, each as the names that lead to it and before those in it. -/
def directories : FileTree → List (List String)
  | file _ => []
  | directory entries => entryDirectories entries

/-- The directories among the entries of a directory and below them. -/
def entryDirectories : List (String × FileTree) → List (List String)
  | [] => []
  | (_, file _) :: rest => entryDirectories rest
  | (name, directory entries) :: rest =>
    [name] :: (entryDirectories entries).map (name :: ·) ++ entryDirectories rest

end

/-- Replaces an entry of a directory, or adds it. -/
def setEntry (name : String) (entry : FileTree) :
    List (String × FileTree) → List (String × FileTree)
  | [] => [(name, entry)]
  | (other, old) :: rest =>
    if other = name then (name, entry) :: rest else (other, old) :: setEntry name entry rest

/-- Puts a file or a directory at the end of the given names, with the directories that lead to it.
What is there already stays if it is a directory and a directory is to be put there. -/
def insert (leaf : FileTree) (tree : FileTree) : List String → FileTree
  | [] =>
    match leaf, tree with
    | directory [], directory entries => directory entries
    | _, _ => leaf
  | name :: rest =>
    let entries := match tree with
      | directory entries => entries
      | file _ => []
    if name = "" ∨ name = "." then insert leaf tree rest
    else directory (setEntry name
      (insert leaf ((entries.lookup name).getD (directory [])) rest) entries)

end FileTree

end PacScript
