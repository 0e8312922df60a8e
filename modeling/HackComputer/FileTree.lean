import HackComputer.Stream

/-!
# File trees

Directories that hold files and directories under names, and the place to which
a path leads.  A path is followed from directory to directory, so what is wrong
with it is decided by its first component that cannot be passed.
-/

namespace HackComputer

/-- What a directory holds under a name. -/
inductive FileTree.Entry where
  | directory
  | file (contents : List UInt8)
  deriving DecidableEq, Repr

/-- The names that lead from the root to an entry, the last one first. -/
abbrev FileTree.Branch := List String

/-- A tree of directories and files. -/
structure FileTree where
  /-- What there is, apart from the root. -/
  entries : List (FileTree.Branch × FileTree.Entry)
  /-- The directory from which a relative path is followed. -/
  workingDirectory : FileTree.Branch
  deriving Repr

namespace FileTree

/-- The number of bytes that a name may have. -/
def longestName : Nat := 255

/-- The number of bytes that a path may have. -/
def longestPath : Nat := 4095

/-- What there is at the end of a branch. -/
def entry? (tree : FileTree) (branch : Branch) : Option Entry :=
  if branch = [] then some .directory else tree.entries.lookup branch

/-- What the components of a path lead to from a directory.  Empty and `.`
components stay where they are, and nothing is above the root. -/
def follow (tree : FileTree) (directory : Branch) : List String → Place
  | [] => .unusable .isDirectory
  | name :: rest =>
    if name = "" || name = "." then tree.follow directory rest
    else if name = ".." then tree.follow directory.tail rest
    else if longestName < name.utf8ByteSize then .unusable .nameTooLong
    else
      match tree.entry? (name :: directory) with
      | some .directory => tree.follow (name :: directory) rest
      | some (.file contents) => if rest.isEmpty then .file contents else .unusable .notDirectory
      | none => if rest.isEmpty then .vacant else .unusable .notFound

/-- The names between the slashes of a path. -/
def components (path : List Char) : List String :=
  (path.splitOn '/').map String.ofList

/-- What a path leads to. -/
def place (tree : FileTree) (path : String) : Place :=
  if longestPath < path.utf8ByteSize then .unusable .nameTooLong
  else
    match path.toList with
    | [] => .unusable .notFound
    | '/' :: relative => tree.follow [] (components relative)
    | relative => tree.follow tree.workingDirectory (components relative)

/-- Adds an entry, and the directories above it. -/
def insert (tree : FileTree) (entry : Entry) : Branch → FileTree
  | [] => tree
  | name :: parent =>
    let tree := tree.insert .directory parent
    { tree with entries := (name :: parent, entry) :: tree.entries }

/-- The branch of a path from a directory, in a tree that has all of it. -/
def branchFrom (directory : Branch) (path : String) : Branch :=
  (components path.toList).foldl
    (fun branch name =>
      if name = "" || name = "." then branch
      else if name = ".." then branch.tail
      else name :: branch)
    directory

/-- Adds a file with a path from the working directory. -/
def addFile (tree : FileTree) (path : String) (contents : List UInt8) : FileTree :=
  tree.insert (.file contents) (branchFrom tree.workingDirectory path)

/-- Adds entries with paths from the root. -/
def addAll (tree : FileTree) (entry : Entry) (paths : List String) : FileTree :=
  paths.foldl (fun tree path => tree.insert entry (branchFrom [] path)) tree

/-- The directories that are found on every system. -/
def commonDirectories : List String :=
  ["bin", "boot", "dev/pts", "dev/shm", "etc", "home", "lib", "media", "mnt", "opt", "proc/self",
    "root", "run", "sbin", "srv", "sys", "tmp", "usr/bin", "usr/include", "usr/lib", "usr/local/bin",
    "usr/local/lib", "usr/sbin", "usr/share", "usr/src", "var/cache", "var/lib", "var/log", "var/tmp"]

/-- The files that are found on every system and hold nothing. -/
def emptyFiles : List String :=
  ["dev/null", "dev/stdin"]

/-- A system with an empty working directory. -/
def standard : FileTree :=
  let working : FileTree := ⟨[], ["work", "tmp"]⟩
  ((working.insert .directory working.workingDirectory).addAll .directory commonDirectories).addAll
    (.file []) emptyFiles

/-- A system with a working directory that holds the given files. -/
def ofFiles (files : List (String × List UInt8)) : FileTree :=
  files.foldl (fun tree (path, contents) => tree.addFile path contents) standard

end FileTree

end HackComputer
