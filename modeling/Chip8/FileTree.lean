import Chip8.Rom

/-!
# A tree of files

The files and directories around the working directory, and what the system answers when a file is
to be read: a path is followed part by part, and the first part that cannot be followed decides
the error. The directories above the working directory, and the root, exist without having to be
listed; what else they hold is only what is listed.
-/

namespace Chip8

/-- A directory that can be reached without its name being known. -/
inductive Base where
  /-- The directory so many levels above the working directory. -/
  | working (levels : Nat)
  /-- The root of the file system. -/
  | root
  deriving DecidableEq, Repr

/-- A place in the tree: the names that lead to it from a base. -/
structure Location where
  base : Base
  names : List String
  deriving DecidableEq, Repr

namespace Location

/-- The directory above a place; the root is above itself. -/
def parent (l : Location) : Location :=
  match l.names, l.base with
  | [], .working levels => ⟨.working (levels + 1), []⟩
  | [], .root => ⟨.root, []⟩
  | names, base => ⟨base, names.dropLast⟩

/-- The place of that name below a place. -/
def child (l : Location) (name : String) : Location := ⟨l.base, l.names ++ [name]⟩

/-- The place that a part of a path leads to. -/
def step (l : Location) (part : String) : Location :=
  if part = ".." then l.parent else l.child part

/-- Where a path starts. -/
def start (p : Path) : Location := ⟨if p.root = "" then .working 0 else .root, []⟩

/-- The places on the way along a path, its end included. -/
def along (p : Path) : List Location :=
  (List.range (p.parts.length + 1)).map fun k => (p.parts.take k).foldl step (start p)

/-- The place that a path leads to. -/
def ofPath (p : Path) : Location := p.parts.foldl step (start p)

end Location

/-- What lies at a place. -/
inductive FileEntry where
  | directory
  | file (bytes : List Byte)
  deriving DecidableEq

/-- The listed files and directories. -/
structure FileTree where
  entries : List (Location × FileEntry)

/-- What has been reached while following a path. -/
inductive Reached where
  | directory (l : Location)
  | file (bytes : List Byte)

namespace FileTree

/-- The largest length of one part of a path, in bytes. -/
def maxPartLength : Nat := 255

/-- The largest length of a whole path, in bytes. -/
def maxPathLength : Nat := 4095

/-- What is listed at a place. -/
def entry? (t : FileTree) (l : Location) : Option FileEntry := t.entries.lookup l

/-- The directories on the way along a path. -/
def directories (p : Path) : List (Location × FileEntry) :=
  (Location.along p).map fun l => (l, .directory)

/-- The tree with the given directories and files, and every directory that these need. Of two
files at one place the later one stays. -/
def ofLists (names : List String) (files : List (String × List Byte)) : FileTree where
  entries :=
    (files.reverse.map fun (name, bytes) =>
        (Location.ofPath (Path.ofText name), FileEntry.file bytes))
      ++ names.flatMap (fun name => directories (Path.ofText name))
      ++ files.flatMap fun (name, _) => directories (Path.ofText name)

/-- Follows one part of a path. -/
def enter (t : FileTree) (reached : Reached) (part : String) : Except FileError Reached :=
  match reached with
  | .file _ => .error .notDirectory
  | .directory l =>
    if part = ".." then .ok (.directory l.parent)
    else if maxPartLength < part.utf8ByteSize then .error .nameTooLong
    else match t.entry? (l.child part) with
      | none => .error .notFound
      | some .directory => .ok (.directory (l.child part))
      | some (.file bytes) => .ok (.file bytes)

/-- Reads the file at a path. -/
def read (t : FileTree) (p : Path) : Except FileError (List Byte) :=
  if maxPathLength < p.text.utf8ByteSize then .error .nameTooLong
  else do
    match ← p.parts.foldlM t.enter (.directory (Location.start p)) with
    | .file bytes => .ok bytes
    | .directory _ => .error .isDirectory

end FileTree

end Chip8
