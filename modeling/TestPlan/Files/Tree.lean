import TestPlan.Files.Name
import TestPlan.Files.Path

/-!
# Trees of files

Files and directories as a value. Every operation follows a path from the root, one name at a time; the
name `..` leads back to the directory before. What an operation finds in its way is a `FileError`, which
names the path as it was given. Reading never changes the tree, and writing gives a new one. Names and
paths have a limit on their length, which shows when it is reached on the way. A path with a null
character in it, or with halves of characters that stand for no bytes, leads nowhere and cannot be opened.
-/

namespace TestPlan

/-- Why an operation on files is refused. -/
inductive FileError
  | notFound (path : Text)
  | isDirectory (path : Text)
  | notDirectory (path : Text)
  | alreadyThere (path : Text)
  | nameTooLong (path : Text)
  | nullCharacter
  /-- there are halves in the path that stand for no bytes -/
  | halves (found : Text.Halves)
  /-- refused for a reason that is given as text -/
  | refused (reason : Text)
  deriving DecidableEq

namespace FileError

/-- What an error says. -/
def message : FileError → Text
  | notFound path => "[Errno 2] No such file or directory: " ++ Text.quote path
  | isDirectory path => "[Errno 21] Is a directory: " ++ Text.quote path
  | notDirectory path => "[Errno 20] Not a directory: " ++ Text.quote path
  | alreadyThere path => "[Errno 17] File exists: " ++ Text.quote path
  | nameTooLong path => "[Errno 36] File name too long: " ++ Text.quote path
  | nullCharacter => "embedded null byte"
  | halves found => found.message
  | refused reason => reason

end FileError

/-- A file with its bytes, or a directory with named entries. -/
inductive FileTree
  | file (bytes : List UInt8)
  | directory (entries : List (FileName × FileTree))

namespace FileTree

/-- The directory without entries. -/
def emptyDirectory : FileTree := .directory []

/-- Whether an entry is a file. -/
def isFile : FileTree → Bool
  | file _ => true
  | directory _ => false

/-- The entry with a name in a list of entries. -/
def entry? (name : FileName) (entries : List (FileName × FileTree)) : Option FileTree :=
  (entries.find? fun (n, _) => n == name).map (·.2)

/-- Entries in which a name stands for this entry, or for none. -/
def setEntry (name : FileName) (entry : Option FileTree) (entries : List (FileName × FileTree)) :
    List (FileName × FileTree) :=
  match entry with
  | none => entries.filter fun (n, _) => n != name
  | some new =>
    if entries.any fun (n, _) => n == name then
      entries.map fun (n, old) => if n == name then (n, new) else (n, old)
    else entries ++ [(name, new)]

/-- The tree in which the names on a way lead to this entry, or to none. Ways through something that is no
directory change nothing. -/
def set (entry : Option FileTree) : List FileName → FileTree → FileTree
  | [], tree => entry.getD tree
  | _, file bytes => file bytes
  | [name], directory entries => directory (setEntry name entry entries)
  | name :: rest, directory entries =>
    match entry? name entries with
    | some inner => directory (setEntry name (some (set entry rest inner)) entries)
    | none => directory entries

end FileTree

/-- What stands in the way when following names. -/
inductive Obstacle
  | missing
  | noDirectory
  | tooLong
  | nullCharacter
  | halves (found : Text.Halves)
  deriving DecidableEq

/-- A tree of files seen from a current directory, whose names lead there from the root. -/
structure Disk where
  tree : FileTree
  current : List Text

namespace Disk

/-- Follow names from the innermost of some nested entries, each given with its name; the result lists
the entries on the way, innermost first. -/
def follow (root : FileTree) : List (FileName × FileTree) → List Text →
    Except Obstacle (List (FileName × FileTree))
  | way, [] => .ok way
  | way, name :: rest =>
    match (way.head?.map (·.2)).getD root with
    | .file _ => .error .noDirectory
    | .directory entries =>
      if name = ".." then follow root way.tail rest
      else
        let name := FileName.ofText name
        if Path.nameLimit < name.length then .error .tooLong
        else
          match FileTree.entry? name entries with
          | some inner => follow root ((name, inner) :: way) rest
          | none => .error .missing

/-- The names that lead from the root to a path, before they are followed. -/
def fromRoot (disk : Disk) (path : Path) : List Text :=
  if path.isAbsolute then path.names else disk.current ++ path.names

/-- The names that lead straight from the root to an existing path, and what is there. -/
def locate (disk : Disk) (path : Path) : Except Obstacle (List FileName × FileTree) := do
  if let some found := FileName.unnameable? path.text then throw (.halves found)
  if path.hasNull then throw .nullCharacter
  if Path.textLimit ≤ (FileName.ofText path.text).length then throw .tooLong
  let way ← follow disk.tree [] (disk.fromRoot path)
  return ((way.map (·.1)).reverse, (way.head?.map (·.2)).getD disk.tree)

/-- The error that an obstacle on the way to a path is. -/
def blocked (path : Path) : Obstacle → FileError
  | .missing => .notFound path.text
  | .noDirectory => .notDirectory path.text
  | .tooLong => .nameTooLong path.text
  | .nullCharacter => .nullCharacter
  | .halves found => .halves found

/-- What is at a path, nothing if the path leads nowhere. Only a path that is too long is refused. -/
def entry? (disk : Disk) (path : Path) : Except FileError (Option FileTree) :=
  match disk.locate path with
  | .ok (_, found) => .ok (some found)
  | .error .tooLong => .error (.nameTooLong path.text)
  | .error _ => .ok none

/-- Whether a path leads to a file. -/
def isFile (disk : Disk) (path : Path) : Except FileError Bool := do
  return (← disk.entry? path).any FileTree.isFile

/-- Whether a path leads to a directory. -/
def isDirectory (disk : Disk) (path : Path) : Except FileError Bool := do
  return (← disk.entry? path).any fun found => !found.isFile

/-- What is at a path that is to be opened, with the names that lead straight there. -/
def resolve (disk : Disk) (path : Path) : Except FileError (List FileName × FileTree) :=
  (disk.locate path).mapError (blocked path)

/-- The names that lead to the directory in which a new entry can be made. -/
def place (disk : Disk) (path : Path) : Except FileError (List FileName) :=
  match disk.locate path.parent with
  | .ok (names, .directory _) => .ok (names ++ [FileName.ofText path.name])
  | .ok (_, .file _) => .error (.notDirectory path.text)
  | .error obstacle => .error (blocked path obstacle)

/-- The names in a directory; nothing else has any. -/
def namesIn (disk : Disk) (path : Path) : List Text :=
  match disk.locate path with
  | .ok (_, .directory entries) => entries.map fun (name, _) => name.text
  | _ => []

/-- The bytes of a file. -/
def readBytes (disk : Disk) (path : Path) : Except FileError (List UInt8) :=
  match disk.resolve path with
  | .ok (_, .file bytes) => .ok bytes
  | .ok (_, .directory _) => .error (.isDirectory path.text)
  | .error e => .error e

/-- Put bytes into a file, which is created if need be in a directory that is there. -/
def writeBytes (disk : Disk) (path : Path) (bytes : List UInt8) : Except FileError Disk := do
  let put (names : List FileName) : Disk := { disk with tree := disk.tree.set (some (.file bytes)) names }
  match disk.resolve path with
  | .ok (_, .directory _) => throw (.isDirectory path.text)
  | .ok (names, .file _) => return put names
  | .error (.notFound _) => return put (← disk.place path)
  | .error e => throw e

/-- Remove a file. -/
def remove (disk : Disk) (path : Path) : Except FileError Disk := do
  match disk.resolve path with
  | .ok (_, .directory _) => throw (.isDirectory path.text)
  | .ok (names, .file _) => return { disk with tree := disk.tree.set none names }
  | .error e => throw e

/-- Make one directory in a directory that is there. -/
def makeDirectory (disk : Disk) (path : Path) : Except FileError Disk := do
  match disk.resolve path with
  | .ok _ => throw (.alreadyThere path.text)
  | .error (.notFound _) =>
    return { disk with tree := disk.tree.set (some FileTree.emptyDirectory) (← disk.place path) }
  | .error e => throw e

/-- Make a directory and those that it is in, as far as they are not there. -/
def makeDirectories (disk : Disk) (path : Path) : Except FileError Disk :=
  let settle (disk : Disk) (made : Except FileError Disk) : Except FileError Disk :=
    match made with
    | .ok disk => .ok disk
    | .error e => do if ← disk.isDirectory path then return disk else throw e
  match disk.makeDirectory path with
  | .error (.notFound p) =>
    if h : path.names = [] then .error (.notFound p)
    else
      have : path.parent.names.length < path.names.length := by
        have := List.length_pos_iff.mpr h
        simp only [Path.parent, List.length_dropLast]
        omega
      match disk.makeDirectories path.parent with
      | .error e => .error e
      | .ok disk => settle disk (disk.makeDirectory path)
  | made => settle disk made
termination_by path.names.length

end Disk
end TestPlan
