import TestPlan.Text.Split

/-!
# Paths

Where a file is: a root, which is empty for a path that starts from the current directory, and the names
on the way. Reading a path drops empty names and single dots and keeps double dots; writing it puts one
slash between the names. A path that starts with exactly two slashes keeps both.
-/

namespace TestPlan

/-- What a path starts from. -/
inductive PathRoot
  | current
  | slash
  | doubleSlash
  deriving DecidableEq

/-- A root and the names on the way from it. -/
structure Path where
  root : PathRoot
  names : List Text
  deriving DecidableEq

namespace Path

/-- The root that a written path starts from. -/
def rootOf (text : Text) : PathRoot :=
  match (text.takeWhile fun (s : Symbol) => s == '/').length with
  | 0 => .current
  | 2 => .doubleSlash
  | _ => .slash

/-- The path that a text describes. -/
def ofText (text : Text) : Path where
  root := rootOf text
  names := (Text.split '/' text).filter fun name => name ≠ "" ∧ name ≠ "."

/-- Whether a path does not depend on the current directory. -/
def isAbsolute (path : Path) : Bool := path.root != .current

/-- A path as text; the current directory is a dot. -/
def text (path : Path) : Text :=
  let joined := Text.joinWith "/" path.names
  match path.root with
  | .current => if path.names.isEmpty then "." else joined
  | .slash => "/" ++ joined
  | .doubleSlash => "//" ++ joined

/-- The greatest number of bytes of a name on a path. -/
def nameLimit : Nat := 255

/-- The number of bytes that a whole path has to stay below. -/
def textLimit : Nat := 4096

/-- Whether a path has a null character in it, so that nothing can be there. -/
def hasNull (path : Path) : Bool := path.names.any fun name => name.contains (.ofCode 0)

/-- A path taken from a directory; an absolute path stays as it is. -/
def join (directory path : Path) : Path :=
  if path.isAbsolute then path else { directory with names := directory.names ++ path.names }

/-- A path with names written below it. -/
def below (directory : Path) (names : Text) : Path := directory.join (ofText names)

/-- The last name of a path. -/
def name (path : Path) : Text := path.names.getLast?.getD []

/-- The directory that a path is in. -/
def parent (path : Path) : Path := { path with names := path.names.dropLast }

/-- A file name cut at its last dot, unless the dot is its first or last symbol. -/
def cutSuffix (name : Text) : Text × Text :=
  let tail : Text := (name.reverse.takeWhile fun (s : Symbol) => s != '.').reverse
  let stem := name.take (name.length - tail.length - 1)
  if tail.length = name.length ∨ tail.isEmpty ∨ stem.isEmpty then (name, [])
  else (stem, .char '.' :: tail)

/-- The last name without its suffix. -/
def stem (path : Path) : Text := (cutSuffix path.name).1

/-- The suffix of the last name, with its dot. -/
def suffix (path : Path) : Text := (cutSuffix path.name).2

end Path
end TestPlan
