namespace RegisterMachine

/-- Why a file could not be read or written. -/
inductive FileError
  | notFound
  | notADirectory
  | isADirectory
  | nameTooLong
  | notText
  | other (reason : String)
  deriving DecidableEq, Repr

/-- The text that reports a file error. -/
def FileError.message : FileError → String
  | notFound => "No such file or directory (os error 2)"
  | notADirectory => "Not a directory (os error 20)"
  | isADirectory => "Is a directory (os error 21)"
  | nameTooLong => "File name too long (os error 36)"
  | notText => "stream did not contain valid UTF-8"
  | other reason => reason

/-- A tree of files. A file is known by the names on the way to it, and a directory is there when
something is in it. -/
structure Disk where
  files : List (List String × List UInt8) := []
  deriving DecidableEq, Repr

/-- Where a path leads: to the names on the way through the tree, or outside of the tree. -/
inductive Place
  | inside (names : List String)
  | outside
  deriving DecidableEq, Repr

namespace Place

/-- The most bytes that a name may have. -/
def longestName : Nat := 255

/-- Whether a name leads to the directory itself or to the one above it. -/
def isStep (name : String) : Bool := name = "." || name = ".."

/-- The place that a name leads to from a directory. Of what is outside of the tree, only the
directories that steps lead to are known. -/
def enter (directory : Place) (name : String) : Except FileError Place :=
  if longestName < name.utf8ByteSize then .error .nameTooLong
  else
    match directory, name with
    | directory, "." => .ok directory
    | inside [], ".." => .ok outside
    | inside names, ".." => .ok (inside names.dropLast)
    | inside names, name => .ok (inside (names ++ [name]))
    | outside, name => if isStep name then .ok outside else .error .notFound

end Place

/-- A path taken apart: the directory in which its last name is looked up, that name, and whether
a slash follows it. -/
structure Route where
  directory : Place
  name : String
  slash : Bool
  deriving DecidableEq, Repr

namespace Disk

/-- The most bytes that a path may have. -/
def longestPath : Nat := 4095

/-- The content of the file at a place. -/
def file? (d : Disk) : Place → Option (List UInt8)
  | .inside names => (d.files.find? fun entry => entry.1 = names).map (·.2)
  | .outside => none

/-- Whether a place is a directory. The root of the tree is always there. -/
def isDirectory (d : Disk) : Place → Bool
  | .inside names =>
    names.isEmpty ||
      d.files.any fun entry => names.length < entry.1.length && names.isPrefixOf entry.1
  | .outside => true

/-- Goes through names that have to be directories. -/
def walk (d : Disk) : Place → List String → Except FileError Place
  | directory, [] => .ok directory
  | directory, name :: rest =>
    match directory.enter name with
    | .error e => .error e
    | .ok place =>
      if d.isDirectory place then walk d place rest
      else if (d.file? place).isSome then .error .notADirectory
      else .error .notFound

/-- The names on a path, between which there may be several slashes. -/
def names (path : String) : List String := (path.splitOn "/").filter (· ≠ "")

/-- Takes a path apart. It starts at the root of the tree, or outside of it if a slash comes
first. -/
def route (d : Disk) (path : String) : Except FileError Route :=
  if path = "" then .error .notFound
  else if longestPath < path.utf8ByteSize then .error .nameTooLong
  else
    match d.walk (if path.startsWith "/" then .outside else .inside []) (names path).dropLast with
    | .error e => .error e
    | .ok directory => .ok ⟨directory, (names path).getLast?.getD ".", path.endsWith "/"⟩

/-- Reads a file. Only directories have a slash behind their names. -/
def read (d : Disk) (path : String) : Except FileError (List UInt8) := do
  let route ← d.route path
  let place ← route.directory.enter route.name
  match d.file? place with
  | some bytes => if route.slash then .error .notADirectory else .ok bytes
  | none => .error (if d.isDirectory place then .isADirectory else .notFound)

/-- Puts a file in place of an earlier one. -/
def put (d : Disk) (names : List String) (bytes : List UInt8) : Disk :=
  ⟨(names, bytes) :: d.files.filter fun entry => entry.1 ≠ names⟩

/-- Writes a file. A slash behind the name asks for a directory, whatever is there. -/
def write (d : Disk) (path : String) (bytes : List UInt8) : Except FileError Disk := do
  let route ← d.route path
  if route.slash || Place.isStep route.name then .error .isADirectory
  else
    match ← route.directory.enter route.name with
    | .outside => .error .isADirectory
    | .inside names =>
      if d.isDirectory (.inside names) then .error .isADirectory else .ok (d.put names bytes)

end Disk

end RegisterMachine
