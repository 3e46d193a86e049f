namespace RegisterMachine

/-- Names of files are characters with slashes between directories. -/
abbrev PathName : Type := List Char

namespace PathName

/-- The last name of a path, given from its end, with what stands before it. Slashes and single
dots behind the name are passed over. A path that ends in two dots, or has only a dot, names no
file. -/
def splitReversed? : List Char → Option (List Char × List Char)
  | '/' :: rest => splitReversed? rest
  | '.' :: '/' :: rest => splitReversed? rest
  | cs =>
    let name := cs.takeWhile (· ≠ '/')
    if name = [] ∨ name = ['.'] ∨ name = ['.', '.'] then none
    else some (name, cs.dropWhile (· ≠ '/'))

/-- The directory part of a path, with its slash, and the name of the file. -/
def split? (path : PathName) : Option (PathName × List Char) :=
  (splitReversed? path.reverse).map fun (name, directory) => (directory.reverse, name.reverse)

/-- A file name up to its last dot and what follows that dot. A dot at the very start does not
count. -/
def splitExtension (name : List Char) : List Char × Option (List Char) :=
  let reversed := name.reverse
  match reversed.dropWhile (· ≠ '.') with
  | _ :: c :: stem => ((c :: stem).reverse, some (reversed.takeWhile (· ≠ '.')).reverse)
  | _ => (name, none)

/-- What follows the last dot in the name of the file. -/
def extension? (path : PathName) : Option (List Char) :=
  (split? path).bind fun (_, name) => (splitExtension name).2

/-- Puts an extension in place of the one that a path has, if it names a file. -/
def setExtension (path : PathName) (extension : List Char) : PathName :=
  match split? path with
  | none => path
  | some (directory, name) => directory ++ (splitExtension name).1 ++ '.' :: extension

/-- The path with another extension. As many characters as the old extension has are taken off the
end first. -/
def withExtension (path : PathName) (extension : List Char) : PathName :=
  match extension? path with
  | none => setExtension path extension
  | some old => setExtension (path.take (path.length - old.length)) extension

end PathName

end RegisterMachine
