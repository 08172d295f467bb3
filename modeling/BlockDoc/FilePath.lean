import BlockDoc.Text.Blank

/-!
Paths of files: names with slashes between them. Empty names and names `.` count for nothing, except
for a dot in front.
-/

namespace BlockDoc.FilePath

/-- The pieces of a path between slashes. -/
def pieces (path : String) : List String := Text.splitAt '/' path

/-- Whether a piece is a name. -/
def isName (piece : String) : Bool := piece ≠ "" && piece ≠ "."

/-- The names of a path. -/
def names (path : String) : List String := (pieces path).filter isName

/-- The mark in front of a path: a slash, or a dot that stands for the current directory. -/
def front? (path : String) : Option Char :=
  match path.toList with
  | '/' :: _ => some '/'
  | ['.'] => some '.'
  | '.' :: '/' :: _ => some '.'
  | _ => none

/-- The last name of a path, unless it leads upwards. -/
def fileName? (path : String) : Option String := (names path).getLast?.filter (· ≠ "..")

/-- A name without what follows its last point. A point in front begins no ending. -/
def stemOf (name : String) : String :=
  match name.toList.reverse.dropWhile (· != '.') with
  | [] => name
  | _ :: before => if before.isEmpty then name else String.ofList before.reverse

/-- The file name of a path without its ending. -/
def stem? (path : String) : Option String := (fileName? path).map stemOf

/-- Drops pieces in front that are no names. -/
def dropEmpty (ps : List String) : List String := ps.dropWhile fun p => !isName p

/-- Drops pieces at the end that are no names. -/
def dropEmptyEnd (ps : List String) : List String := (dropEmpty ps.reverse).reverse

/-- The pieces behind the given names; nothing when other names come first. -/
def behind? : List String → List String → Option (List String)
  | [], ps => some ps
  | name :: root, ps =>
    match dropEmpty ps with
    | [] => none
    | p :: rest => if p = name then behind? root rest else none

/-- The directory of a file as seen from a root; nothing when it does not lie below the root. -/
def directoryBelow? (root path : String) : Option String :=
  let directory := (dropEmptyEnd (pieces path)).dropLast
  if root.isEmpty then some (String.intercalate "/" (dropEmptyEnd directory))
  else if front? root != front? path then none
  else (behind? (names root) directory).map fun ps =>
    String.intercalate "/" (dropEmptyEnd (dropEmpty ps))

/-- The path of a name in a directory. -/
def join (directory name : String) : String :=
  if directory.isEmpty || directory.toList.getLast? == some '/' then directory ++ name
  else directory ++ "/" ++ name

end BlockDoc.FilePath
