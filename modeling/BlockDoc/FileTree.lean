import BlockDoc.FilePath

/-!
A tree of files as a program sees it from a working directory. Directories are those that hold
files.
-/

namespace BlockDoc

/-- Why a file cannot be read. -/
inductive FileError where
  | missing
  | notDirectory
  | isDirectory
  | unreadable (reason : String)
  deriving DecidableEq, Repr, Inhabited

namespace FileError

/-- The wording of an error. -/
def message : FileError → String
  | missing => "No such file or directory (os error 2)"
  | notDirectory => "Not a directory (os error 20)"
  | isDirectory => "Is a directory (os error 21)"
  | unreadable reason => reason

end FileError

/-- A file: the names on the way to it, and its text. -/
structure FileEntry where
  names : List String
  text : Except FileError String

/-- Files, sorted in no way. -/
abbrev FileTree := List FileEntry

namespace FileTree

/-- The names that lead to a place. A name that leads up takes the name before it away; names that
lead up from the working directory stay. -/
def resolve (path : String) : List String :=
  (FilePath.names path).foldl (fun acc name =>
    if name = ".." && acc.getLast?.any (fun last => last ≠ ".." && last ≠ "/") then acc.dropLast
    else acc ++ [name])
    (if FilePath.front? path = some '/' then ["/"] else [])

/-- The file at a place. -/
def file? (tree : FileTree) (names : List String) : Option FileEntry :=
  tree.find? (·.names == names)

/-- Whether a place is a directory: a file lies below it, or it is the working directory or lies
above it. -/
def isDirectory (tree : FileTree) (names : List String) : Bool :=
  names.all (fun name => name = ".." || name = "/")
    || tree.any fun f => names.isPrefixOf f.names && names.length < f.names.length

/-- Whether a file lies on the way to a place. -/
def isBlocked (tree : FileTree) (names : List String) : Bool :=
  tree.any fun f => f.names.isPrefixOf names && f.names.length < names.length

/-- Whether a path asks for a directory by what stands at its end. -/
def asksDirectory (path : String) : Bool :=
  (FilePath.pieces path).getLast?.any fun p => !FilePath.isName p

/-- Reads the file at a path. -/
def read (tree : FileTree) (path : String) : Except FileError String :=
  let names := resolve path
  if path.isEmpty then .error .missing
  else match tree.file? names with
    | some f => if asksDirectory path then .error .notDirectory else f.text
    | none =>
      if tree.isDirectory names then .error .isDirectory
      else if tree.isBlocked names then .error .notDirectory
      else .error .missing

/-- Whether a path leads to a file. -/
def isFile (tree : FileTree) (path : String) : Bool :=
  (tree.file? (resolve path)).isSome && !asksDirectory path

/-- The paths of the files below a directory. -/
def filesBelow (tree : FileTree) (path : String) : List String :=
  let names := resolve path
  if path.isEmpty then []
  else tree.filterMap fun f =>
    if names.isPrefixOf f.names && names.length < f.names.length then
      some ((f.names.drop names.length).foldl FilePath.join path)
    else none

end FileTree

end BlockDoc
