import BlockDoc.FileTree
import BlockDoc.Fixture

/-!
Running the fixtures below a directory. A fixture belongs to the category of the folder it lies in.
-/

namespace BlockDoc.Fixture

/-- The ending of the file name of a fixture. -/
def fileEnding : String := ".test.md"

/-- Whether a path is that of a fixture. -/
def isFixture (path : String) : Bool :=
  (FilePath.fileName? path).any fun name => fileEnding.toList.isSuffixOf name.toList

/-- The category of a file below a root: its folder, or nothing for the root itself. -/
def categoryOf (root path : String) : String :=
  String.ofList (((FilePath.directoryBelow? root path).getD "").toList.map fun c =>
    if c = '\\' then '/' else c)

/-- How a category is called. -/
def categoryLabel (category : String) : String := if category.isEmpty then "(root)" else category

/-- Paths by category. -/
abbrev Categories := List (String × List String)

/-- The fixtures below a root, with sorted categories and files. -/
def discover (tree : FileTree) (root : String) : Categories :=
  let files := ((tree.filesBelow root).filter isFixture).mergeSort fun a b =>
    !(FilePath.names b).lex (FilePath.names a) fun x y => decide (x < y)
  groupByKey (files.map fun f => (categoryOf root f, f))

/-- A requested category without slashes around it. -/
def requestedName (requested : String) : String := Text.trimWhere (· == '/') requested

/-- Whether a request means a category: the category itself, or one above it. -/
def requests (requested category : String) : Bool :=
  let name := requestedName requested
  category = name || (name ++ "/").toList.isPrefixOf category.toList

/-- The categories that are requested; all of them when there are no requests. -/
def select (requested : List String) (all : List String) : List String :=
  if requested.isEmpty then all
  else all.filter fun category => requested.any fun r => requests r category

/-- The requests that mean no category. -/
def unmet (requested : List String) (all : List String) : List String :=
  requested.filter fun r => !all.any (requests r)

/-- The result of a fixture. -/
structure Result where
  path : String
  description : Option String
  /-- Why the fixture fails, if it does. -/
  failure : Option String
  deriving DecidableEq, Repr, Inhabited

namespace Result

/-- Whether the fixture passes. -/
def passes (r : Result) : Bool := r.failure.isNone

/-- How the fixture is called. -/
def label (r : Result) : String := r.description.getD ((FilePath.stem? r.path).getD "?")

end Result

/-- The result of a fixture whose file was read. -/
def resultOf (path : String) (content : Except FileError String) : Result :=
  match content with
  | .error e => ⟨path, none, some ("cannot read file: " ++ e.message)⟩
  | .ok text =>
    match parse text with
    | .error e => ⟨path, none, some ("header error: " ++ e.message)⟩
    | .ok f => ⟨path, f.description, f.failure? f.compile⟩

/-! ## Reports -/

/-- Whether a report is coloured. -/
structure Palette where
  colored : Bool
  deriving DecidableEq, Repr, Inhabited

namespace Palette

/-- A text in the style of a terminal code. -/
def paint (p : Palette) (code text : String) : String :=
  if p.colored then "\x1b[" ++ code ++ "m" ++ text ++ "\x1b[0m" else text

/-- A text in green. -/
def green (p : Palette) : String → String := p.paint "32"

/-- A text in red. -/
def red (p : Palette) : String → String := p.paint "31"

/-- A text in bold face. -/
def bold (p : Palette) : String → String := p.paint "1"

end Palette

/-- The line for a result. -/
def resultLine (p : Palette) (r : Result) : String :=
  "  " ++ (if r.passes then p.green "PASS" else p.red "FAIL") ++ "  " ++ r.label

/-- A line without a carriage return at its end. -/
def dropReturn (cs : List Char) : List Char :=
  if cs.getLast? = some '\r' then cs.dropLast else cs

/-- The lines of a text. A line break at the end begins no further line. -/
def textLines (s : String) : List String :=
  match (Text.splitList (· == '\n') s.toList).reverse with
  | [] => []
  | last :: ended =>
    let last := if last.isEmpty then [] else [String.ofList last]
    (ended.reverse.map fun cs => String.ofList (dropReturn cs)) ++ last

/-- The lines about a fixture that fails. -/
def failureLines (r : Result) : List String :=
  match r.failure with
  | none => []
  | some reason =>
    ["", "  --- " ++ r.path ++ " ---"] ++ (textLines reason).map fun line => "  " ++ line

/-- The last lines of a report. -/
def summaryLines (p : Palette) (passed failed : Nat) : List String :=
  ["", if failed = 0 then
      "test result: " ++ p.green "ok" ++ ". " ++ toString passed ++ " passed, 0 failed"
    else
      "test result: " ++ p.red "FAILED" ++ ". " ++ toString passed ++ " passed, "
        ++ toString failed ++ " failed (of " ++ toString (passed + failed) ++ ")"]

/-- The lines about results by category, and whether all fixtures pass. Without categories only the
results are listed. -/
def report (p : Palette) (categorized : Bool) (groups : List (String × List Result)) :
    List String × Bool :=
  let groupLines (group : String × List Result) : List String :=
    (if categorized then ["", p.bold (categoryLabel group.1)] else [])
      ++ group.2.map (resultLine p)
  let results := groups.flatMap (·.2)
  let failures := results.filter fun r => !r.passes
  (groups.flatMap groupLines
    ++ (if failures.isEmpty then [] else ["", "failures:"] ++ failures.flatMap failureLines)
    ++ summaryLines p (results.length - failures.length) failures.length,
    failures.isEmpty)

/-- The line for a place without fixtures. -/
def noFixtures (path : String) : String := "no " ++ fileEnding ++ " files found in " ++ path

/-- The line for a request that means no category. -/
def unmetLine (all : List String) (requested : String) : String :=
  "warning: category '" ++ requestedName requested ++ "' not found (available: "
    ++ String.intercalate ", " (all.map categoryLabel) ++ ")"

/-- Runs the fixture at a path, or the fixtures of the requested categories below it: the lines of
the report, and whether all pass. -/
def runAll (tree : FileTree) (p : Palette) (path : String) (requested : List String) :
    List String × Bool :=
  let result (file : String) : Result := resultOf file (tree.read file)
  if tree.isFile path then report p false [("", [result path])]
  else
    let all := discover tree path
    if all.isEmpty then ([noFixtures path], false)
    else
      let names := all.map (·.1)
      let warnings := (unmet requested names).map (unmetLine names)
      let chosen := select requested names
      if chosen.isEmpty then (warnings ++ ["no matching categories found"], false)
      else
        let groups := (all.filter fun c => chosen.contains c.1).map fun (category, files) =>
          (category, files.map result)
        let (lines, ok) := report p true groups
        (warnings ++ lines, ok)

/-- The categories below a path, with the number of fixtures in each. -/
def listCategories (tree : FileTree) (path : String) : List String :=
  if tree.isFile path then ["(single file, no categories)"]
  else
    let all := discover tree path
    if all.isEmpty then [noFixtures path]
    else "available categories:" :: all.map fun (category, files) =>
      "  " ++ categoryLabel category ++ " (" ++ toString files.length ++ " fixtures)"

end BlockDoc.Fixture
