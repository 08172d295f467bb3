import BlockDoc.Compiler
import BlockDoc.Toml.Field

/-!
Fixtures: Markdown texts with a TOML header between lines `+++` that says what compiling them must
give.
-/

namespace BlockDoc

/-- A text to compile and what is expected of it. -/
structure Fixture where
  description : Option String
  options : CompileOptions
  hasErrors : Option Bool
  /-- Names of codes, in any order. -/
  codes : Option (List String)
  /-- Types of the blocks of the outermost level, in order. -/
  blockTypes : Option (List String)
  title : Option String
  id : Option String
  source : String
  deriving DecidableEq, Repr, Inhabited

namespace Fixture

/-- Why a text is no fixture. -/
inductive Error where
  | missingOpening
  | missingClosing
  | toml (e : Toml.Error)
  deriving DecidableEq, Repr, Inhabited

/-- The wording of an error. -/
def Error.message : Error → String
  | missingOpening => "missing opening +++ header delimiter"
  | missingClosing => "missing closing +++ header delimiter"
  | toml e => "TOML parse error: " ++ e.message

/-- The delimiter of a header. -/
def delimiter : List Char := ['+', '+', '+']

/-- A text without a line break in front. -/
def dropBreak : List Char → List Char
  | '\n' :: cs => cs
  | '\r' :: '\n' :: cs => cs
  | cs => cs

/-- The header and the source of a text. A header ends at the first line that begins with the
delimiter. -/
def split (text : List Char) : Except Error (List Char × List Char) := do
  let text := text.dropWhile (· == FrontMatter.byteOrderMark)
  let some behind := Text.dropLead? delimiter text | throw .missingOpening
  let behind := dropBreak behind
  match Text.dropLead? delimiter behind with
  | some source => return ([], dropBreak source)
  | none =>
    let some (header, source) := Text.splitFirst? ('\n' :: delimiter) behind
      | throw .missingClosing
    return (Text.dropEndWhile (· == '\r') header, dropBreak source)

/-- The fixture that a header describes. Other fields than the known ones are passed over. -/
def ofTable (t : Toml.Table) (source : String) : Except Toml.Error Fixture := do
  let description ← t.optional? Toml.Value.text "description"
  let filePath ← t.optional? Toml.Value.text "file_path"
  let documentId ← t.optional? Toml.Value.text "document_id"
  let hasErrors ← t.optional? Toml.Value.truth "expect_errors"
  let codes ← t.optional? Toml.Value.texts "expect_codes"
  let blockTypes ← t.optional? Toml.Value.texts "expect_block_types"
  let title ← t.optional? Toml.Value.text "expect_title"
  let id ← t.optional? Toml.Value.text "expect_id"
  return ⟨description, ⟨filePath, documentId⟩, hasErrors, codes, blockTypes, title, id, source⟩

/-- Reads a fixture. -/
def parse (text : String) : Except Error Fixture := do
  let (header, source) ← split text.toList
  let table ← (Toml.parse (String.ofList header)).mapError .toml
  (ofTable table (String.ofList source)).mapError .toml

/-! ## Expectations -/

/-- An expectation that is not met. -/
inductive Problem where
  | hasErrors (expected actual : Bool) (diagnostics : List Diagnostic)
  | codes (expected actual : List String)
  | blockTypes (expected actual : List String)
  | title (expected : String) (actual : Option String)
  | id (expected actual : String)
  deriving DecidableEq, Repr, Inhabited

/-- A heading with what was expected and what was found below it. -/
def mismatch (what expected actual : String) : String :=
  what ++ " mismatch\n  expected: " ++ expected ++ "\n  actual:   " ++ actual

/-- Words in brackets. -/
def bracketed (words : List String) : String := "[" ++ String.intercalate ", " words ++ "]"

/-- Diagnostics on lines of their own. -/
def listing (ds : List Diagnostic) : String :=
  if ds.isEmpty then ""
  else "\n  diagnostics:" ++ String.join (ds.map fun d => "\n    - " ++ d.toText)

/-- The wording of a problem. -/
def Problem.message : Problem → String
  | hasErrors expected actual ds =>
    "expected has_errors = " ++ toString expected ++ ", got " ++ toString actual ++ listing ds
  | codes expected actual =>
    mismatch "diagnostic codes" (bracketed expected) (bracketed actual)
  | blockTypes expected actual => mismatch "block types" (bracketed expected) (bracketed actual)
  | title expected actual => mismatch "title" expected (actual.getD "(none)")
  | id expected actual => mismatch "document id" expected actual

/-- Words in order. -/
def sorted (words : List String) : List String := words.mergeSort (fun a b => decide (a ≤ b))

/-- The problem that arises when an expectation is stated and is not met. -/
def expect {α : Type} [DecidableEq α] (expected : Option α) (actual : α)
    (problem : α → α → Problem) : List Problem :=
  match expected with
  | none => []
  | some e => if e = actual then [] else [problem e actual]

/-- The expectations that the compilation of a fixture does not meet. -/
def problems (f : Fixture) (c : Compilation) : List Problem :=
  expect f.hasErrors c.hasErrors (fun e a => .hasErrors e a c.diagnostics)
  ++ expect (f.codes.map sorted) (sorted (c.diagnostics.map fun d => d.code.name)) .codes
  ++ expect f.blockTypes (c.document.blocks.map (·.kind)) .blockTypes
  ++ (match f.title with
    | none => []
    | some t =>
      if c.document.metadata.title = some t then [] else [.title t c.document.metadata.title])
  ++ expect f.id c.document.id .id

/-- Why the compilation of a fixture is not as expected; nothing when it is. -/
def failure? (f : Fixture) (c : Compilation) : Option String :=
  match f.problems c with
  | [] => none
  | ps => some (String.intercalate "\n" (ps.map Problem.message))

/-- Compiles a fixture without settings. -/
def compile (f : Fixture) : Compilation := Compiler.default.compile f.options f.source

end Fixture

end BlockDoc
