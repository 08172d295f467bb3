import BlockDoc.Position
import BlockDoc.Violation
import BlockDoc.Yaml.Decode

/-!
Diagnostics: what is wrong with a document and where. A diagnostic stores its cause; the part of the
compiler that reports it, its severity, its code and its wording follow from the cause.
-/

namespace BlockDoc

/-- How grave a diagnostic is. -/
inductive Severity where
  | error
  | warning
  | info
  deriving DecidableEq, Repr, Inhabited

/-- The part of the compiler that reports a diagnostic. -/
inductive Phase where
  | frontmatter
  | translator
  | container
  | references
  deriving DecidableEq, Repr, Inhabited

/-- The kinds of diagnostics. -/
inductive Code where
  | frontmatterParseError
  | yamlParseError
  | schemaValidationError
  | invalidRef
  | recursionDepthExceeded
  | duplicateGlyphId
  | unresolvedReference
  | ambiguousReference
  | crossDocumentReference
  deriving DecidableEq, Repr, Inhabited

namespace Severity

/-- The word for a severity. -/
def name : Severity → String
  | error => "error"
  | warning => "warning"
  | info => "info"

/-- The word for a severity in a report with excerpts of the text. -/
def heading : Severity → String
  | error => "error"
  | warning => "warning"
  | info => "note"

end Severity

namespace Phase

/-- The word for a phase. -/
def name : Phase → String
  | frontmatter => "frontmatter"
  | translator => "translator"
  | container => "container"
  | references => "references"

end Phase

namespace Code

/-- The name of a code. -/
def name : Code → String
  | frontmatterParseError => "FRONTMATTER_PARSE_ERROR"
  | yamlParseError => "YAML_PARSE_ERROR"
  | schemaValidationError => "SCHEMA_VALIDATION_ERROR"
  | invalidRef => "INVALID_REF"
  | recursionDepthExceeded => "RECURSION_DEPTH_EXCEEDED"
  | duplicateGlyphId => "DUPLICATE_GLYPH_ID"
  | unresolvedReference => "UNRESOLVED_REFERENCE"
  | ambiguousReference => "AMBIGUOUS_REFERENCE"
  | crossDocumentReference => "CROSS_DOCUMENT_REFERENCE"

end Code

/-- Why a diagnostic is reported. -/
inductive Cause where
  | frontMatterYaml (e : Yaml.Error)
  | componentYaml (kind : String) (e : Yaml.Error)
  /-- The body of a component is no mapping. -/
  | noMapping (kind : String)
  /-- The anchor of a component is no text, or a blank one. -/
  | blankAnchor (kind : String)
  | component (kind : String) (v : Violation)
  /-- The declared references of a component are no array. -/
  | refsNoArray (kind : String)
  | refWithoutTarget (kind : String) (index : Nat)
  /-- A container lies too deep for its sections to be compiled. -/
  | tooDeep (kind : String) (limit : Nat)
  | container (id kind : String) (v : Violation)
  | duplicateAnchor (anchor : String) (claimants : List String)
  | crossDocument (id document : String)
  | unresolved (id : String)
  | ambiguous (id : String) (claimants : List String)
  /-- A cause outside the compiler. -/
  | stated (phase : Phase) (severity : Severity) (code : Code) (message : String)
  deriving DecidableEq, Repr, Inhabited

namespace Cause

/-- The part of the compiler that finds the cause. -/
def phase : Cause → Phase
  | frontMatterYaml _ => .frontmatter
  | componentYaml .. | noMapping _ | blankAnchor _ | component .. | refsNoArray _
  | refWithoutTarget .. => .translator
  | tooDeep .. | container .. => .container
  | duplicateAnchor .. | crossDocument .. | unresolved _ | ambiguous .. => .references
  | stated phase .. => phase

/-- How grave the cause is. -/
def severity : Cause → Severity
  | refsNoArray _ | refWithoutTarget .. => .warning
  | crossDocument .. => .info
  | stated _ severity .. => severity
  | _ => .error

/-- The code of the cause. -/
def code : Cause → Code
  | frontMatterYaml _ => .frontmatterParseError
  | componentYaml .. => .yamlParseError
  | noMapping _ | blankAnchor _ | component .. | container .. => .schemaValidationError
  | refsNoArray _ | refWithoutTarget .. => .invalidRef
  | tooDeep .. => .recursionDepthExceeded
  | duplicateAnchor .. => .duplicateGlyphId
  | crossDocument .. => .crossDocumentReference
  | unresolved _ => .unresolvedReference
  | ambiguous .. => .ambiguousReference
  | stated _ _ code _ => code

/-- A text in quotation marks. -/
def quoted (s : String) : String := "\"" ++ s ++ "\""

/-- Ids with commas between them. -/
def listed (ids : List String) : String := String.intercalate ", " ids

/-- The wording of the cause. -/
def message : Cause → String
  | frontMatterYaml e => "invalid frontmatter YAML: " ++ e.message
  | componentYaml kind e => kind ++ " block: invalid YAML: " ++ e.message
  | noMapping kind => kind ++ " block: expected a YAML mapping"
  | blankAnchor kind => kind ++ " block: glyph-id: expected a non-empty string"
  | component kind v => kind ++ " block: " ++ v.toText
  | refsNoArray kind => kind ++ " block: refs must be an array"
  | refWithoutTarget kind index =>
    kind ++ " block: refs[" ++ toString index ++ "] has no usable target"
  | tooDeep kind limit => kind ++ " block nested deeper than the limit of " ++ toString limit
  | container id kind v => "block " ++ id ++ " (" ++ kind ++ "): " ++ v.toText
  | duplicateAnchor anchor claimants =>
    "glyph-id " ++ quoted anchor ++ " is declared by " ++ toString claimants.length
      ++ " blocks: " ++ listed claimants
  | crossDocument id document =>
    "reference to " ++ quoted id ++ " in document " ++ quoted document
      ++ " is left for cross-document linking"
  | unresolved id => "reference target " ++ quoted id ++ " not found"
  | ambiguous id claimants =>
    "reference target " ++ quoted id ++ " is declared by several blocks: " ++ listed claimants
  | stated _ _ _ message => message

end Cause

/-- A report about a document. -/
structure Diagnostic where
  cause : Cause
  position : Option Range
  deriving DecidableEq, Repr, Inhabited

namespace Diagnostic

/-- Whether the document cannot be used as it is. -/
def isError (d : Diagnostic) : Bool := d.cause.severity == .error

/-- The code of a diagnostic. -/
def code (d : Diagnostic) : Code := d.cause.code

/-- The severity and the code of a diagnostic in one word. -/
def label (severity : String) (code : Code) : String := severity ++ "[" ++ code.name ++ "]"

/-- A diagnostic on one line, with the line and the column where it begins. -/
def toText (d : Diagnostic) : String :=
  let place := match d.position with
    | some r => " (" ++ toString r.start.line ++ ":" ++ toString r.start.column ++ ")"
    | none => ""
  label d.cause.severity.name d.code ++ ": " ++ d.cause.message ++ place

/-- The first line of a diagnostic in a report with excerpts of the text. -/
def headline (d : Diagnostic) : String :=
  label d.cause.severity.heading d.code ++ ": " ++ d.cause.message

/-- A diagnostic as a record. -/
def toValue (d : Diagnostic) : Value :=
  .obj ([("source", .str d.cause.phase.name), ("severity", .str d.cause.severity.name),
    ("code", .str d.code.name), ("message", .str d.cause.message)]
    ++ Value.optional "position" (d.position.map Range.toValue))

end Diagnostic

end BlockDoc
