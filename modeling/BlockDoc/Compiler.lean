import BlockDoc.Config
import BlockDoc.Fragment
import BlockDoc.FrontMatter.Fields
import BlockDoc.Resolution

/-!
Compiling a Markdown text to a document: blocks with final ids, metadata and references. Compiling
never fails; what is wrong is reported in diagnostics beside the document.
-/

namespace BlockDoc

/-- A compiled document. -/
structure Document where
  id : String
  metadata : Metadata
  blocks : List Block
  references : List Reference
  layout : Layout
  deriving Inhabited

namespace Document

/-- The version of the form in which documents are written. -/
def version : String := "1.0.0"

/-- A document as a record. -/
def toValue (d : Document) : Value :=
  .obj [("version", .str version), ("id", .str d.id), ("metadata", d.metadata.toValue),
    ("blocks", .arr (blockValues d.blocks)), ("references", .arr (d.references.map (·.toValue))),
    ("layout", d.layout.toValue)]

end Document

/-- What a text is compiled with besides the text. -/
structure CompileOptions where
  filePath : Option String
  documentId : Option String
  deriving DecidableEq, Repr, Inhabited

/-- A document and what is wrong with it. -/
structure Compilation where
  document : Document
  diagnostics : List Diagnostic
  deriving Inhabited

namespace Compilation

/-- The number of errors. -/
def errorCount (c : Compilation) : Nat := c.diagnostics.countP Diagnostic.isError

/-- Whether there is an error. -/
def hasErrors (c : Compilation) : Bool := c.diagnostics.any Diagnostic.isError

end Compilation

/-- A compiler for documents. -/
structure Compiler where
  registry : Registry
  maxDepth : Nat
  deriving Inhabited

namespace Compiler

/-- The compiler with given settings. -/
def ofConfig (c : Config) : Compiler := ⟨c.registry, c.maxContainerDepth⟩

/-- The compiler without settings. -/
def default : Compiler := ofConfig .default

/-- A declared reference when the ids of all blocks are final. A block without an anchor is known by
its id. -/
def settle (finals : List (BlockPath × String)) (p : PendingReference) : Reference :=
  match finals.lookup p.source with
  | some id =>
    { p.reference with
      sourceBlockId := id
      sourceAnchor := some (p.reference.sourceAnchor.getD id) }
  | none => p.reference

/-- The ids of the blocks that claim each anchor. -/
def claimedIds (finals : List (BlockPath × String)) (claims : List (String × BlockPath)) :
    List (String × List String) :=
  (groupByKey claims).map fun (anchor, paths) => (anchor, paths.filterMap (finals.lookup ·))

/-- Compiles a text. -/
def compile (compiler : Compiler) (options : CompileOptions) (text : String) : Compilation :=
  let nodes := Node.parse text
  let (facts, frontDiagnostics) := FrontMatter.read nodes
  let id := documentId options.documentId facts.id options.filePath text
  let scope := Scope.top id compiler.registry compiler.maxDepth
  let (blocks, found) := translate scope nodes
  let (blocks, more) := compileContainers scope blocks
  let found := found ++ more
  let containerDiagnostics := validateContainers compiler.registry blocks
  let metadata :=
    { facts.metadata with sourceFile := facts.metadata.sourceFile.or options.filePath }.infer blocks
  let (blocks, finals) := finalizeIds blocks
  let index := BlockIndex.ofClaims blocks (claimedIds finals found.claims)
  let (references, referenceDiagnostics) :=
    resolveReferences id index (found.references.map (settle finals) ++ extractReferences blocks)
  { document := ⟨id, metadata, blocks, references, facts.layout⟩
    diagnostics := frontDiagnostics ++ found.diagnostics ++ containerDiagnostics
      ++ index.duplicateAnchors ++ referenceDiagnostics }

end Compiler

end BlockDoc
