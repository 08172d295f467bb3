import BlockDoc.FrontMatter
import BlockDoc.Translation

/-!
The Markdown inside containers. Each section is compiled like a document of its own, down to a
limit: a container that lies deeper keeps its text and is reported.
-/

namespace BlockDoc

/-- Compiles text in a scope; a function of this type is given for the sections of containers. -/
abbrev TextCompiler := Scope → String → List Block × Findings

/-- Compiles the sections of a block with an index in its sequence, the first of which has a given
index. -/
def compileSections (compileText : TextCompiler) (scope : Scope) (block : Nat) (position : Range)
    (index : Nat) : List (Section Block) → List (Section Block) × Findings
  | [] => ([], .none)
  | s :: rest =>
    let (sections, more) := compileSections compileText scope block position (index + 1) rest
    match s with
    | .entry props (some (.markdown text)) =>
      let (blocks, found) := compileText (scope.enter block index position) text
      (.entry props (some (.blocks blocks)) :: sections, found ++ more)
    | s => (s :: sections, more)

/-- Compiles the sections of a block, if it is a container with text. Without a compiler for its
text it is reported as lying too deep. -/
def compileBlock (compileText : Option TextCompiler) (scope : Scope) (index : Nat) (b : Block) :
    Block × Findings :=
  match b.data with
  | .container ⟨itemsField, contentField, props, some sections⟩ =>
    if sections.any Section.hasMarkdown then
      match compileText with
      | none => (b, .ofCauses b.position [.tooDeep b.kind scope.maxDepth])
      | some compileText =>
        let (sections, found) := compileSections compileText scope index b.position 0 sections
        ({ b with data := .container ⟨itemsField, contentField, props, some sections⟩ }, found)
    else (b, .none)
  | _ => (b, .none)

/-- Compiles the containers of a sequence of blocks, the first of which has a given index. -/
def compileBlocksFrom (compileText : Option TextCompiler) (scope : Scope) (index : Nat) :
    List Block → List Block × Findings
  | [] => ([], .none)
  | b :: bs =>
    let (b, found) := compileBlock compileText scope index b
    let (bs, more) := compileBlocksFrom compileText scope (index + 1) bs
    (b :: bs, found ++ more)

/-- Compiles text, given a compiler for the text of its containers. -/
def compileWith (inner : Option TextCompiler) : TextCompiler := fun scope text =>
  let (blocks, found) := translate scope (Node.parse text)
  let (blocks, more) := compileBlocksFrom inner scope 0 blocks
  (blocks, found ++ more)

/-- The compiler for the text of containers inside which a number of levels less one may follow;
none at the limit. -/
def compilerAt : Nat → Option TextCompiler
  | 0 => none
  | levels + 1 => some (compileWith (compilerAt levels))

/-- The number of containers that may still nest in a scope. -/
def Scope.levelsLeft (s : Scope) : Nat := s.maxDepth - s.depth

/-- Compiles the containers of a sequence of blocks. -/
def compileContainers (scope : Scope) (bs : List Block) : List Block × Findings :=
  compileBlocksFrom (compilerAt scope.levelsLeft) scope 0 bs

/-- Compiles text in a scope. -/
def compileFragment (scope : Scope) (text : String) : List Block × Findings :=
  compileWith (compilerAt scope.levelsLeft) scope text

/-- Validates all containers of a document, nested ones included. -/
def validateContainers (registry : Registry) (bs : List Block) : List Diagnostic :=
  (allBlocks bs).flatMap fun b =>
    if b.isContainer then
      (registry.validate b.kind b.data).map fun v => ⟨.container b.id b.kind v, some b.position⟩
    else []

end BlockDoc
