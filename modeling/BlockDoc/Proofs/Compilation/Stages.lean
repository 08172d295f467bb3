import BlockDoc.Compiler
import BlockDoc.Proofs.Compilation.Record
import BlockDoc.Proofs.Data.Association

/-!
The stages of a compilation. A text is drafted, the ids of its blocks are made
final, the claims of anchors are indexed and the references are resolved. The
authored drafts lead through all of this: each one stands at its path in the
document, and the final id of the block there is known under that path.
-/

namespace BlockDoc

namespace Compiler

/-- The scope in which a text is compiled. -/
def scope (compiler : Compiler) (options : CompileOptions) (text : String) : Scope :=
  Scope.top
    (documentId options.documentId (FrontMatter.read (Node.parse text)).1.id options.filePath text)
    compiler.registry compiler.maxDepth

/-- The blocks of a text before their ids are final, and what is found in them. -/
def drafted (compiler : Compiler) (options : CompileOptions) (text : String) :
    List Block × Findings :=
  compileFragment (compiler.scope options text) text

/-- The final id of each block under the path of the block. -/
def finalIds (compiler : Compiler) (options : CompileOptions) (text : String) :
    List (BlockPath × String) :=
  (finalizeIds (compiler.drafted options text).1).2

/-- The blocks of the document. -/
def finalBlocks (compiler : Compiler) (options : CompileOptions) (text : String) : List Block :=
  (finalizeIds (compiler.drafted options text).1).1

/-- The index in which references are resolved. -/
def index (compiler : Compiler) (options : CompileOptions) (text : String) : BlockIndex :=
  BlockIndex.ofClaims (compiler.finalBlocks options text)
    (claimedIds (compiler.finalIds options text) (compiler.drafted options text).2.claims)

/-- The references of the document before they are resolved. -/
def unresolved (compiler : Compiler) (options : CompileOptions) (text : String) :
    List Reference :=
  (compiler.drafted options text).2.references.map (settle (compiler.finalIds options text))
    ++ extractReferences (compiler.finalBlocks options text)

/-- The drafts of a text in the order in which they are written. -/
def authored (compiler : Compiler) (text : String) : List (BlockPath × Draft) :=
  BlockDoc.authored compiler.registry (compiler.maxDepth + 1) text

/-- The drafts of a text in the order in which they are recorded. -/
def recorded (compiler : Compiler) (text : String) : List (BlockPath × Draft) :=
  BlockDoc.recorded compiler.registry (compiler.maxDepth + 1) text

section Stages

variable (compiler : Compiler) (options : CompileOptions) (text : String)

/-! ### The result -/

/-- A compilation is made of its stages. -/
theorem compile_eq : compiler.compile options text =
    let id := (compiler.scope options text).documentId
    let front := FrontMatter.read (Node.parse text)
    let drafted := compiler.drafted options text
    let resolved := resolveReferences id (compiler.index options text)
      (compiler.unresolved options text)
    let metadata := { front.1.metadata with
      sourceFile := front.1.metadata.sourceFile.or options.filePath }
    { document :=
        ⟨id, metadata.infer drafted.1, compiler.finalBlocks options text, resolved.1, front.1.layout⟩
      diagnostics := front.2 ++ drafted.2.diagnostics
        ++ validateContainers compiler.registry drafted.1
        ++ (compiler.index options text).duplicateAnchors ++ resolved.2 } := by
  unfold compile index unresolved finalBlocks finalIds drafted compileFragment
  rw [compileWith_eq]
  unfold scope compileContainers
  -- otherwise the nodes are parsed to compare both sides
  generalize Node.parse text = nodes
  rfl

theorem compile_id : (compiler.compile options text).document.id =
    (compiler.scope options text).documentId := by
  rw [compile_eq]

theorem compile_blocks : (compiler.compile options text).document.blocks =
    compiler.finalBlocks options text := by
  rw [compile_eq]

theorem compile_references : (compiler.compile options text).document.references =
    (compiler.unresolved options text).map fun r =>
      (r.resolve (compiler.scope options text).documentId (compiler.index options text)).1 := by
  simp only [compile_eq, resolveReferences]

theorem compile_diagnostics : (compiler.compile options text).diagnostics =
    (FrontMatter.read (Node.parse text)).2 ++ (compiler.drafted options text).2.diagnostics
      ++ validateContainers compiler.registry (compiler.drafted options text).1
      ++ (compiler.index options text).duplicateAnchors
      ++ (compiler.unresolved options text).flatMap fun r =>
        (r.resolve (compiler.scope options text).documentId (compiler.index options text)).2 := by
  simp only [compile_eq, resolveReferences]

/-! ### Drafts and blocks -/

theorem recorded_perm : (compiler.recorded text).Perm (compiler.authored text) :=
  BlockDoc.recorded_perm _ _ _

theorem drafted_records : Records compiler.registry
    (compileWith (compilerAt (compiler.scope options text).levelsLeft))
    (BlockDoc.authored compiler.registry (compiler.maxDepth + 1))
    (BlockDoc.recorded compiler.registry (compiler.maxDepth + 1)) :=
  compileWith_records (compilerAt_records compiler.registry compiler.maxDepth)

/-- What is found is what the recorded drafts declare. -/
theorem drafted_declared : (compiler.drafted options text).2.declared =
    declarations (compiler.scope options text).documentId (compiler.recorded text) := by
  have h := (compiler.drafted_records options text).found (compiler.scope options text) rfl text
  rw [show (compiler.scope options text).path = [] from rfl, BlockPath.empty_below] at h
  exact h

/-- The blocks of the document have the shells of the authored drafts. -/
theorem finalBlocks_shells :
    (locatedBlocks (compiler.finalBlocks options text)).map (Prod.map id Block.shell) =
      (compiler.authored text).map (Prod.map id Draft.shell) := by
  rw [finalBlocks, shells_finalizeIds]
  exact (compiler.drafted_records options text).blocks (compiler.scope options text) rfl text

theorem map_shell_finalBlocks : (allBlocks (compiler.finalBlocks options text)).map Block.shell =
    (compiler.authored text).map fun x => x.2.shell := by
  have hshells := congrArg (List.map Prod.snd) (compiler.finalBlocks_shells options text)
  rw [← locatedBlocks_map_snd]
  simpa [Function.comp_def] using hshells

theorem nodup_finalBlocks : (blockIds (compiler.finalBlocks options text)).Nodup :=
  nodup_blockIds_finalizeIds _

theorem lookup_finalIds (p : BlockPath) : (compiler.finalIds options text).lookup p =
    (blockAt? p (compiler.finalBlocks options text)).map (·.id) :=
  lookup_finalizeIds _ p

/-- A draft stands at its path in the document. -/
theorem exists_block_of_authored {p : BlockPath} {d : Draft} (h : (p, d) ∈ compiler.authored text) :
    ∃ b, blockAt? p (compiler.finalBlocks options text) = some b ∧ b.shell = d.shell := by
  have hmem : (p, d.shell) ∈ (locatedBlocks (compiler.finalBlocks options text)).map
      (Prod.map id Block.shell) := by
    rw [finalBlocks_shells]
    exact List.mem_map.mpr ⟨(p, d), h, rfl⟩
  obtain ⟨⟨q, b⟩, hb, heq⟩ := List.mem_map.mp hmem
  obtain ⟨rfl, hshell⟩ := Prod.mk.inj heq
  exact ⟨b, (mem_locatedBlocks _ _ b).mp hb, hshell⟩

theorem increasing_authored : BlockPath.Increasing (compiler.authored text) :=
  BlockDoc.increasing_authored _ _ _

end Stages

end Compiler

end BlockDoc
