import BlockDoc.Proofs.Compilation.Claims
import BlockDoc.Proofs.Resolution

/-!
What becomes of declarations. A path that is recorded while a text is drafted
leads to the block whose data declare the anchor or the reference, and the
final id of that block is known under the path. So every claim and every
declared reference ends up with the block that made it.
-/

namespace BlockDoc

namespace Compiler

/-- A draft at a path of the text, and the block of the document there. -/
structure StandsAt (compiler : Compiler) (options : CompileOptions) (text : String)
    (p : BlockPath) (d : Draft) (b : Block) : Prop where
  written : (p, d) ∈ compiler.authored text
  block : blockAt? p (compiler.finalBlocks options text) = some b
  shell : b.shell = d.shell
  id : (compiler.finalIds options text).lookup p = some b.id

section Declarations

variable (compiler : Compiler) (options : CompileOptions) (text : String)

theorem exists_standsAt {p : BlockPath} {d : Draft} (h : (p, d) ∈ compiler.authored text) :
    ∃ b, compiler.StandsAt options text p d b := by
  obtain ⟨b, hb, hshell⟩ := compiler.exists_block_of_authored options text h
  refine ⟨b, h, hb, hshell, ?_⟩
  rw [lookup_finalIds, hb]
  rfl

variable {compiler options text}

theorem StandsAt.anchor {p : BlockPath} {d : Draft} {b : Block}
    (h : compiler.StandsAt options text p d b) : b.anchor? = d.data.anchor? :=
  BlockData.anchor_of_shell (congrArg (·.2) h.shell)

theorem StandsAt.mem {p : BlockPath} {d : Draft} {b : Block}
    (h : compiler.StandsAt options text p d b) :
    b ∈ allBlocks (compiler.finalBlocks options text) :=
  mem_allBlocks.mpr ⟨p, h.block⟩

theorem mem_claims {anchor : String} {p : BlockPath} :
    (anchor, p) ∈ (compiler.drafted options text).2.claims ↔
      ∃ d, (p, d) ∈ compiler.authored text ∧ d.data.anchor? = some anchor := by
  have hclaims : (compiler.drafted options text).2.claims =
      (declarations (compiler.scope options text).documentId (compiler.recorded text)).claims :=
    congrArg (fun f => f.claims) (compiler.drafted_declared options text)
  rw [hclaims, ← mem_valuesOf, valuesOf_claims, mem_claimingPaths]
  simp only [(compiler.recorded_perm text).mem_iff]

theorem mem_references {r : PendingReference} :
    r ∈ (compiler.drafted options text).2.references ↔
      ∃ p d declared, (p, d) ∈ compiler.authored text ∧ declared ∈ d.refs ∧
        r = Draft.pending (provisionalId (compiler.scope options text).documentId d.kind d.data)
          d.data.anchor? p declared := by
  have hreferences : (compiler.drafted options text).2.references =
      (declarations (compiler.scope options text).documentId (compiler.recorded text)).references :=
    congrArg (fun f => f.references) (compiler.drafted_declared options text)
  rw [hreferences, declarations, List.mem_flatMap]
  constructor
  · rintro ⟨⟨p, d⟩, hd, hr⟩
    obtain ⟨declared, hdeclared, rfl⟩ := List.mem_map.mp hr
    exact ⟨p, d, declared, (compiler.recorded_perm text).mem_iff.mp hd, hdeclared, rfl⟩
  · rintro ⟨p, d, declared, hd, hdeclared, rfl⟩
    exact ⟨(p, d), (compiler.recorded_perm text).mem_iff.mpr hd,
      List.mem_map.mpr ⟨declared, hdeclared, rfl⟩⟩

/-- A declared reference gets the final id and the anchor of the block that declares it. -/
theorem StandsAt.settle_pending {p : BlockPath} {d : Draft} {b : Block}
    (h : compiler.StandsAt options text p d b) (id : String) (declared : DeclaredRef) :
    settle (compiler.finalIds options text) (Draft.pending id d.data.anchor? p declared) =
      { (Draft.pending id d.data.anchor? p declared).reference with
        sourceBlockId := b.id
        sourceAnchor := some (b.anchor?.getD b.id) } := by
  rw [h.anchor, settle, show (Draft.pending id d.data.anchor? p declared).source = p from rfl, h.id]
  rfl

/-! ### References -/

theorem comesFrom_of_mem_unresolved {r : Reference} (h : r ∈ compiler.unresolved options text) :
    r.resolvedBlockId = none ∧
      ∃ b ∈ allBlocks (compiler.finalBlocks options text), r.ComesFrom b := by
  rcases List.mem_append.mp h with h | h
  · obtain ⟨q, hq, rfl⟩ := List.mem_map.mp h
    obtain ⟨p, d, declared, hd, -, rfl⟩ := mem_references.mp hq
    obtain ⟨b, hb⟩ := compiler.exists_standsAt options text hd
    rw [hb.settle_pending]
    exact ⟨rfl, b, hb.mem, rfl, rfl⟩
  · obtain ⟨b, hb, hr⟩ := List.mem_flatMap.mp h
    obtain ⟨hfrom, -, hnone⟩ := inlineReferences_spec hr
    exact ⟨hnone, b, hb, hfrom⟩

theorem comesFrom_of_mem_references {r : Reference}
    (h : r ∈ (compiler.compile options text).document.references) :
    ∃ b ∈ allBlocks (compiler.finalBlocks options text), r.ComesFrom b := by
  rw [compile_references] at h
  obtain ⟨r, hr, rfl⟩ := List.mem_map.mp h
  obtain ⟨-, b, hb, hfrom⟩ := comesFrom_of_mem_unresolved hr
  rw [Reference.resolve_eq]
  exact ⟨b, hb, hfrom.block, hfrom.anchor⟩

variable (compiler options text)

/-- The explicit references of a document are the declared ones, in their order. -/
theorem explicit_references :
    (compiler.compile options text).document.references.filter (fun r => r.kind = .explicit) =
      (compiler.drafted options text).2.references.map fun q =>
        ((settle (compiler.finalIds options text) q).resolve
          (compiler.scope options text).documentId (compiler.index options text)).1 := by
  have hexplicit : ∀ q ∈ (compiler.drafted options text).2.references,
      (settle (compiler.finalIds options text) q).kind = .explicit := by
    intro q hq
    obtain ⟨p, d, declared, hd, -, rfl⟩ := mem_references.mp hq
    obtain ⟨b, hb⟩ := compiler.exists_standsAt options text hd
    rw [hb.settle_pending]
    rfl
  have hinline : ∀ r ∈ extractReferences (compiler.finalBlocks options text),
      r.kind = .inline := by
    intro r hr
    obtain ⟨b, -, hr⟩ := List.mem_flatMap.mp hr
    exact (inlineReferences_spec hr).2.1
  -- the filter keeps all declared references and none of the links behind them
  rw [compile_references, unresolved, List.map_append, List.filter_append, List.map_map,
    List.filter_eq_self.mpr, List.filter_eq_nil_iff.mpr, List.append_nil]
  · rfl
  · intro r hr
    obtain ⟨q, hq, rfl⟩ := List.mem_map.mp hr
    rw [Reference.resolve_eq]
    simp [hinline q hq]
  · intro r hr
    obtain ⟨q, hq, rfl⟩ := List.mem_map.mp hr
    rw [Function.comp_apply, Reference.resolve_eq]
    simp [hexplicit q hq]

end Declarations

/-- Every recorded path leads to the block whose data declare what was
recorded, and is known with the final id of that block. No claim of an anchor
is lost, the explicit references are the declared ones with the final ids of
their blocks, and every reference names its block and the anchor of it. -/
theorem declarations_reach_their_blocks (compiler : Compiler) (options : CompileOptions)
    (text : String) :
    let found := (compiler.drafted options text).2
    let document := (compiler.compile options text).document
    (∀ anchor p, (anchor, p) ∈ found.claims →
      ∃ d b, compiler.StandsAt options text p d b ∧ d.data.anchor? = some anchor) ∧
    (∀ q ∈ found.references, ∃ d b, compiler.StandsAt options text q.source d b ∧
      ∃ declared ∈ d.refs, q.reference.target = declared.target ∧
        q.reference.relation = declared.relation ∧ q.reference.label = declared.label) ∧
    (∀ anchor, ((compiler.index options text).claimants anchor).Perm
      (((allBlocks document.blocks).filter fun b => b.anchor? = some anchor).map (·.id))) ∧
    List.Forall₂ (fun q r => ∃ b, blockAt? q.source document.blocks = some b ∧
        r = { q.reference with
          sourceBlockId := b.id
          sourceAnchor := some (b.anchor?.getD b.id)
          resolvedBlockId := r.resolvedBlockId })
      found.references (document.references.filter fun r => r.kind = .explicit) ∧
    ∀ r ∈ document.references, ∃ b ∈ allBlocks document.blocks,
      r.sourceBlockId = b.id ∧ r.sourceAnchor = some (b.anchor?.getD b.id) := by
  simp only [compile_blocks]
  refine ⟨?_, ?_, compiler.claimants_perm options text, ?_, ?_⟩
  · intro anchor p hclaim
    obtain ⟨d, hd, hanchor⟩ := mem_claims.mp hclaim
    obtain ⟨b, hb⟩ := compiler.exists_standsAt options text hd
    exact ⟨d, b, hb, hanchor⟩
  · intro q hq
    obtain ⟨p, d, declared, hd, hdeclared, rfl⟩ := mem_references.mp hq
    obtain ⟨b, hb⟩ := compiler.exists_standsAt options text hd
    exact ⟨d, b, hb, declared, hdeclared, rfl, rfl, rfl⟩
  · rw [explicit_references, List.forall₂_map_right_iff, List.forall₂_same]
    intro q hq
    obtain ⟨p, d, declared, hd, -, rfl⟩ := mem_references.mp hq
    obtain ⟨b, hb⟩ := compiler.exists_standsAt options text hd
    refine ⟨b, hb.block, ?_⟩
    rw [hb.settle_pending, Reference.resolve_eq]
  · intro r hr
    obtain ⟨b, hb, hfrom⟩ := comesFrom_of_mem_references hr
    exact ⟨b, hb, hfrom.block, hfrom.anchor⟩

end Compiler

end BlockDoc
