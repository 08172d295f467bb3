import BlockDoc.Proofs.Compilation.Declarations
import BlockDoc.Proofs.Compilation.Diagnostics

/-!
What becomes of references. Each reference of a document either points at a
block or is explained by a diagnostic of its own at its block, and which of
the two depends on the blocks that have the name it gives.
-/

namespace BlockDoc

namespace Compiler

section References

variable (compiler : Compiler) (options : CompileOptions) (text : String)

theorem position_index {b : Block} (hb : b ∈ allBlocks (compiler.finalBlocks options text)) :
    (compiler.index options text).position? b.id = some b.position := by
  rw [index]
  exact BlockIndex.position_ofClaims (compiler.nodup_finalBlocks options text) _ hb

variable {compiler options text}

/-- A reference of the document points at what its target stands for. -/
theorem resolvedBlockId_of_mem {r : Reference}
    (hr : r ∈ (compiler.compile options text).document.references) :
    r.resolvedBlockId = (resolveTarget (compiler.scope options text).documentId
      (compiler.index options text) r.target).toOption := by
  rw [compile_references] at hr
  obtain ⟨q, hq, rfl⟩ := List.mem_map.mp hr
  exact Reference.resolvedBlockId_resolve (comesFrom_of_mem_unresolved hq).1

theorem mem_blockIds_of_resolved {r : Reference} {id : String}
    (hr : r ∈ (compiler.compile options text).document.references)
    (hid : r.resolvedBlockId = some id) :
    id ∈ blockIds (compiler.finalBlocks options text) := by
  rw [resolvedBlockId_of_mem hr] at hid
  cases htarget : resolveTarget (compiler.scope options text).documentId
      (compiler.index options text) r.target with
  | error cause =>
      rw [htarget] at hid
      exact absurd hid nofun
  | ok found =>
      rw [htarget] at hid
      obtain rfl := Option.some.inj hid
      rcases resolveTarget_eq_ok htarget with hclaimant | ⟨rfl, hcontains⟩
      · exact (compiler.knows_index options text).mem_blockIds hclaimant
      · exact ((compiler.knows_index options text).contains _).mp hcontains

/-- A reference stays unresolved for one of three reasons. -/
theorem unresolved_iff {r : Reference}
    (hr : r ∈ (compiler.compile options text).document.references) :
    r.resolvedBlockId = none ↔
      r.target.isElsewhere (compiler.scope options text).documentId ∨
        2 ≤ ((compiler.index options text).claimants r.target.id).length ∨
        (compiler.index options text).claimants r.target.id = [] ∧
          (compiler.index options text).contains r.target.id = false := by
  rw [← resolveTarget_error_iff, resolvedBlockId_of_mem hr]
  cases resolveTarget (compiler.scope options text).documentId (compiler.index options text)
    r.target <;> simp [Except.toOption]

end References

/-- Each reference of a document names its block, and the block that it points
at if it is resolved; either id stands for one block. The references that stay
unresolved are explained one by one at their blocks. A reference stays
unresolved if and only if its target lies in another document, or several
blocks have the anchor that it names, or nothing has that name. -/
theorem references_resolve_or_explain (compiler : Compiler) (options : CompileOptions)
    (text : String) :
    let result := compiler.compile options text
    let blocks := result.document.blocks
    (∀ r ∈ result.document.references,
      (blockIds blocks).count r.sourceBlockId = 1 ∧
        ∀ id, r.resolvedBlockId = some id → (blockIds blocks).count id = 1) ∧
    List.Forall₂ (fun r d => ∃ b ∈ allBlocks blocks,
        b.id = r.sourceBlockId ∧ d.position = some b.position)
      (result.document.references.filter fun r => r.resolvedBlockId = none)
      (result.diagnostics.filter fun d => d.code.isReference) ∧
    ∀ r ∈ result.document.references, r.resolvedBlockId = none ↔
      (∃ elsewhere, r.target.document = some elsewhere ∧ elsewhere ≠ result.document.id) ∨
        2 ≤ (allBlocks blocks).countP (fun b => b.anchor? = some r.target.id) ∨
        ∀ b ∈ allBlocks blocks, b.anchor? ≠ some r.target.id ∧ b.id ≠ r.target.id := by
  simp only [compile_blocks, compile_id]
  have hnodup := compiler.nodup_finalBlocks options text
  refine ⟨?_, ?_, ?_⟩
  · intro r hr
    obtain ⟨b, hb, hfrom⟩ := comesFrom_of_mem_references hr
    refine ⟨List.count_eq_one_of_mem hnodup (List.mem_map.mpr ⟨b, hb, hfrom.block.symm⟩), ?_⟩
    exact fun id hid => List.count_eq_one_of_mem hnodup (mem_blockIds_of_resolved hr hid)
  · rw [diagnostics_about_references, compile_references]
    refine forall₂_resolve (fun r hr => (comesFrom_of_mem_unresolved hr).1) ?_
    intro r hr cause hcause
    obtain ⟨-, b, hb, hfrom⟩ := comesFrom_of_mem_unresolved hr
    refine ⟨b, hb, hfrom.block.symm, ?_⟩
    rw [hfrom.block, compiler.position_index options text hb]
  · intro r hr
    have hknows := compiler.knows_index options text
    rw [unresolved_iff hr, hknows.length_claimants, hknows.not_named_iff, Target.isElsewhere_iff]

end Compiler

end BlockDoc
