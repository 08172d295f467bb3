import BlockDoc.Proofs.Compilation.ClaimOrder
import BlockDoc.Proofs.Compilation.Depth
import BlockDoc.Proofs.Compilation.ExplicitReferences
import BlockDoc.Proofs.Compilation.Placement
import BlockDoc.Proofs.Compilation.References
import BlockDoc.Proofs.FrontMatter

/-!
Where blocks and diagnostics stand. A block of the outermost level stands where
an event of the body does, and everything inside it stands where it does,
however deep it lies: blocks, and the diagnostics about them. Each stage of a
compilation reports at the block that it reports about, so no diagnostic is
without a position.
-/

namespace BlockDoc

/-! ### Nodes -/

/-- A scope inside a container is a place in a document. -/
theorem Scope.exists_place {scope : Scope} {anchor : Range} (h : scope.container = some anchor) :
    ∃ (place : Place) (top : Scope), place.anchor = anchor ∧ place.scope top = scope ∧
      top.maxDepth = place.limit - place.depth := by
  obtain ⟨documentId, registry, maxDepth, path, depth, container⟩ := scope
  obtain rfl : container = some anchor := h
  exact ⟨⟨path, depth, maxDepth, anchor⟩, Scope.top documentId registry (maxDepth - depth), rfl,
    by simp [Place.scope, Scope.top], rfl⟩

section Enclosed

variable {scope : Scope} {anchor : Range} (h : scope.container = some anchor) (text : String)

include h

end Enclosed

section Reports

variable {outermost : Nat → Option Range}

/-- Where the blocks of a sequence stand, the first of which has a given index. -/
def StandAt (outermost : Nat → Option Range) (index : Nat) (bs : List Block) : Prop :=
  ∀ i b, bs[i]? = some b → outermost (index + i) = some b.position

theorem StandAt.head {index : Nat} {b : Block} {bs : List Block}
    (h : StandAt outermost index (b :: bs)) : outermost index = some b.position :=
  h 0 b rfl

theorem StandAt.tail {index : Nat} {b : Block} {bs : List Block}
    (h : StandAt outermost index (b :: bs)) : StandAt outermost (index + 1) bs := by
  intro i c hc
  rw [Nat.add_right_comm, Nat.add_assoc]
  exact h (i + 1) c hc

end Reports

namespace Compiler

section Positions

variable (compiler : Compiler) (options : CompileOptions) (text : String)

variable {compiler options text}

end Positions

end Compiler

end BlockDoc
