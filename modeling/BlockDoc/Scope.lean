import BlockDoc.Block.Walk
import BlockDoc.Diagnostic
import BlockDoc.Reference
import BlockDoc.Schema

/-!
Where in a document text is compiled, and what is found there. A text inside a container is
compiled one level deeper; its blocks and its diagnostics have the position of the outermost
container, because their own text is no part of the document's.
-/

namespace BlockDoc

/-- The surroundings of a sequence of blocks. -/
structure Scope where
  documentId : String
  registry : Registry
  /-- How many containers may lie around text that is compiled. -/
  maxDepth : Nat
  /-- The path of the section in which the sequence stands. -/
  path : BlockPath
  /-- The number of containers around the sequence. -/
  depth : Nat
  /-- The position of the outermost container around the sequence. -/
  container : Option Range
  deriving Inhabited

namespace Scope

/-- The outermost level of a document. -/
def top (documentId : String) (registry : Registry) (maxDepth : Nat) : Scope :=
  ⟨documentId, registry, maxDepth, [], 0, none⟩

/-- The path of the block with an index in the sequence. -/
def pathOf (index : Nat) (s : Scope) : BlockPath := s.path ++ [index]

/-- The position that is recorded for something that stands at a position of the text. -/
def positionOf (position : Range) (s : Scope) : Range := s.container.getD position

/-- The scope inside a section of a block that stands at a position. -/
def enter (block index : Nat) (position : Range) (s : Scope) : Scope :=
  { s with
    path := s.path ++ [block, index]
    depth := s.depth + 1
    container := some (s.positionOf position) }

end Scope

/-- A declared reference and the path of the block that declares it. -/
structure PendingReference where
  source : BlockPath
  reference : Reference
  deriving DecidableEq, Repr, Inhabited

/-- What is found while text is compiled, in the order in which it is found. -/
structure Findings where
  diagnostics : List Diagnostic
  references : List PendingReference
  /-- Anchors and the paths of the blocks that claim them. -/
  claims : List (String × BlockPath)
  deriving DecidableEq, Repr, Inhabited

namespace Findings

/-- Nothing. -/
def none : Findings := ⟨[], [], []⟩

/-- Earlier findings, then later ones. -/
def append (a b : Findings) : Findings :=
  ⟨a.diagnostics ++ b.diagnostics, a.references ++ b.references, a.claims ++ b.claims⟩

instance : Append Findings := ⟨append⟩

theorem append_eq (a b : Findings) : a ++ b =
    ⟨a.diagnostics ++ b.diagnostics, a.references ++ b.references, a.claims ++ b.claims⟩ := rfl

@[simp] theorem diagnostics_append (a b : Findings) :
    (a ++ b).diagnostics = a.diagnostics ++ b.diagnostics := rfl

@[simp] theorem references_append (a b : Findings) :
    (a ++ b).references = a.references ++ b.references := rfl

@[simp] theorem claims_append (a b : Findings) : (a ++ b).claims = a.claims ++ b.claims := rfl

@[simp] theorem none_append (a : Findings) : none ++ a = a := rfl

@[simp] theorem append_none (a : Findings) : a ++ none = a := by
  simp [append_eq, none]

theorem append_assoc (a b c : Findings) : a ++ b ++ c = a ++ (b ++ c) := by
  simp [append_eq]

/-- One diagnostic for each of some causes, all at one position. -/
def ofCauses (position : Range) (causes : List Cause) : Findings :=
  ⟨causes.map fun c => ⟨c, some position⟩, [], []⟩

end Findings

/-- Adds a value under a key to lists that are sorted by their keys. -/
def addToGroup {α : Type} (key : String) (x : α) : List (String × List α) → List (String × List α)
  | [] => [(key, [x])]
  | (k, xs) :: rest =>
    if key < k then (key, [x]) :: (k, xs) :: rest
    else if key = k then (k, xs ++ [x]) :: rest
    else (k, xs) :: addToGroup key x rest

/-- Pairs grouped by their keys: keys are sorted, and values keep their order. -/
def groupByKey {α : Type} (pairs : List (String × α)) : List (String × List α) :=
  pairs.foldl (fun groups pair => addToGroup pair.1 pair.2 groups) []

end BlockDoc
