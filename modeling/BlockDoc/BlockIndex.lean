import BlockDoc.Block.Walk
import BlockDoc.Diagnostic
import BlockDoc.Scope

/-!
The blocks of a document by id, and the anchors they claim.
-/

namespace BlockDoc

/-- The positions of the blocks of a document, and the ids of the blocks that claim each anchor. Of
blocks with equal ids the first entry counts; anchors are sorted. -/
structure BlockIndex where
  positions : List (String × Range)
  claims : List (String × List String)
  deriving Inhabited

namespace BlockIndex

/-- The index of blocks with given claims. Of blocks with equal ids the last one counts. -/
def ofClaims (bs : List Block) (claims : List (String × List String)) : BlockIndex :=
  ⟨((allBlocks bs).map fun b => (b.id, b.position)).reverse, claims⟩

/-- The index of blocks with the claims that are found in their data. -/
def ofBlocks (bs : List Block) : BlockIndex :=
  ofClaims bs (groupByKey ((allBlocks bs).filterMap fun b => b.anchor?.map fun a => (a, b.id)))

/-- The position of a block. -/
def position? (id : String) (index : BlockIndex) : Option Range := index.positions.lookup id

/-- Whether a block has an id. -/
def contains (id : String) (index : BlockIndex) : Bool := (index.position? id).isSome

/-- The ids of the blocks that claim an anchor. -/
def claimants (anchor : String) (index : BlockIndex) : List String :=
  (index.claims.lookup anchor).getD []

/-- One diagnostic for each anchor that several blocks claim, at the position of the second one. -/
def duplicateAnchors (index : BlockIndex) : List Diagnostic :=
  index.claims.filterMap fun (anchor, ids) =>
    match ids with
    | _ :: second :: _ => some ⟨.duplicateAnchor anchor ids, index.position? second⟩
    | _ => none

end BlockIndex

end BlockDoc
