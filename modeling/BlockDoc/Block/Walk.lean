import BlockDoc.Block

/-!
The blocks of a document in depth-first order: a block, then the blocks of its compiled sections. A
path leads to a block by the index of a block and the index of a section in turn.
-/

namespace BlockDoc

/-- The way to a block: indices of blocks and sections in turn, such as `[2, 0, 1]` for block 1 of
section 0 of block 2. -/
abbrev BlockPath := List Nat

mutual

/-- A block at a path and the blocks inside it, with their paths. -/
def Block.located (path : BlockPath) : Block → List (BlockPath × Block)
  | ⟨id, kind, .container ⟨itemsField, contentField, props, some sections⟩, position⟩ =>
    (path, ⟨id, kind, .container ⟨itemsField, contentField, props, some sections⟩, position⟩)
      :: sectionsLocated path 0 sections
  | b => [(path, b)]
  termination_by structural b => b

/-- The blocks in the sections of the block at a path, the first of which has a given index. -/
def sectionsLocated (path : BlockPath) (index : Nat) :
    List (Section Block) → List (BlockPath × Block)
  | [] => []
  | .entry _ (some (.blocks bs)) :: rest =>
    blocksLocated (path ++ [index]) 0 bs ++ sectionsLocated path (index + 1) rest
  | _ :: rest => sectionsLocated path (index + 1) rest
  termination_by structural s => s

/-- The blocks of a sequence below a path, the first of which has a given index. -/
def blocksLocated (path : BlockPath) (index : Nat) : List Block → List (BlockPath × Block)
  | [] => []
  | b :: bs => b.located (path ++ [index]) ++ blocksLocated path (index + 1) bs
  termination_by structural bs => bs

end

/-- All blocks of a document with their paths, depth first. -/
def locatedBlocks (bs : List Block) : List (BlockPath × Block) := blocksLocated [] 0 bs

mutual

/-- A block and the blocks inside it. -/
def Block.walk : Block → List Block
  | ⟨id, kind, .container ⟨itemsField, contentField, props, some sections⟩, position⟩ =>
    ⟨id, kind, .container ⟨itemsField, contentField, props, some sections⟩, position⟩
      :: walkSections sections
  | b => [b]
  termination_by structural b => b

/-- The blocks in sections. -/
def walkSections : List (Section Block) → List Block
  | [] => []
  | .entry _ (some (.blocks bs)) :: rest => allBlocks bs ++ walkSections rest
  | _ :: rest => walkSections rest
  termination_by structural s => s

/-- All blocks of a document, depth first. -/
def allBlocks : List Block → List Block
  | [] => []
  | b :: bs => b.walk ++ allBlocks bs
  termination_by structural bs => bs

end

/-- The ids of all blocks of a document, depth first. -/
def blockIds (bs : List Block) : List String := (allBlocks bs).map (·.id)

/-- The first block with an id. -/
def findBlock? (id : String) (bs : List Block) : Option Block :=
  (allBlocks bs).find? (·.id == id)

/-- The first of a list of new ids, and the ids behind it; the old id when there is none. -/
def takeId (old : String) : List String → String × List String
  | [] => (old, [])
  | id :: rest => (id, rest)

mutual

/-- Gives new ids to a block and the blocks inside it, depth first; the ids that are left come with
the block. -/
def Block.relabel : Block → List String → Block × List String
  | ⟨id, kind, .container ⟨itemsField, contentField, props, some sections⟩, position⟩, ids =>
    let (id, ids) := takeId id ids
    let (sections, ids) := relabelSections sections ids
    (⟨id, kind, .container ⟨itemsField, contentField, props, some sections⟩, position⟩, ids)
  | ⟨id, kind, data, position⟩, ids =>
    let (id, ids) := takeId id ids
    (⟨id, kind, data, position⟩, ids)
  termination_by structural b => b

/-- Gives new ids to the blocks in sections. -/
def relabelSections : List (Section Block) → List String → List (Section Block) × List String
  | [], ids => ([], ids)
  | .entry props (some (.blocks bs)) :: rest, ids =>
    let (bs, ids) := relabelBlocks bs ids
    let (rest, ids) := relabelSections rest ids
    (.entry props (some (.blocks bs)) :: rest, ids)
  | s :: rest, ids =>
    let (rest, ids) := relabelSections rest ids
    (s :: rest, ids)
  termination_by structural s => s

/-- Gives new ids to the blocks of a sequence. -/
def relabelBlocks : List Block → List String → List Block × List String
  | [], ids => ([], ids)
  | b :: bs, ids =>
    let (b, ids) := b.relabel ids
    let (bs, ids) := relabelBlocks bs ids
    (b :: bs, ids)
  termination_by structural bs => bs

end

end BlockDoc
