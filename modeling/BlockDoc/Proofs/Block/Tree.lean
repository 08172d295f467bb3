import BlockDoc.Proofs.Block.Path

/-!
Blocks as a tree. Every block has a list of sections and every section a list
of blocks, mostly empty ones, so each walk over a document has one equation
for blocks, one for sections and one for sequences, and one induction
principle serves all of them.
-/

namespace BlockDoc

/-- The compiled blocks of a section. -/
def Section.blocks {β : Type} : Section β → List β
  | .entry _ (some (.blocks bs)) => bs
  | _ => []

/-- The sections of the data of a block; only a container has any. -/
def BlockData.sections {β : Type} : BlockData β → List (Section β)
  | .container c => c.sectionList
  | _ => []

/-- The fields of the data of a block; only components and containers have any. -/
def BlockData.props? {β : Type} : BlockData β → Option Fields
  | .component props => some props
  | .container c => some c.props
  | _ => none

theorem BlockData.sections_eq_nil {β : Type} {data : BlockData β} (h : data.props? = none) :
    data.sections = [] := by
  cases data with
  | container c => exact absurd h nofun
  | _ => rfl

/-- The type of the blocks with some data, unless they are components. -/
def BlockData.plainKind? {β : Type} : BlockData β → Option String
  | .heading _ _ _ => some "heading"
  | .paragraph _ => some "paragraph"
  | .image _ _ _ => some "image"
  | .list _ => some "list"
  | .code _ _ _ => some "code"
  | .quote _ => some "blockquote"
  | .table _ => some "table"
  | .thematicBreak => some "thematic-break"
  | .html _ => some "html"
  | .container _ => none
  | .component _ => none

theorem BlockData.props_of_plainKind {β : Type} {data : BlockData β} {kind : String}
    (h : data.plainKind? = some kind) : data.props? = none := by
  cases data with
  | component props => exact absurd h nofun
  | container c => exact absurd h nofun
  | _ => rfl

/-- The sections of a block. -/
def Block.sections (b : Block) : List (Section Block) := b.data.sections

/-- Whether a section of the block holds text that is not compiled. -/
def Block.hasMarkdown (b : Block) : Bool := b.sections.any Section.hasMarkdown

/-! ### One equation for each kind of tree -/

theorem Block.walk_eq (b : Block) : b.walk = b :: walkSections b.sections := by
  obtain ⟨id, kind, data, position⟩ := b
  cases data with
  | container c => obtain ⟨_, _, _, _ | sections⟩ := c <;> rfl
  | _ => rfl

theorem walkSections_cons (s : Section Block) (rest : List (Section Block)) :
    walkSections (s :: rest) = allBlocks s.blocks ++ walkSections rest := by
  cases s with
  | malformed v => rfl
  | entry props content => obtain _ | _ | _ | _ := content <;> rfl

theorem Block.located_eq (path : BlockPath) (b : Block) :
    b.located path = (path, b) :: sectionsLocated path 0 b.sections := by
  obtain ⟨id, kind, data, position⟩ := b
  cases data with
  | container c => obtain ⟨_, _, _, _ | sections⟩ := c <;> rfl
  | _ => rfl

theorem sectionsLocated_cons (path : BlockPath) (index : Nat) (s : Section Block)
    (rest : List (Section Block)) :
    sectionsLocated path index (s :: rest) =
      blocksLocated (path ++ [index]) 0 s.blocks ++
        sectionsLocated path (index + 1) rest := by
  cases s with
  | malformed v => rfl
  | entry props content => obtain _ | _ | _ | _ := content <;> rfl

/-- Induction over documents: a block follows from its sections, sections
follow from their blocks. -/
theorem Block.tree_induction {P : Block → Prop} {Q : List (Section Block) → Prop}
    {R : List Block → Prop} (block : ∀ b, Q b.sections → P b) (no_section : Q [])
    (sections : ∀ s rest, R s.blocks → Q rest → Q (s :: rest)) (no_block : R [])
    (blocks : ∀ b bs, P b → R bs → R (b :: bs)) :
    (∀ b, P b) ∧ (∀ ss, Q ss) ∧ ∀ bs, R bs := by
  apply Block.walk.mutual_induct
  case case1 =>
    intro id kind itemsField contentField props ss position h
    exact block _ h
  case case2 =>
    intro b hleaf
    apply block
    obtain ⟨id, kind, data, position⟩ := b
    cases data with
    | container c =>
        obtain ⟨itemsField, contentField, props, _ | ss⟩ := c
        · exact no_section
        · exact (hleaf _ _ _ _ _ _ _ rfl).elim
    | _ => exact no_section
  case case3 => exact no_section
  case case4 =>
    intro props bs rest hbs hrest
    exact sections _ _ hbs hrest
  case case5 =>
    intro s rest hleaf hrest
    apply sections _ _ _ hrest
    cases s with
    | malformed v => exact no_block
    | entry props content =>
        obtain _ | _ | bs | _ := content
        · exact no_block
        · exact no_block
        · exact (hleaf _ _ rfl).elim
        · exact no_block
  case case6 => exact no_block
  case case7 => exact fun b bs hb hbs => blocks b bs hb hbs

/-- Induction over blocks with the assumption for all blocks directly inside. -/
theorem Block.induction {P : Block → Prop}
    (h : ∀ b : Block, (∀ s ∈ b.sections, ∀ c ∈ s.blocks, P c) → P b) (b : Block) : P b := by
  refine (Block.tree_induction (Q := fun ss => ∀ s ∈ ss, ∀ c ∈ s.blocks, P c)
    (R := fun bs => ∀ c ∈ bs, P c) h ?_ ?_ ?_ ?_).1 b
  · exact fun s hs => absurd hs List.not_mem_nil
  · intro s rest hblocks hrest t ht
    rcases List.mem_cons.mp ht with rfl | ht
    · exact hblocks
    · exact hrest t ht
  · exact fun c hc => absurd hc List.not_mem_nil
  · intro c bs hc hbs d hd
    rcases List.mem_cons.mp hd with rfl | hd
    · exact hc
    · exact hbs d hd

/-! ### Walking with and without paths -/

theorem blocksLocated_map_snd (path : BlockPath) (index : Nat) (bs : List Block) :
    (blocksLocated path index bs).map (·.2) = allBlocks bs := by
  refine (Block.tree_induction
    (P := fun b => ∀ path, (b.located path).map (·.2) = b.walk)
    (Q := fun ss => ∀ path index, (sectionsLocated path index ss).map (·.2) = walkSections ss)
    (R := fun bs => ∀ path index, (blocksLocated path index bs).map (·.2) = allBlocks bs)
    ?_ ?_ ?_ ?_ ?_).2.2 bs path index
  · intro b hsections path
    rw [Block.located_eq, Block.walk_eq, List.map_cons, hsections]
  · intro path index
    rfl
  · intro s rest hblocks hrest path index
    rw [sectionsLocated_cons, walkSections_cons, List.map_append, hblocks, hrest]
  · intro path index
    rfl
  · intro b bs hb hbs path index
    rw [blocksLocated, allBlocks, List.map_append, hb, hbs]

/-- The blocks that come with paths are the blocks of the plain walk. -/
theorem locatedBlocks_map_snd (bs : List Block) :
    (locatedBlocks bs).map (·.2) = allBlocks bs :=
  blocksLocated_map_snd [] 0 bs

theorem located_below :
    (∀ (b : Block) (path : BlockPath), b.located path = path.below (b.located [])) ∧
      (∀ (ss : List (Section Block)) (path : BlockPath) (index : Nat),
        sectionsLocated path index ss =
          path.below (BlockPath.indexed (fun s => locatedBlocks s.blocks) index ss)) ∧
      ∀ (bs : List Block) (path : BlockPath) (index : Nat),
        blocksLocated path index bs =
          path.below (BlockPath.indexed (fun b => b.located []) index bs) := by
  apply Block.tree_induction
  · intro b hsections path
    rw [Block.located_eq, Block.located_eq [], hsections, hsections []]
    simp
  · intro path index
    rfl
  · intro s rest hblocks hrest path index
    have hlocated : locatedBlocks s.blocks =
        BlockPath.indexed (fun b => b.located []) 0 s.blocks := by
      rw [locatedBlocks, hblocks, BlockPath.empty_below]
    rw [sectionsLocated_cons, hblocks, hrest, BlockPath.indexed_cons, hlocated,
      BlockPath.below_append, BlockPath.below_below]
  · intro path index
    rfl
  · intro b bs hb hbs path index
    rw [blocksLocated, hb, hbs, BlockPath.indexed_cons, BlockPath.below_append,
      BlockPath.below_below]

/-- The blocks of a document, each below its index in the sequence. -/
theorem locatedBlocks_eq (bs : List Block) :
    locatedBlocks bs = BlockPath.indexed (fun b => b.located []) 0 bs := by
  rw [locatedBlocks, located_below.2.2, BlockPath.empty_below]

/-- A block and the blocks inside it, each below the index of its section. -/
theorem Block.located_nil (b : Block) :
    b.located [] =
      ([], b) :: BlockPath.indexed (fun s => locatedBlocks s.blocks) 0 b.sections := by
  rw [Block.located_eq, located_below.2.1, BlockPath.empty_below]

/-- The blocks of a document come in the order of their paths. -/
theorem increasing_locatedBlocks (bs : List Block) : BlockPath.Increasing (locatedBlocks bs) := by
  have hblock : ∀ b : Block, BlockPath.Increasing (b.located []) := by
    apply Block.induction
    intro b hinside
    rw [Block.located_nil]
    refine BlockPath.increasing_cons_indexed b (fun s hs => ?_) 0
    rw [locatedBlocks_eq]
    exact BlockPath.increasing_indexed (hinside s hs) 0
  rw [locatedBlocks_eq]
  exact BlockPath.increasing_indexed (fun b _ => hblock b) 0

/-! ### Following a path -/

mutual

/-- The block that the rest of a path leads to from a block. -/
def Block.descend? : BlockPath → Block → Option Block
  | [], b => some b
  | part :: rest, b => b.sections[part]?.bind fun s => blockAt? rest s.blocks

/-- The block at a path. -/
def blockAt? : BlockPath → List Block → Option Block
  | [], _ => none
  | index :: rest, bs => bs[index]?.bind fun b => b.descend? rest

end

theorem mem_locatedBlocks_of_descend {bs : List Block}
    (h : ∀ b ∈ bs, ∀ p c, (p, c) ∈ b.located [] ↔ b.descend? p = some c) (p : BlockPath)
    (c : Block) : (p, c) ∈ locatedBlocks bs ↔ blockAt? p bs = some c := by
  rw [locatedBlocks_eq, BlockPath.mem_indexed]
  cases p with
  | nil => simp [blockAt?]
  | cons index rest =>
      simp only [blockAt?, Option.bind_eq_some_iff, Nat.zero_add, List.cons.injEq]
      constructor
      · rintro ⟨i, b, rest', ⟨rfl, rfl⟩, hb, hc⟩
        exact ⟨b, hb, (h b (List.mem_of_getElem? hb) _ _).mp hc⟩
      · rintro ⟨b, hb, hc⟩
        exact ⟨index, b, rest, ⟨rfl, rfl⟩, hb, (h b (List.mem_of_getElem? hb) _ _).mpr hc⟩

theorem Block.mem_located_nil (b : Block) (p : BlockPath) (c : Block) :
    (p, c) ∈ b.located [] ↔ b.descend? p = some c := by
  induction b using Block.induction generalizing p c with
  | h b hinside =>
      rw [Block.located_nil, List.mem_cons, BlockPath.mem_indexed]
      cases p with
      | nil => simp [Block.descend?, eq_comm]
      | cons part rest =>
          simp only [Block.descend?, Option.bind_eq_some_iff, Nat.zero_add, List.cons.injEq]
          constructor
          · rintro (h | ⟨i, s, rest', ⟨rfl, rfl⟩, hs, hc⟩)
            · simp at h
            · exact ⟨s, hs, (mem_locatedBlocks_of_descend
                (hinside s (List.mem_of_getElem? hs)) _ _).mp hc⟩
          · rintro ⟨s, hs, hc⟩
            exact Or.inr ⟨part, s, rest, ⟨rfl, rfl⟩, hs, (mem_locatedBlocks_of_descend
              (hinside s (List.mem_of_getElem? hs)) _ _).mpr hc⟩

/-- The walk with paths lists each block under the path that leads to it, and
no other path. -/
theorem mem_locatedBlocks (bs : List Block) (p : BlockPath) (b : Block) :
    (p, b) ∈ locatedBlocks bs ↔ blockAt? p bs = some b :=
  mem_locatedBlocks_of_descend (fun b _ => b.mem_located_nil) p b

theorem mem_allBlocks {bs : List Block} {b : Block} :
    b ∈ allBlocks bs ↔ ∃ p, blockAt? p bs = some b := by
  rw [← locatedBlocks_map_snd]
  constructor
  · intro h
    obtain ⟨⟨p, c⟩, hc, rfl⟩ := List.mem_map.mp h
    exact ⟨p, (mem_locatedBlocks bs p c).mp hc⟩
  · rintro ⟨p, h⟩
    exact List.mem_map.mpr ⟨(p, b), (mem_locatedBlocks bs p b).mpr h, rfl⟩

end BlockDoc
