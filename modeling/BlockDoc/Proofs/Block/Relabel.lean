import BlockDoc.Proofs.Block.Tree

/-!
Giving new ids to the blocks of a document. The ids are handed out depth
first, one to each block, and nothing but ids changes: the document without
ids is the same before and after.
-/

namespace BlockDoc

/-- A section with other compiled blocks; without any it stays as it is. -/
def Section.withBlocks {β : Type} (bs : List β) : Section β → Section β
  | .entry props (some (.blocks _)) => .entry props (some (.blocks bs))
  | s => s

/-- The data of a block with other sections; without any they stay as they are. -/
def BlockData.withSections {β : Type} (ss : List (Section β)) : BlockData β → BlockData β
  | .container ⟨itemsField, contentField, props, some _⟩ =>
    .container ⟨itemsField, contentField, props, some ss⟩
  | data => data

mutual

/-- A block whose id, and the ids of the blocks inside, are empty. -/
def Block.withoutId : Block → Block
  | ⟨_, kind, .container ⟨itemsField, contentField, props, some sections⟩, position⟩ =>
    ⟨"", kind, .container ⟨itemsField, contentField, props, some (sectionsWithoutIds sections)⟩,
      position⟩
  | ⟨_, kind, data, position⟩ => ⟨"", kind, data, position⟩
  termination_by structural b => b

/-- Sections whose blocks have empty ids. -/
def sectionsWithoutIds : List (Section Block) → List (Section Block)
  | [] => []
  | .entry props (some (.blocks bs)) :: rest =>
    .entry props (some (.blocks (withoutIds bs))) :: sectionsWithoutIds rest
  | s :: rest => s :: sectionsWithoutIds rest
  termination_by structural s => s

/-- Blocks with empty ids. -/
def withoutIds : List Block → List Block
  | [] => []
  | b :: bs => b.withoutId :: withoutIds bs
  termination_by structural bs => bs

end

/-- A section whose blocks have empty ids. -/
def Section.withoutIds (s : Section Block) : Section Block :=
  s.withBlocks (BlockDoc.withoutIds s.blocks)

/-! ### Equations -/

theorem Section.blocks_withBlocks {β : Type} (s : Section β) {bs : List β}
    (h : bs.length = s.blocks.length) : (s.withBlocks bs).blocks = bs := by
  cases s with
  | malformed v => exact (List.length_eq_zero_iff.mp h).symm
  | entry props content =>
      obtain _ | _ | _ | _ := content
      case some.blocks => rfl
      all_goals exact (List.length_eq_zero_iff.mp h).symm

theorem Section.withBlocks_withBlocks {β : Type} (s : Section β) (bs bs' : List β) :
    (s.withBlocks bs).withBlocks bs' = s.withBlocks bs' := by
  cases s with
  | malformed v => rfl
  | entry props content => obtain _ | _ | _ | _ := content <;> rfl

theorem Section.withBlocks_nil {β : Type} (s : Section β) (h : s.blocks = []) :
    s.withBlocks [] = s := by
  cases s with
  | malformed v => rfl
  | entry props content =>
      obtain _ | _ | bs | _ := content
      case some.blocks =>
        obtain rfl : bs = [] := h
        rfl
      all_goals rfl

theorem BlockData.sections_withSections {β : Type} (data : BlockData β) {ss : List (Section β)}
    (h : ss.length = data.sections.length) : (data.withSections ss).sections = ss := by
  cases data with
  | container c =>
      obtain ⟨itemsField, contentField, props, _ | sections⟩ := c
      · exact (List.length_eq_zero_iff.mp h).symm
      · rfl
  | _ => exact (List.length_eq_zero_iff.mp h).symm

theorem BlockData.withSections_withSections {β : Type} (data : BlockData β)
    (ss ss' : List (Section β)) :
    (data.withSections ss).withSections ss' = data.withSections ss' := by
  cases data with
  | container c => obtain ⟨_, _, _, _ | sections⟩ := c <;> rfl
  | _ => rfl

theorem BlockData.withSections_sections {β : Type} (data : BlockData β) :
    data.withSections data.sections = data := by
  cases data with
  | container c => obtain ⟨_, _, _, _ | sections⟩ := c <;> rfl
  | _ => rfl

theorem Block.withoutId_eq (b : Block) :
    b.withoutId = ⟨"", b.kind, b.data.withSections (sectionsWithoutIds b.sections), b.position⟩ := by
  obtain ⟨id, kind, data, position⟩ := b
  cases data with
  | container c => obtain ⟨_, _, _, _ | sections⟩ := c <;> rfl
  | _ => rfl

@[simp] theorem Block.kind_withoutId (b : Block) : b.withoutId.kind = b.kind := by
  rw [Block.withoutId_eq]

@[simp] theorem Block.position_withoutId (b : Block) : b.withoutId.position = b.position := by
  rw [Block.withoutId_eq]

theorem sectionsWithoutIds_eq (ss : List (Section Block)) :
    sectionsWithoutIds ss = ss.map Section.withoutIds := by
  induction ss with
  | nil => rfl
  | cons s rest ih =>
      rw [List.map_cons, ← ih]
      cases s with
      | malformed v => rfl
      | entry props content => obtain _ | _ | _ | _ := content <;> rfl

theorem withoutIds_eq (bs : List Block) : withoutIds bs = bs.map Block.withoutId := by
  induction bs with
  | nil => rfl
  | cons b bs ih => rw [withoutIds, ih, List.map_cons]

theorem Block.relabel_eq (b : Block) (ids : List String) :
    b.relabel ids =
      (⟨(takeId b.id ids).1, b.kind,
        b.data.withSections (relabelSections b.sections (takeId b.id ids).2).1, b.position⟩,
      (relabelSections b.sections (takeId b.id ids).2).2) := by
  obtain ⟨id, kind, data, position⟩ := b
  cases data with
  | container c => obtain ⟨_, _, _, _ | sections⟩ := c <;> rfl
  | _ => rfl

theorem relabelSections_cons (s : Section Block) (rest : List (Section Block))
    (ids : List String) :
    relabelSections (s :: rest) ids =
      (s.withBlocks (relabelBlocks s.blocks ids).1 ::
        (relabelSections rest (relabelBlocks s.blocks ids).2).1,
      (relabelSections rest (relabelBlocks s.blocks ids).2).2) := by
  cases s with
  | malformed v => rfl
  | entry props content => obtain _ | _ | _ | _ := content <;> rfl

theorem relabelBlocks_cons (b : Block) (bs : List Block) (ids : List String) :
    relabelBlocks (b :: bs) ids =
      ((b.relabel ids).1 :: (relabelBlocks bs (b.relabel ids).2).1,
        (relabelBlocks bs (b.relabel ids).2).2) := rfl

theorem relabelBlocks_length (bs : List Block) (ids : List String) :
    (relabelBlocks bs ids).1.length = bs.length := by
  induction bs generalizing ids with
  | nil => rfl
  | cons b bs ih => rw [relabelBlocks_cons, List.length_cons, ih, List.length_cons]

theorem relabelSections_length (ss : List (Section Block)) (ids : List String) :
    (relabelSections ss ids).1.length = ss.length := by
  induction ss generalizing ids with
  | nil => rfl
  | cons s rest ih => rw [relabelSections_cons, List.length_cons, ih, List.length_cons]

theorem Block.sections_relabel (b : Block) (ids : List String) :
    (b.relabel ids).1.sections = (relabelSections b.sections (takeId b.id ids).2).1 := by
  rw [Block.relabel_eq]
  exact b.data.sections_withSections (relabelSections_length b.sections _)

/-! ### Which ids the blocks get -/

theorem takeId_snd (old : String) (ids : List String) : (takeId old ids).2 = ids.drop 1 := by
  cases ids <;> rfl

theorem takeId_fst (old : String) {ids : List String} (h : 0 < ids.length) :
    [(takeId old ids).1] = ids.take 1 := by
  cases ids with
  | nil => simp at h
  | cons id rest => rfl

/-- Each block takes one id from the front. -/
theorem relabel_snd :
    (∀ (b : Block) (ids : List String), (b.relabel ids).2 = ids.drop b.walk.length) ∧
      (∀ (ss : List (Section Block)) (ids : List String),
        (relabelSections ss ids).2 = ids.drop (walkSections ss).length) ∧
      ∀ (bs : List Block) (ids : List String),
        (relabelBlocks bs ids).2 = ids.drop (allBlocks bs).length := by
  apply Block.tree_induction
  · intro b hsections ids
    rw [Block.relabel_eq, hsections, takeId_snd, List.drop_drop, Block.walk_eq,
      List.length_cons, Nat.add_comm]
  · exact fun ids => rfl
  · intro s rest hblocks hrest ids
    rw [relabelSections_cons, hrest, hblocks, List.drop_drop, walkSections_cons,
      List.length_append]
  · exact fun ids => rfl
  · intro b bs hb hbs ids
    rw [relabelBlocks_cons, hbs, hb, List.drop_drop, allBlocks, List.length_append]

/-- The blocks get the ids in the order of the walk. -/
theorem relabel_ids :
    (∀ (b : Block) (ids : List String), b.walk.length ≤ ids.length →
      (b.relabel ids).1.walk.map (·.id) = ids.take b.walk.length) ∧
      (∀ (ss : List (Section Block)) (ids : List String), (walkSections ss).length ≤ ids.length →
        (walkSections (relabelSections ss ids).1).map (·.id) =
          ids.take (walkSections ss).length) ∧
      ∀ (bs : List Block) (ids : List String), (allBlocks bs).length ≤ ids.length →
        blockIds (relabelBlocks bs ids).1 = ids.take (allBlocks bs).length := by
  apply Block.tree_induction
  · intro b hsections ids h
    rw [Block.walk_eq, List.length_cons] at h
    have hinside : (walkSections b.sections).length ≤ (ids.drop 1).length := by
      rw [List.length_drop]
      omega
    rw [Block.walk_eq, Block.sections_relabel, List.map_cons, takeId_snd, hsections _ hinside,
      Block.walk_eq, List.length_cons, Nat.add_comm, List.take_add,
      ← takeId_fst b.id (by omega), Block.relabel_eq]
    rfl
  · exact fun ids _ => rfl
  · intro s rest hblocks hrest ids h
    rw [walkSections_cons, List.length_append] at h
    have hbehind : (walkSections rest).length ≤
        (ids.drop (allBlocks s.blocks).length).length := by
      rw [List.length_drop]
      omega
    have hcompiled : (s.withBlocks (relabelBlocks s.blocks ids).1).blocks =
        (relabelBlocks s.blocks ids).1 :=
      s.blocks_withBlocks (relabelBlocks_length s.blocks ids)
    rw [relabelSections_cons, walkSections_cons, hcompiled, List.map_append,
      relabel_snd.2.2, hrest _ hbehind, walkSections_cons, List.length_append, List.take_add]
    exact congrArg (· ++ _) (hblocks ids (by omega))
  · exact fun ids _ => rfl
  · intro b bs hb hbs ids h
    rw [allBlocks, List.length_append] at h
    have hbehind : (allBlocks bs).length ≤ (ids.drop b.walk.length).length := by
      rw [List.length_drop]
      omega
    have htail := hbs _ hbehind
    rw [blockIds] at htail ⊢
    rw [relabelBlocks_cons, allBlocks, List.map_append, relabel_snd.1, htail,
      hb ids (by omega), allBlocks, List.length_append, List.take_add]

/-- Nothing but ids changes. -/
theorem relabel_withoutId :
    (∀ (b : Block) (ids : List String), (b.relabel ids).1.withoutId = b.withoutId) ∧
      (∀ (ss : List (Section Block)) (ids : List String),
        sectionsWithoutIds (relabelSections ss ids).1 = sectionsWithoutIds ss) ∧
      ∀ (bs : List Block) (ids : List String),
        withoutIds (relabelBlocks bs ids).1 = withoutIds bs := by
  apply Block.tree_induction
  · intro b hsections ids
    rw [Block.withoutId_eq, Block.sections_relabel, hsections, Block.withoutId_eq,
      Block.relabel_eq, BlockData.withSections_withSections]
  · exact fun ids => rfl
  · intro s rest hblocks hrest ids
    have hcompiled : (s.withBlocks (relabelBlocks s.blocks ids).1).blocks =
        (relabelBlocks s.blocks ids).1 :=
      s.blocks_withBlocks (relabelBlocks_length s.blocks ids)
    rw [relabelSections_cons, sectionsWithoutIds_eq, List.map_cons, ← sectionsWithoutIds_eq,
      hrest, Section.withoutIds, hcompiled, hblocks, Section.withBlocks_withBlocks,
      sectionsWithoutIds_eq, sectionsWithoutIds_eq, List.map_cons, Section.withoutIds]
  · exact fun ids => rfl
  · intro b bs hb hbs ids
    rw [relabelBlocks_cons, withoutIds, hb, hbs, withoutIds]

/-! ### What the ids do not matter for -/

theorem Block.sections_withoutId (b : Block) :
    b.withoutId.sections = b.sections.map Section.withoutIds := by
  rw [Block.withoutId_eq, ← sectionsWithoutIds_eq]
  refine b.data.sections_withSections ?_
  rw [sectionsWithoutIds_eq, List.length_map]
  rfl

theorem locatedBlocks_withoutIds (bs : List Block) :
    locatedBlocks (withoutIds bs) = (locatedBlocks bs).map (Prod.map id Block.withoutId) := by
  have hsequence : ∀ bs : List Block,
      (∀ b ∈ bs, b.withoutId.located [] = (b.located []).map (Prod.map id Block.withoutId)) →
      locatedBlocks (withoutIds bs) = (locatedBlocks bs).map (Prod.map id Block.withoutId) := by
    intro bs hbs
    rw [locatedBlocks_eq, locatedBlocks_eq, withoutIds_eq, BlockPath.indexed_map,
      BlockPath.map_indexed]
    exact BlockPath.indexed_congr hbs 0
  have hblock : ∀ b : Block,
      b.withoutId.located [] = (b.located []).map (Prod.map id Block.withoutId) := by
    apply Block.induction
    intro b hinside
    rw [Block.located_nil, Block.located_nil, Block.sections_withoutId, BlockPath.indexed_map,
      List.map_cons, BlockPath.map_indexed]
    refine congrArg (([], b.withoutId) :: ·) (BlockPath.indexed_congr (fun s hs => ?_) 0)
    have hlength : (withoutIds s.blocks).length = s.blocks.length := by
      rw [withoutIds_eq, List.length_map]
    rw [Section.withoutIds, s.blocks_withBlocks hlength]
    exact hsequence s.blocks (hinside s hs)
  exact hsequence bs fun b _ => hblock b

theorem allBlocks_withoutIds (bs : List Block) :
    allBlocks (withoutIds bs) = (allBlocks bs).map Block.withoutId := by
  rw [← locatedBlocks_map_snd, locatedBlocks_withoutIds, List.map_map, ← locatedBlocks_map_snd,
    List.map_map]
  rfl

/-- A section without blocks is the same with any ids. -/
theorem Section.eq_of_withoutIds {s s' : Section Block} (hs : s.blocks = [])
    (h : s'.withoutIds = s.withoutIds) : s' = s := by
  have hself : s.withoutIds = s := by
    rw [Section.withoutIds, hs]
    exact s.withBlocks_nil hs
  rw [hself] at h
  cases s' with
  | malformed v => exact h
  | entry props content =>
      obtain _ | _ | bs | _ := content
      case some.blocks =>
        have hnil : BlockDoc.withoutIds bs = [] := by
          rw [← hs, ← h]
          rfl
        rw [withoutIds_eq, List.map_eq_nil_iff] at hnil
        rw [← h, hnil]
        rfl
      all_goals exact h

/-- Compiled sections stay compiled with any ids. -/
theorem Section.exists_of_withoutIds {s : Section Block} {props : Fields} {bs : List Block}
    (h : s.withoutIds = (entry props (some (.blocks bs))).withoutIds) :
    ∃ bs', s = entry props (some (.blocks bs')) ∧
      BlockDoc.withoutIds bs' = BlockDoc.withoutIds bs := by
  cases s with
  | malformed v => simp [withoutIds, withBlocks, blocks] at h
  | entry props' content =>
      obtain _ | _ | bs' | _ := content
      case some.blocks =>
        obtain ⟨rfl, hbs⟩ : props' = props ∧ BlockDoc.withoutIds bs' = BlockDoc.withoutIds bs := by
          simpa [withoutIds, withBlocks, blocks] using h
        exact ⟨bs', rfl, hbs⟩
      all_goals simp [withoutIds, withBlocks, blocks] at h

theorem Block.exists_section_of_withoutId {b c : Block} (h : b.withoutId = c.withoutId) {i : Nat}
    {s : Section Block} (hs : b.sections[i]? = some s) :
    ∃ s', c.sections[i]? = some s' ∧ s'.withoutIds = s.withoutIds := by
  have hsections := congrArg (fun b : Block => b.sections[i]?) h
  simp only [Block.sections_withoutId, List.getElem?_map, hs, Option.map_some] at hsections
  exact Option.map_eq_some_iff.mp hsections.symm

/-- The data of a block without blocks inside are the same with any ids. -/
theorem Block.data_eq_of_withoutId {b c : Block} (h : b.withoutId = c.withoutId)
    (hfresh : ∀ s ∈ b.sections, s.blocks = []) : c.data = b.data := by
  have hsections : c.sections = b.sections := by
    refine List.ext_getElem? fun i => ?_
    cases hs : b.sections[i]? with
    | some s =>
        obtain ⟨s', hs', hsame⟩ := Block.exists_section_of_withoutId h hs
        rw [hs', Section.eq_of_withoutIds (hfresh s (List.mem_of_getElem? hs)) hsame]
    | none =>
        cases hs' : c.sections[i]? with
        | none => rfl
        | some s' =>
            obtain ⟨s, hs₁, -⟩ := Block.exists_section_of_withoutId h.symm hs'
            exact absurd (hs.symm.trans hs₁) nofun
  have hdata := congrArg Block.data h
  rw [Block.withoutId_eq, Block.withoutId_eq] at hdata
  have hwith := congrArg (BlockData.withSections b.sections) hdata
  simp only [BlockData.withSections_withSections] at hwith
  rw [← b.data.withSections_sections, ← c.data.withSections_sections]
  exact (congrArg (fun ss => c.data.withSections ss) hsections).trans hwith.symm

theorem Section.hasMarkdown_withoutIds (s : Section Block) :
    s.withoutIds.hasMarkdown = s.hasMarkdown := by
  cases s with
  | malformed v => rfl
  | entry props content => obtain _ | _ | _ | _ := content <;> rfl

@[simp] theorem Block.hasMarkdown_withoutId (b : Block) :
    b.withoutId.hasMarkdown = b.hasMarkdown := by
  rw [Block.hasMarkdown, Block.sections_withoutId, List.any_map]
  exact congrArg b.sections.any (funext Section.hasMarkdown_withoutIds)

end BlockDoc
