import BlockDoc.Proofs.Block.Relabel
import BlockDoc.Proofs.Block.UniqueIds
import BlockDoc.Proofs.Data.Association
import Mathlib.Data.List.Nodup

/-!
Final ids. Making the ids of a document final gives every block an id of its
own, changes nothing else, and answers with the final id of each block under
the path of that block.
-/

namespace BlockDoc

theorem blockIds_eq (bs : List Block) :
    (locatedBlocks bs).map (fun x => x.2.id) = blockIds bs := by
  rw [blockIds, ← locatedBlocks_map_snd, List.map_map]
  rfl

theorem finalizeIds_blocks (bs : List Block) :
    (finalizeIds bs).1 = (relabelBlocks bs (uniqueIds (blockIds bs))).1 := by
  rw [finalizeIds, blockIds_eq]

/-- Final ids are the given ids made unique, in the order of the walk. -/
theorem blockIds_finalizeIds (bs : List Block) :
    blockIds (finalizeIds bs).1 = uniqueIds (blockIds bs) := by
  have hlength : (uniqueIds (blockIds bs)).length = (allBlocks bs).length := by
    rw [uniqueIds_length, blockIds, List.length_map]
  rw [finalizeIds_blocks, relabel_ids.2.2 bs _ (Nat.le_of_eq hlength.symm), ← hlength,
    List.take_length]

theorem nodup_blockIds_finalizeIds (bs : List Block) :
    (blockIds (finalizeIds bs).1).Nodup := by
  rw [blockIds_finalizeIds]
  exact uniqueIds_nodup _

theorem withoutIds_finalizeIds (bs : List Block) :
    withoutIds (finalizeIds bs).1 = withoutIds bs := by
  rw [finalizeIds_blocks, relabel_withoutId.2.2]

/-- Up to ids the blocks stay where they are. -/
theorem locatedBlocks_finalizeIds (bs : List Block) :
    (locatedBlocks (finalizeIds bs).1).map (Prod.map id Block.withoutId) =
      (locatedBlocks bs).map (Prod.map id Block.withoutId) := by
  rw [← locatedBlocks_withoutIds, withoutIds_finalizeIds, locatedBlocks_withoutIds]

theorem paths_finalizeIds (bs : List Block) :
    (locatedBlocks (finalizeIds bs).1).map (·.1) = (locatedBlocks bs).map (·.1) := by
  have h := congrArg (List.map (·.1)) (locatedBlocks_finalizeIds bs)
  rw [List.map_map, List.map_map] at h
  exact h

/-- The map from paths to final ids lists the final blocks. -/
theorem finalizeIds_ids (bs : List Block) :
    (finalizeIds bs).2 = (locatedBlocks (finalizeIds bs).1).map fun x => (x.1, x.2.id) := by
  have hids : uniqueIds (blockIds bs) =
      (locatedBlocks (finalizeIds bs).1).map fun x => x.2.id := by
    rw [blockIds_eq, blockIds_finalizeIds]
  calc (finalizeIds bs).2
      = ((locatedBlocks bs).map (·.1)).zip (uniqueIds (blockIds bs)) := by
        rw [finalizeIds, blockIds_eq]
    _ = ((locatedBlocks (finalizeIds bs).1).map (·.1)).zip
          ((locatedBlocks (finalizeIds bs).1).map fun x => x.2.id) := by
        rw [paths_finalizeIds, hids]
    _ = _ := List.zip_map'

theorem nodup_finalizeIds_paths (bs : List Block) : ((finalizeIds bs).2.map (·.1)).Nodup := by
  rw [finalizeIds_ids, List.map_map]
  exact (increasing_locatedBlocks _).nodup

theorem mem_finalizeIds_ids (bs : List Block) (p : BlockPath) (id : String) :
    (p, id) ∈ (finalizeIds bs).2 ↔ ∃ b, blockAt? p (finalizeIds bs).1 = some b ∧ b.id = id := by
  rw [finalizeIds_ids, List.mem_map]
  constructor
  · rintro ⟨⟨q, b⟩, hb, heq⟩
    obtain ⟨rfl, rfl⟩ := Prod.mk.inj heq
    exact ⟨b, (mem_locatedBlocks _ q b).mp hb, rfl⟩
  · rintro ⟨b, hb, rfl⟩
    exact ⟨(p, b), (mem_locatedBlocks _ p b).mpr hb, rfl⟩

/-- Looking up a path gives the final id of the block there. -/
theorem lookup_finalizeIds (bs : List Block) (p : BlockPath) :
    (finalizeIds bs).2.lookup p = (blockAt? p (finalizeIds bs).1).map (·.id) := by
  ext id
  rw [lookup_eq_some_iff (nodup_finalizeIds_paths bs), mem_finalizeIds_ids,
    Option.map_eq_some_iff]

theorem blockAt_withoutIds (p : BlockPath) (bs : List Block) :
    blockAt? p (withoutIds bs) = (blockAt? p bs).map Block.withoutId := by
  ext c
  rw [← mem_locatedBlocks, locatedBlocks_withoutIds, List.mem_map, Option.map_eq_some_iff]
  constructor
  · rintro ⟨⟨q, b⟩, hb, heq⟩
    obtain ⟨rfl, rfl⟩ := Prod.mk.inj heq
    exact ⟨b, (mem_locatedBlocks bs q b).mp hb, rfl⟩
  · rintro ⟨b, hb, rfl⟩
    exact ⟨(p, b), (mem_locatedBlocks bs p b).mpr hb, rfl⟩

/-- At each path stands the block that stood there before, with another id. -/
theorem blockAt_finalizeIds (p : BlockPath) (bs : List Block) :
    (blockAt? p (finalizeIds bs).1).map Block.withoutId =
      (blockAt? p bs).map Block.withoutId := by
  rw [← blockAt_withoutIds, withoutIds_finalizeIds, blockAt_withoutIds]

/-- A block with an id of its own stands at one path. -/
theorem path_of_id {bs : List Block} (h : (blockIds bs).Nodup) {p q : BlockPath} {b c : Block}
    (hb : blockAt? p bs = some b) (hc : blockAt? q bs = some c) (heq : b.id = c.id) : p = q := by
  rw [← blockIds_eq] at h
  have hsame := List.inj_on_of_nodup_map h ((mem_locatedBlocks bs p b).mpr hb)
    ((mem_locatedBlocks bs q c).mpr hc) heq
  exact congrArg (·.1) hsame

/-! ### Finding blocks -/

theorem findBlock_eq_some_iff {bs : List Block} (h : (blockIds bs).Nodup) {id : String}
    {b : Block} : findBlock? id bs = some b ↔ b ∈ allBlocks bs ∧ b.id = id := by
  constructor
  · intro hfind
    exact ⟨List.mem_of_find?_eq_some hfind, by simpa using List.find?_some hfind⟩
  · rintro ⟨hb, rfl⟩
    cases hfind : findBlock? b.id bs with
    | none => simpa using List.find?_eq_none.mp hfind b hb
    | some c =>
        have hid : c.id = b.id := by simpa using List.find?_some hfind
        have hc : c ∈ allBlocks bs := List.mem_of_find?_eq_some hfind
        rw [List.inj_on_of_nodup_map h hc hb hid]

theorem findBlock_eq_none_iff {bs : List Block} {id : String} :
    findBlock? id bs = none ↔ id ∉ blockIds bs := by
  simp [findBlock?, blockIds]

/-! ### The first block with an id -/

/-- The block at a path is the first one of the document that has its id. -/
def FirstWithId (bs : List Block) (p : BlockPath) (b : Block) : Prop :=
  blockAt? p bs = some b ∧ ∀ q c, blockAt? q bs = some c → q < p → c.id ≠ b.id

section FirstWithId

variable {bs : List Block} {p : BlockPath} {b c : Block}

/-- A block is the first one with its id if the id does not come up before in the walk. -/
theorem firstWithId_iff {i : Nat} (hi : (locatedBlocks bs)[i]? = some (p, b)) :
    FirstWithId bs p b ↔ b.id ∉ (blockIds bs).take i := by
  have hb : blockAt? p bs = some b := (mem_locatedBlocks bs p b).mp (List.mem_of_getElem? hi)
  rw [FirstWithId, and_iff_right hb, ← blockIds_eq, ← List.map_take, List.mem_map]
  constructor
  · rintro hnone ⟨⟨q, c⟩, hc, heq⟩
    obtain ⟨hc, hlt⟩ := ((increasing_locatedBlocks bs).mem_take_iff hi).mp hc
    exact hnone q c ((mem_locatedBlocks bs q c).mp hc) hlt heq
  · intro hnone q c hc hlt heq
    exact hnone ⟨(q, c), ((increasing_locatedBlocks bs).mem_take_iff hi).mpr
      ⟨(mem_locatedBlocks bs q c).mpr hc, hlt⟩, heq⟩

/-- Every id of a document has a first block. -/
theorem exists_firstWithId (hb : blockAt? p bs = some b) :
    ∃ q c, FirstWithId bs q c ∧ c.id = b.id := by
  have hfound : ((locatedBlocks bs).find? fun x => x.2.id == b.id).isSome := by
    rw [List.find?_isSome]
    exact ⟨(p, b), (mem_locatedBlocks bs p b).mpr hb, beq_self_eq_true b.id⟩
  obtain ⟨⟨q, c⟩, hfind⟩ := Option.isSome_iff_exists.mp hfound
  obtain ⟨hid, before, behind, hsplit, hbefore⟩ := List.find?_eq_some_iff_append.mp hfind
  have heq : c.id = b.id := by simpa using hid
  have hindex : (locatedBlocks bs)[before.length]? = some (q, c) := by simp [hsplit]
  refine ⟨q, c, (firstWithId_iff hindex).mpr fun hmem => ?_, heq⟩
  rw [← blockIds_eq, hsplit, ← List.map_take, List.take_left, List.mem_map] at hmem
  obtain ⟨x, hx, hsame⟩ := hmem
  simpa [hsame, heq] using hbefore x hx

theorem exists_blockAt_finalizeIds (hb : blockAt? p bs = some b) :
    ∃ c, blockAt? p (finalizeIds bs).1 = some c ∧ c.withoutId = b.withoutId := by
  have h := blockAt_finalizeIds p bs
  rw [hb] at h
  exact Option.map_eq_some_iff.mp h

theorem exists_blockAt_of_finalizeIds (hc : blockAt? p (finalizeIds bs).1 = some c) :
    ∃ b, blockAt? p bs = some b ∧ b.withoutId = c.withoutId := by
  have h := blockAt_finalizeIds p bs
  rw [hc] at h
  exact Option.map_eq_some_iff.mp h.symm

/-- A block keeps its id if and only if it is the first one with it. -/
theorem id_finalizeIds_iff (hb : blockAt? p bs = some b)
    (hc : blockAt? p (finalizeIds bs).1 = some c) : c.id = b.id ↔ FirstWithId bs p b := by
  obtain ⟨i, hi⟩ := List.mem_iff_getElem?.mp ((mem_locatedBlocks bs p b).mpr hb)
  have hpath : ((locatedBlocks bs).map (·.1))[i]? = some p := by simp [hi]
  have hid : (blockIds bs)[i]? = some b.id := by simp [← blockIds_eq, hi]
  -- the id that is handed out at the index of the block is the one under its path
  have hfinal : (uniqueIds (blockIds bs))[i]? = some c.id := by
    obtain ⟨id, hunique⟩ : ∃ id, (uniqueIds (blockIds bs))[i]? = some id := by
      refine ⟨_, List.getElem?_eq_getElem ?_⟩
      rw [uniqueIds_length]
      exact (List.getElem?_eq_some_iff.mp hid).1
    have hmem : (p, id) ∈ (finalizeIds bs).2 := by
      rw [finalizeIds, blockIds_eq]
      exact List.mem_of_getElem? (List.getElem?_zip_eq_some.mpr ⟨hpath, hunique⟩)
    obtain ⟨d, hd, rfl⟩ := (mem_finalizeIds_ids bs p id).mp hmem
    rw [hc, Option.some.injEq] at hd
    rw [hunique, hd]
  rw [firstWithId_iff hi, ← getElem?_uniqueIds hid, hfinal, Option.some.injEq]

/-- An id leads to the block that had it before ids were final if that was the first one. -/
theorem findBlock_finalizeIds_iff (hb : blockAt? p bs = some b)
    (hc : blockAt? p (finalizeIds bs).1 = some c) :
    findBlock? b.id (finalizeIds bs).1 = some c ↔ FirstWithId bs p b := by
  have hmem : c ∈ allBlocks (finalizeIds bs).1 := mem_allBlocks.mpr ⟨p, hc⟩
  rw [findBlock_eq_some_iff (nodup_blockIds_finalizeIds bs), and_iff_right hmem,
    id_finalizeIds_iff hb hc]

/-- The first block with an id is found under it. -/
theorem FirstWithId.findBlock (h : FirstWithId bs p b) :
    findBlock? b.id (finalizeIds bs).1 = blockAt? p (finalizeIds bs).1 := by
  obtain ⟨c, hc, -⟩ := exists_blockAt_finalizeIds h.1
  rw [hc]
  exact (findBlock_finalizeIds_iff h.1 hc).mpr h

end FirstWithId

/-- Final ids are pairwise distinct and nothing but ids changes. The map has
one key for each block, its path, and sends it to the id that the block there
has. The ids are the earlier ones made unique in the order of the walk, and a
final id leads to the block that has it. -/
theorem finalizeIds_identifies_blocks (bs : List Block) :
    let final := (finalizeIds bs).1
    let ids := (finalizeIds bs).2
    (blockIds final).Nodup ∧
      withoutIds final = withoutIds bs ∧
      (ids.map (·.1)).Nodup ∧
      (∀ p id, (p, id) ∈ ids ↔ ∃ b, blockAt? p final = some b ∧ b.id = id) ∧
      (∀ p, (blockAt? p final).map Block.withoutId = (blockAt? p bs).map Block.withoutId) ∧
      blockIds final = uniqueIds (blockIds bs) ∧
      (∀ id b, findBlock? id final = some b ↔ b ∈ allBlocks final ∧ b.id = id) ∧
      ∀ id, findBlock? id final = none ↔ id ∉ blockIds final := by
  refine ⟨nodup_blockIds_finalizeIds bs, withoutIds_finalizeIds bs, nodup_finalizeIds_paths bs,
    mem_finalizeIds_ids bs, fun p => blockAt_finalizeIds p bs, blockIds_finalizeIds bs, ?_, ?_⟩
  · exact fun id b => findBlock_eq_some_iff (nodup_blockIds_finalizeIds bs)
  · exact fun id => findBlock_eq_none_iff

end BlockDoc
