import BlockDoc.Proofs.Block.Tree
import BlockDoc.Proofs.Data.Association
import BlockDoc.BlockIndex

/-!
Indexes of blocks: what they know of a block by its id, and which blocks they
list under an anchor. An index is determined by the claimants of each anchor,
and so are its diagnostics.
-/

namespace BlockDoc

namespace BlockIndex

@[simp] theorem claims_ofClaims (bs : List Block) (claims : List (String × List String)) :
    (ofClaims bs claims).claims = claims := rfl

@[simp] theorem positions_ofClaims (bs : List Block) (claims : List (String × List String)) :
    (ofClaims bs claims).positions = ((allBlocks bs).map fun b => (b.id, b.position)).reverse := rfl

/-! ### Blocks by id -/

theorem position_ofClaims {bs : List Block} (h : (blockIds bs).Nodup)
    (claims : List (String × List String)) {b : Block} (hb : b ∈ allBlocks bs) :
    (ofClaims bs claims).position? b.id = some b.position := by
  have hkeys : ((((allBlocks bs).map fun b => (b.id, b.position)).reverse).map (·.1)).Nodup := by
    rw [List.map_reverse, List.nodup_reverse, List.map_map]
    exact h
  refine (lookup_eq_some_iff hkeys).mpr ?_
  exact List.mem_reverse.mpr (List.mem_map.mpr ⟨b, hb, rfl⟩)

theorem contains_ofClaims (bs : List Block) (claims : List (String × List String))
    (id : String) :
    (ofClaims bs claims).contains id = true ↔ id ∈ blockIds bs := by
  rw [contains, position?, List.lookup_isSome_iff, ofClaims]
  simp only [List.mem_reverse, List.mem_map, blockIds, beq_iff_eq]
  constructor
  · rintro ⟨-, ⟨b, hb, rfl⟩, hid⟩
    exact ⟨b, hb, hid.symm⟩
  · rintro ⟨b, hb, rfl⟩
    exact ⟨(b.id, b.position), ⟨b, hb, rfl⟩, rfl⟩

/-! ### Claimants -/

/-- An index of blocks lists the ids of those with an anchor in the order of the walk. -/
theorem claimants_ofBlocks (bs : List Block) (anchor : String) :
    (ofBlocks bs).claimants anchor =
      ((allBlocks bs).filter fun b => b.anchor? = some anchor).map (·.id) := by
  rw [ofBlocks, claimants, ofClaims]
  dsimp only
  rw [← groupOf, groupOf_groupByKey, valuesOf, List.filterMap_filterMap, ← List.filterMap_eq_map,
    List.filterMap_filter]
  refine List.filterMap_congr fun b _ => ?_
  cases b.anchor? with
  | none => rfl
  | some a => by_cases ha : a = anchor <;> simp [ha]

/-- An index knows blocks: by their ids, and by their anchors. -/
structure Knows (index : BlockIndex) (bs : List Block) : Prop where
  claimants : ∀ anchor, (index.claimants anchor).Perm
    (((allBlocks bs).filter fun b => b.anchor? = some anchor).map (·.id))
  contains : ∀ id, index.contains id = true ↔ id ∈ blockIds bs

theorem knows_ofBlocks (bs : List Block) : (ofBlocks bs).Knows bs := by
  refine ⟨fun anchor => ?_, fun id => contains_ofClaims _ _ _⟩
  rw [claimants_ofBlocks]

section Known

variable {index : BlockIndex} {bs : List Block}

theorem Knows.length_claimants (h : index.Knows bs) (anchor : String) :
    (index.claimants anchor).length =
      (allBlocks bs).countP fun b => b.anchor? = some anchor := by
  rw [(h.claimants anchor).length_eq, List.length_map, List.countP_eq_length_filter]

theorem Knows.claimants_eq_nil_iff (h : index.Knows bs) (anchor : String) :
    index.claimants anchor = [] ↔ ∀ b ∈ allBlocks bs, b.anchor? ≠ some anchor := by
  rw [← List.length_eq_zero_iff, h.length_claimants, List.countP_eq_zero]
  simp

theorem Knows.mem_blockIds (h : index.Knows bs) {anchor id : String}
    (hid : id ∈ index.claimants anchor) : id ∈ blockIds bs := by
  rw [(h.claimants anchor).mem_iff] at hid
  obtain ⟨b, hb, rfl⟩ := List.mem_map.mp hid
  exact List.mem_map.mpr ⟨b, List.mem_of_mem_filter hb, rfl⟩

/-- A name stands for nothing if no block has it as its anchor or as its id. -/
theorem Knows.not_named_iff (h : index.Knows bs) (name : String) :
    index.claimants name = [] ∧ index.contains name = false ↔
      ∀ b ∈ allBlocks bs, b.anchor? ≠ some name ∧ b.id ≠ name := by
  rw [h.claimants_eq_nil_iff, ← Bool.not_eq_true, h.contains]
  constructor
  · rintro ⟨hanchor, hid⟩ b hb
    exact ⟨hanchor b hb, fun heq => hid (List.mem_map.mpr ⟨b, hb, heq⟩)⟩
  · intro hname
    refine ⟨fun b hb => (hname b hb).1, fun hid => ?_⟩
    obtain ⟨b, hb, heq⟩ := List.mem_map.mp hid
    exact (hname b hb).2 heq

end Known

theorem wellGrouped_ofBlocks (bs : List Block) : WellGrouped (ofBlocks bs).claims :=
  wellGrouped_groupByKey _

section Equal

variable {index index' : BlockIndex}

/-- Indexes of the same blocks are equal if all anchors have the same claimants in them. -/
theorem eq_iff_claimants (h : WellGrouped index.claims) (h' : WellGrouped index'.claims)
    (hpositions : index.positions = index'.positions) :
    index = index' ↔ ∀ anchor, index.claimants anchor = index'.claimants anchor := by
  constructor
  · rintro rfl anchor
    rfl
  · intro hclaimants
    obtain ⟨positions, claims⟩ := index
    obtain ⟨positions', claims'⟩ := index'
    obtain rfl : positions = positions' := hpositions
    obtain rfl : claims = claims' := h.ext h' hclaimants
    rfl

/-- One diagnostic lists the claimants of each anchor that has several, at the second one. -/
theorem mem_duplicateAnchors_iff (h : WellGrouped index.claims)
    (d : Diagnostic) : d ∈ index.duplicateAnchors ↔
      ∃ anchor first second rest, index.claimants anchor = first :: second :: rest ∧
        d = ⟨.duplicateAnchor anchor (first :: second :: rest), index.position? second⟩ := by
  rw [duplicateAnchors, List.mem_filterMap]
  constructor
  · rintro ⟨⟨anchor, ids⟩, hids, hd⟩
    have hclaimants : index.claimants anchor = ids := ((h.mem_iff _).mp hids).1
    match ids with
    | [] | [_] => exact absurd hd nofun
    | first :: second :: rest =>
        exact ⟨anchor, first, second, rest, hclaimants, (Option.some.inj hd).symm⟩
  · rintro ⟨anchor, first, second, rest, hclaimants, rfl⟩
    exact ⟨(anchor, first :: second :: rest),
      (h.mem_iff _).mpr ⟨hclaimants, List.cons_ne_nil _ _⟩, rfl⟩

/-- The same blocks are reported as claiming anchors twice only if all anchors
have the same claimants in the same order. -/
theorem duplicateAnchors_eq_iff (h : WellGrouped index.claims) (h' : WellGrouped index'.claims)
    (hpositions : index.positions = index'.positions)
    (hperm : ∀ anchor, (index.claimants anchor).Perm (index'.claimants anchor)) :
    index.duplicateAnchors = index'.duplicateAnchors ↔
      ∀ anchor, index.claimants anchor = index'.claimants anchor := by
  constructor
  · intro heq anchor
    have hanchor := hperm anchor
    match hclaimants : index.claimants anchor with
    | [] =>
        rw [hclaimants] at hanchor
        exact hanchor.nil_eq
    | [only] =>
        rw [hclaimants] at hanchor
        exact (List.perm_singleton.mp hanchor.symm).symm
    | first :: second :: rest =>
        have hmem := (mem_duplicateAnchors_iff h _).mpr
          ⟨anchor, first, second, rest, hclaimants, rfl⟩
        rw [heq] at hmem
        obtain ⟨anchor', first', second', rest', hclaimants', hdiagnostic⟩ :=
          (mem_duplicateAnchors_iff h' _).mp hmem
        obtain ⟨rfl, hids⟩ := Cause.duplicateAnchor.inj (congrArg (·.cause) hdiagnostic)
        rw [hclaimants', hids]
  · intro hclaimants
    rw [(eq_iff_claimants h h' hpositions).mpr hclaimants]

end Equal

end BlockIndex

end BlockDoc
