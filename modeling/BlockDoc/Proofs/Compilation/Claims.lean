import BlockDoc.Proofs.BlockIndex
import BlockDoc.Proofs.Compilation.Stages

/-!
The claims of anchors. The blocks that claim an anchor are known by the paths
of the drafts that declare it; the index of a compilation lists them in the
order in which the drafts are recorded, an index of the finished blocks in the
order in which they are written.
-/

namespace BlockDoc

/-- The paths of the drafts that declare an anchor. -/
def claimingPaths (anchor : String) (l : List (BlockPath × Draft)) : List BlockPath :=
  (l.filter fun x => x.2.data.anchor? = some anchor).map (·.1)

theorem mem_claimingPaths {anchor : String} {l : List (BlockPath × Draft)} {p : BlockPath} :
    p ∈ claimingPaths anchor l ↔ ∃ d, (p, d) ∈ l ∧ d.data.anchor? = some anchor := by
  simp [claimingPaths]

theorem valuesOf_claims (documentId anchor : String) (l : List (BlockPath × Draft)) :
    valuesOf anchor (declarations documentId l).claims = claimingPaths anchor l := by
  induction l with
  | nil => rfl
  | cons x l ih =>
      have hcons : (declarations documentId (x :: l)).claims =
          (x.2.data.anchor?.toList.map fun a => (a, x.1)) ++ (declarations documentId l).claims :=
        rfl
      rw [hcons, valuesOf_append, ih]
      cases hanchor : x.2.data.anchor? with
      | none => simp [claimingPaths, hanchor]
      | some a =>
          by_cases ha : a = anchor <;> simp [claimingPaths, valuesOf_cons, hanchor, ha]

/-! ### Indexes -/

theorem Compiler.claimedIds_eq (finals : List (BlockPath × String))
    (claims : List (String × BlockPath)) : claimedIds finals claims =
      (groupByKey claims).map (Prod.map id (List.filterMap (finals.lookup ·))) := rfl

theorem claimants_ofClaims (bs : List Block) (finals : List (BlockPath × String))
    (claims : List (String × BlockPath)) (anchor : String) :
    (BlockIndex.ofClaims bs (Compiler.claimedIds finals claims)).claimants anchor =
      (valuesOf anchor claims).filterMap (finals.lookup ·) := by
  rw [← groupOf_groupByKey, groupOf, BlockIndex.claimants, BlockIndex.claims_ofClaims,
    Compiler.claimedIds_eq, lookup_map_snd]
  cases (groupByKey claims).lookup anchor <;> rfl

/-- Every anchor that is claimed at a path of a block has a claimant. -/
theorem wellGrouped_claimedIds {finals : List (BlockPath × String)}
    {claims : List (String × BlockPath)} (h : ∀ x ∈ claims, (finals.lookup x.2).isSome) :
    WellGrouped (Compiler.claimedIds finals claims) := by
  have hgroups := wellGrouped_groupByKey claims
  rw [Compiler.claimedIds_eq]
  constructor
  · exact List.pairwise_map.mpr hgroups.sorted
  · intro g hg
    obtain ⟨⟨anchor, paths⟩, hpaths, rfl⟩ := List.mem_map.mp hg
    obtain ⟨hgroup, hne⟩ := (hgroups.mem_iff _).mp hpaths
    obtain ⟨p, hp⟩ := List.exists_mem_of_ne_nil paths hne
    have hclaim : (anchor, p) ∈ claims := by
      rw [← mem_valuesOf, ← groupOf_groupByKey]
      exact hgroup ▸ hp
    obtain ⟨id, hid⟩ := Option.isSome_iff_exists.mp (h _ hclaim)
    exact List.ne_nil_of_mem (List.mem_filterMap.mpr ⟨p, hp, hid⟩)

namespace Compiler

variable (compiler : Compiler) (options : CompileOptions) (text : String) (anchor : String)

theorem claimants_index : (compiler.index options text).claimants anchor =
    (claimingPaths anchor (compiler.recorded text)).filterMap
      ((compiler.finalIds options text).lookup ·) := by
  have hclaims : (compiler.drafted options text).2.claims =
      (declarations (compiler.scope options text).documentId (compiler.recorded text)).claims :=
    congrArg (fun f => f.claims) (compiler.drafted_declared options text)
  rw [index, claimants_ofClaims, hclaims, valuesOf_claims]

/-- The blocks that have an anchor stand at the paths of the drafts that declare it. -/
theorem claimingPaths_authored : claimingPaths anchor (compiler.authored text) =
    ((locatedBlocks (compiler.finalBlocks options text)).filter
      fun x => x.2.anchor? = some anchor).map (·.1) := by
  have hdrafts : claimingPaths anchor (compiler.authored text) =
      (((compiler.authored text).map (Prod.map id Draft.shell)).filter
        fun x => x.2.2.anchor? = some anchor).map (·.1) := by
    simp [claimingPaths, List.filter_map, Function.comp_def, Draft.shell]
  rw [hdrafts, ← compiler.finalBlocks_shells options]
  simp [List.filter_map, Function.comp_def, Block.shell, Block.anchor?]
  rfl

theorem claimants_ofFinalBlocks :
    (BlockIndex.ofBlocks (compiler.finalBlocks options text)).claimants anchor =
      (claimingPaths anchor (compiler.authored text)).filterMap
        ((compiler.finalIds options text).lookup ·) := by
  rw [BlockIndex.claimants_ofBlocks, compiler.claimingPaths_authored options, List.filterMap_map,
    ← locatedBlocks_map_snd, List.filter_map, List.map_map, ← List.filterMap_eq_map]
  refine List.filterMap_congr fun x hx => ?_
  have hlocated := (mem_locatedBlocks _ x.1 x.2).mp (List.mem_of_mem_filter hx)
  simp [compiler.lookup_finalIds options text x.1, hlocated]

theorem claimingPaths_perm : (claimingPaths anchor (compiler.recorded text)).Perm
    (claimingPaths anchor (compiler.authored text)) :=
  ((compiler.recorded_perm text).filter _).map _

/-- No claim is lost, and none is invented. -/
theorem claimants_perm : ((compiler.index options text).claimants anchor).Perm
    (((allBlocks (compiler.finalBlocks options text)).filter
      fun b => b.anchor? = some anchor).map (·.id)) := by
  -- the recorded paths are the authored ones in another order
  rw [claimants_index, ← BlockIndex.claimants_ofBlocks, claimants_ofFinalBlocks]
  exact (compiler.claimingPaths_perm text anchor).filterMap _

theorem knows_index : (compiler.index options text).Knows (compiler.finalBlocks options text) :=
  ⟨compiler.claimants_perm options text, fun _ => BlockIndex.contains_ofClaims _ _ _⟩

end Compiler

end BlockDoc
