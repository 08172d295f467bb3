import BlockDoc.Proofs.Compilation.Declarations
import BlockDoc.Proofs.Compilation.Diagnostics
import Mathlib.Data.List.Pairwise

/-!
The order of claims. The blocks of a sequence are recorded before the blocks
inside them, so a block overtakes those that stand inside earlier blocks of
its sequence. The index of a compilation lists the claimants of an anchor in
document order if and only if no claimant overtakes another one.
-/

namespace BlockDoc

namespace BlockPath

/-- The first path leads to a block behind the container inside which the
second path leads: in one sequence, or in the same section of one block. -/
inductive Overtakes : BlockPath → BlockPath → Prop
  | sequence {i j part : Nat} {rest : BlockPath} (h : i < j) : Overtakes [j] (i :: part :: rest)
  | inside {i part : Nat} {p q : BlockPath} (h : Overtakes q p) :
    Overtakes (i :: part :: q) (i :: part :: p)

theorem Overtakes.lt {p q : BlockPath} (h : Overtakes q p) : p < q := by
  induction h with
  | sequence h => exact List.Lex.rel h
  | inside h ih => exact List.Lex.cons (List.Lex.cons ih)

theorem not_overtakes_singleton (q : BlockPath) (i : Nat) : ¬ Overtakes q [i] := by
  rintro ⟨⟩

theorem overtakes_cons_iff {i j part part' : Nat} {p q : BlockPath} :
    Overtakes (i :: part :: q) (j :: part' :: p) ↔ i = j ∧ part = part' ∧ Overtakes q p := by
  constructor
  · intro h
    cases h with
    | inside h => exact ⟨rfl, rfl, h⟩
  · rintro ⟨rfl, rfl, h⟩
    exact .inside h

/-- The first path is recorded before the second one: it is less and not
overtaken, or overtakes. -/
def RecordedBefore (p q : BlockPath) : Prop := (p < q ∨ Overtakes p q) ∧ ¬ Overtakes q p

theorem RecordedBefore.below {p q : BlockPath} (h : RecordedBefore p q) (i part : Nat) :
    RecordedBefore (i :: part :: p) (i :: part :: q) := by
  obtain ⟨hlt | hovertakes, hnot⟩ := h
  · exact ⟨Or.inl (List.Lex.cons (List.Lex.cons hlt)),
      fun h => hnot (overtakes_cons_iff.mp h).2.2⟩
  · exact ⟨Or.inr (.inside hovertakes), fun h => hnot (overtakes_cons_iff.mp h).2.2⟩

end BlockPath

open BlockPath

/-! ### The order of the record -/

theorem Draft.path_of_mem_inside {read : String → List (BlockPath × Draft)} {d : Draft}
    {x : BlockPath × Draft} (hx : x ∈ d.inside read) : ∃ part rest, x.1 = part :: rest := by
  obtain ⟨part, -, rest, hpath, -⟩ := mem_indexed.mp hx
  exact ⟨0 + part, rest, hpath⟩

/-- If the texts inside are recorded in order, so is everything inside the drafts of a sequence. -/
theorem pairwise_inside {read : String → List (BlockPath × Draft)}
    (h : ∀ text, (read text).Pairwise fun x y => RecordedBefore x.1 y.1) (drafts : List Draft) :
    (indexed (Draft.inside read) 0 drafts).Pairwise fun x y => RecordedBefore x.1 y.1 := by
  refine pairwise_indexed (fun d _ i => ?_) ?_ 0
  · -- inside one draft the sections come one after the other
    refine List.pairwise_map.mpr ?_
    refine pairwise_indexed (R := fun p q => RecordedBefore (i :: p) (i :: q)) ?_ ?_ 0
    · intro s _ part
      have htext : (s.ofText read).Pairwise fun x y => RecordedBefore x.1 y.1 :=
        s.ofText_induction List.Pairwise.nil h
      exact List.pairwise_map.mpr (htext.imp fun hxy => hxy.below i part)
    · intro s _ s' _ x _ y _ part part' hlt
      refine ⟨Or.inl (List.Lex.cons (List.Lex.rel hlt)), fun hovertakes => ?_⟩
      have heq : part' = part := (overtakes_cons_iff.mp hovertakes).2.1
      omega
  · intro d _ d' _ x hx y hy i j hij
    obtain ⟨part, rest, hpath⟩ := Draft.path_of_mem_inside hx
    obtain ⟨part', rest', hpath'⟩ := Draft.path_of_mem_inside hy
    rw [hpath, hpath']
    refine ⟨Or.inl (List.Lex.rel hij), fun hovertakes => ?_⟩
    have heq : j = i := (overtakes_cons_iff.mp hovertakes).1
    omega

/-- What is recorded comes in an order in which sequences go first. -/
theorem recorded_pairwise (registry : Registry) (levels : Nat) (text : String) :
    (recorded registry levels text).Pairwise fun x y => RecordedBefore x.1 y.1 := by
  induction levels generalizing text with
  | zero => exact List.Pairwise.nil
  | succ levels ih =>
      rw [recorded]
      refine List.pairwise_append.mpr ⟨?_, pairwise_inside ih _, ?_⟩
      · refine pairwise_indexed (fun d _ i => List.pairwise_singleton _ _) ?_ 0
        intro x _ y _ p hp q hq i j hij
        obtain rfl := List.mem_singleton.mp hp
        obtain rfl := List.mem_singleton.mp hq
        exact ⟨Or.inl (List.Lex.rel hij), not_overtakes_singleton _ _⟩
      · rintro ⟨p, x⟩ hp ⟨q, y⟩ hq
        obtain ⟨i, d, rest, rfl, -, hrest⟩ := mem_indexed.mp hp
        obtain ⟨rfl, rfl⟩ := Prod.mk.inj (List.mem_singleton.mp hrest)
        obtain ⟨j, d', rest, rfl, -, hrest'⟩ := mem_indexed.mp hq
        obtain ⟨part, rest, rfl⟩ := Draft.path_of_mem_inside hrest'
        -- a block of the sequence comes before all that stands inside the sequence,
        -- and overtakes what stands inside earlier blocks
        refine ⟨?_, not_overtakes_singleton _ _⟩
        rcases Nat.lt_trichotomy (0 + i) (0 + j) with hlt | heq | hgt
        · exact Or.inl (List.Lex.rel hlt)
        · exact Or.inl (heq ▸ List.Lex.cons List.Lex.nil)
        · exact Or.inr (.sequence hgt)

/-- Paths that are recorded are in document order if and only if none overtakes another one. -/
theorem eq_iff_not_overtakes {l l' : List BlockPath} (hperm : l.Perm l')
    (hl : l.Pairwise RecordedBefore) (hl' : l'.Pairwise (· < ·)) :
    l = l' ↔ ∀ p ∈ l', ∀ q ∈ l', ¬ Overtakes q p := by
  constructor
  · rintro rfl p hp q hq hovertakes
    have hne : p ≠ q := fun heq => List.lt_irrefl _ (heq ▸ hovertakes.lt)
    -- in either order the two stand as they are recorded and as they are written
    have hsymm : Std.Symm fun x y : BlockPath =>
        RecordedBefore x y ∧ x < y ∨ RecordedBefore y x ∧ y < x := ⟨fun x y h => h.symm⟩
    have hboth : l.Pairwise fun x y =>
        RecordedBefore x y ∧ x < y ∨ RecordedBefore y x ∧ y < x := (hl.and hl').imp Or.inl
    rcases hboth.forall hp hq hne with ⟨hrecorded, -⟩ | ⟨-, hlt⟩
    · exact hrecorded.2 hovertakes
    · exact List.lt_asymm hlt hovertakes.lt
  · intro hnone
    have hsorted : l.Pairwise (· < ·) := by
      refine hl.imp_of_mem ?_
      rintro p q hp hq ⟨hlt | hovertakes, -⟩
      · exact hlt
      · exact absurd hovertakes (hnone q (hperm.mem_iff.mp hq) p (hperm.mem_iff.mp hp))
    exact hperm.eq_of_pairwise (fun p q _ _ hpq hqp => absurd hqp (List.lt_asymm hpq)) hsorted hl'

/-! ### Claimants -/

/-- Of two blocks with an anchor one stands behind a container in which the
other one stands. -/
def Overtaken (anchor : String) (bs : List Block) : Prop :=
  ∃ p b q c, blockAt? p bs = some b ∧ b.anchor? = some anchor ∧
    blockAt? q bs = some c ∧ c.anchor? = some anchor ∧ Overtakes q p

namespace Compiler

variable (compiler : Compiler) (options : CompileOptions) (text : String) (anchor : String)

theorem mem_claimingPaths_iff {p : BlockPath} :
    p ∈ claimingPaths anchor (compiler.authored text) ↔
      ∃ b, blockAt? p (compiler.finalBlocks options text) = some b ∧ b.anchor? = some anchor := by
  rw [compiler.claimingPaths_authored options, List.mem_map]
  constructor
  · rintro ⟨⟨p, b⟩, hb, rfl⟩
    obtain ⟨hlocated, hanchor⟩ := List.mem_filter.mp hb
    exact ⟨b, (mem_locatedBlocks _ p b).mp hlocated, by simpa using hanchor⟩
  · rintro ⟨b, hb, hanchor⟩
    exact ⟨(p, b), List.mem_filter.mpr ⟨(mem_locatedBlocks _ p b).mpr hb, by simpa using hanchor⟩, rfl⟩

theorem claimingPaths_eq_iff :
    claimingPaths anchor (compiler.recorded text) = claimingPaths anchor (compiler.authored text) ↔
      ¬ Overtaken anchor (compiler.finalBlocks options text) := by
  have hrecorded : (claimingPaths anchor (compiler.recorded text)).Pairwise RecordedBefore :=
    List.pairwise_map.mpr ((recorded_pairwise _ _ text).filter _)
  have hauthored : (claimingPaths anchor (compiler.authored text)).Pairwise (· < ·) :=
    List.pairwise_map.mpr (List.Pairwise.filter _ (compiler.increasing_authored text))
  rw [eq_iff_not_overtakes (compiler.claimingPaths_perm text anchor) hrecorded hauthored]
  constructor
  · rintro hnone ⟨p, b, q, c, hb, hbanchor, hc, hcanchor, hovertakes⟩
    exact hnone p ((compiler.mem_claimingPaths_iff options text anchor).mpr ⟨b, hb, hbanchor⟩)
      q ((compiler.mem_claimingPaths_iff options text anchor).mpr ⟨c, hc, hcanchor⟩) hovertakes
  · intro hnone p hp q hq hovertakes
    obtain ⟨b, hb, hbanchor⟩ := (compiler.mem_claimingPaths_iff options text anchor).mp hp
    obtain ⟨c, hc, hcanchor⟩ := (compiler.mem_claimingPaths_iff options text anchor).mp hq
    exact hnone ⟨p, b, q, c, hb, hbanchor, hc, hcanchor, hovertakes⟩

/-- Different blocks have different ids, so paths can be told from ids. -/
theorem claimants_eq_iff : (compiler.index options text).claimants anchor =
    (BlockIndex.ofBlocks (compiler.finalBlocks options text)).claimants anchor ↔
      ¬ Overtaken anchor (compiler.finalBlocks options text) := by
  have hsome : ∀ p ∈ claimingPaths anchor (compiler.authored text),
      ((compiler.finalIds options text).lookup p).isSome := by
    intro p hp
    obtain ⟨b, hb, -⟩ := (compiler.mem_claimingPaths_iff options text anchor).mp hp
    rw [lookup_finalIds, hb]
    rfl
  have hinj : ∀ p ∈ claimingPaths anchor (compiler.authored text),
      ∀ q ∈ claimingPaths anchor (compiler.authored text),
        (compiler.finalIds options text).lookup p = (compiler.finalIds options text).lookup q →
          p = q := by
    intro p hp q hq heq
    obtain ⟨b, hb, -⟩ := (compiler.mem_claimingPaths_iff options text anchor).mp hp
    obtain ⟨c, hc, -⟩ := (compiler.mem_claimingPaths_iff options text anchor).mp hq
    rw [lookup_finalIds, lookup_finalIds, hb, hc] at heq
    exact path_of_id (compiler.nodup_finalBlocks options text) hb hc (Option.some.inj heq)
  rw [← claimingPaths_eq_iff, claimants_index, claimants_ofFinalBlocks]
  constructor
  · intro h
    have hmem : ∀ p ∈ claimingPaths anchor (compiler.recorded text),
        p ∈ claimingPaths anchor (compiler.authored text) := fun p =>
      (compiler.claimingPaths_perm text anchor).mem_iff.mp
    exact filterMap_inj_of_mem (fun p hp => hsome p (hmem p hp)) hsome
      (fun p hp => hinj p (hmem p hp)) h
  · intro h
    rw [h]

/-! ### The index -/

theorem wellGrouped_index : WellGrouped (compiler.index options text).claims := by
  rw [index, BlockIndex.claims_ofClaims]
  apply wellGrouped_claimedIds
  rintro ⟨anchor, p⟩ hclaim
  obtain ⟨d, hd, -⟩ := mem_claims.mp hclaim
  obtain ⟨b, hb⟩ := compiler.exists_standsAt options text hd
  rw [hb.id]
  rfl

theorem positions_index : (compiler.index options text).positions =
    (BlockIndex.ofBlocks (compiler.finalBlocks options text)).positions := by
  rw [index, BlockIndex.ofBlocks, BlockIndex.positions_ofClaims, BlockIndex.positions_ofClaims]

/-- The index is the one of the finished blocks unless a claimant is overtaken. -/
theorem index_eq_iff : compiler.index options text =
    BlockIndex.ofBlocks (compiler.finalBlocks options text) ↔
      ∀ anchor, ¬ Overtaken anchor (compiler.finalBlocks options text) := by
  rw [BlockIndex.eq_iff_claimants (compiler.wellGrouped_index options text)
    (BlockIndex.wellGrouped_ofBlocks _) (compiler.positions_index options text)]
  exact forall_congr' (compiler.claimants_eq_iff options text)

theorem duplicateAnchors_eq_iff : (compiler.index options text).duplicateAnchors =
    (BlockIndex.ofBlocks (compiler.finalBlocks options text)).duplicateAnchors ↔
      ∀ anchor, ¬ Overtaken anchor (compiler.finalBlocks options text) := by
  have hperm : ∀ anchor, ((compiler.index options text).claimants anchor).Perm
      ((BlockIndex.ofBlocks (compiler.finalBlocks options text)).claimants anchor) := by
    intro anchor
    rw [BlockIndex.claimants_ofBlocks]
    exact compiler.claimants_perm options text anchor
  rw [BlockIndex.duplicateAnchors_eq_iff (compiler.wellGrouped_index options text)
    (BlockIndex.wellGrouped_ofBlocks _) (compiler.positions_index options text) hperm]
  exact forall_congr' (compiler.claimants_eq_iff options text)

/-- The index of a compilation lists the claimants of an anchor in document
order if and only if none of them is overtaken. It is the index of the
finished blocks, and anchors with several claimants are reported as that index
reports them, if and only if this holds of all anchors. -/
theorem claimants_in_document_order_iff (compiler : Compiler) (options : CompileOptions)
    (text : String) :
    let index := compiler.index options text
    let result := compiler.compile options text
    let blocks := result.document.blocks
    (∀ anchor, index.claimants anchor =
        ((allBlocks blocks).filter fun b => b.anchor? = some anchor).map (·.id) ↔
      ¬ Overtaken anchor blocks) ∧
    (index = BlockIndex.ofBlocks blocks ↔ ∀ anchor, ¬ Overtaken anchor blocks) ∧
    (result.diagnostics.filter (fun d => d.code = .duplicateGlyphId) =
        (BlockIndex.ofBlocks blocks).duplicateAnchors ↔
      ∀ anchor, ¬ Overtaken anchor blocks) := by
  simp only [compile_blocks]
  refine ⟨fun anchor => ?_, compiler.index_eq_iff options text, ?_⟩
  · rw [← BlockIndex.claimants_ofBlocks]
    exact compiler.claimants_eq_iff options text anchor
  · rw [diagnostics_about_anchors]
    exact compiler.duplicateAnchors_eq_iff options text

/-- Claims that are recorded out of order are listed and reported out of order. -/
theorem out_of_order_of_paths_ne {compiler : Compiler} {text anchor : String}
    (h : claimingPaths anchor (compiler.recorded text) ≠
      claimingPaths anchor (compiler.authored text)) (options : CompileOptions) :
    (compiler.index options text).claimants anchor ≠
        ((allBlocks (compiler.compile options text).document.blocks).filter
          fun b => b.anchor? = some anchor).map (·.id) ∧
      (compiler.compile options text).diagnostics.filter (fun d => d.code = .duplicateGlyphId) ≠
        (BlockIndex.ofBlocks (compiler.compile options text).document.blocks).duplicateAnchors := by
  rw [ne_eq, compiler.claimingPaths_eq_iff options, not_not] at h
  rw [compile_blocks, diagnostics_about_anchors, ← BlockIndex.claimants_ofBlocks]
  constructor
  · exact fun heq => (compiler.claimants_eq_iff options text anchor).mp heq h
  · exact fun heq => (compiler.duplicateAnchors_eq_iff options text).mp heq anchor h

/-- A heading inside a container claims an anchor, and so does a heading behind the container. -/
def overtakingText : String :=
  "```ui:tabs\ntabs:\n  - label: x\n    content: \"# In {#a}\"\n```\n\n# Out {#a}\n"

/-- The heading behind the container is listed first, though it stands last. -/
theorem overtakingText_claimants :
    let options : CompileOptions := ⟨none, some "d"⟩
    let result := Compiler.default.compile options overtakingText
    (Compiler.default.index options overtakingText).claimants "a" ≠
        ((allBlocks result.document.blocks).filter fun b => b.anchor? = some "a").map (·.id) ∧
      result.diagnostics.filter (fun d => d.code = .duplicateGlyphId) ≠
        (BlockIndex.ofBlocks result.document.blocks).duplicateAnchors := by
  have hpaths : claimingPaths "a" (Compiler.default.recorded overtakingText) ≠
      claimingPaths "a" (Compiler.default.authored overtakingText) := by decide +kernel
  exact out_of_order_of_paths_ne hpaths ⟨none, some "d"⟩

end Compiler

end BlockDoc
