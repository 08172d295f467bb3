import BlockDoc.Proofs.Compilation.ClaimOrder

/-!
Anchors that several blocks claim. Each of them is reported once, with the ids
of the blocks that claim it, and before any reference to it is reported as
ambiguous; no other anchor is reported.
-/

namespace BlockDoc

theorem mem_of_append_eq_append_cons {α : Type} {l l' before behind : List α} {x y : α}
    (h : l ++ l' = before ++ x :: behind) (hx : x ∉ l) (hy : y ∈ l) : y ∈ before := by
  rcases List.append_eq_append_iff.mp h with ⟨rest, rfl, -⟩ | ⟨rest, rfl, heq⟩
  · exact List.mem_append_left _ hy
  · cases rest with
    | nil => simpa using hy
    | cons z rest =>
        obtain ⟨rfl, -⟩ := List.cons.inj heq
        exact absurd (List.mem_append_right _ List.mem_cons_self) hx

/-- The anchor that a cause reports as claimed by several blocks. -/
def Cause.duplicated? : Cause → Option String
  | duplicateAnchor anchor _ => some anchor
  | _ => none

namespace BlockIndex

variable {index : BlockIndex}

/-- The anchors that an index reports are its keys with several claimants. -/
theorem duplicated_duplicateAnchors (index : BlockIndex) :
    index.duplicateAnchors.filterMap (·.cause.duplicated?) =
      (index.claims.filter fun group => 2 ≤ group.2.length).map (·.1) := by
  rw [duplicateAnchors, List.filterMap_filterMap, ← List.filterMap_eq_map, List.filterMap_filter]
  refine List.filterMap_congr fun group _ => ?_
  obtain ⟨anchor, _ | ⟨first, _ | ⟨second, rest⟩⟩⟩ := group
  · rfl
  · rfl
  · simp [Cause.duplicated?]

/-- An anchor is reported once if it has several claimants, and otherwise not at all. -/
theorem countP_duplicateAnchors (h : WellGrouped index.claims) (anchor : String) :
    index.duplicateAnchors.countP (·.cause.duplicated? = some anchor) =
      if 2 ≤ (index.claimants anchor).length then 1 else 0 := by
  have hcount : index.duplicateAnchors.countP (·.cause.duplicated? = some anchor) =
      ((index.claims.filter fun group => 2 ≤ group.2.length).map (·.1)).count anchor := by
    rw [← duplicated_duplicateAnchors, List.count_filterMap]
    exact List.countP_congr fun d _ => by simp
  have hnodup : ((index.claims.filter fun group => 2 ≤ group.2.length).map (·.1)).Nodup :=
    h.nodup.sublist (List.filter_sublist.map _)
  have hmem : anchor ∈ (index.claims.filter fun group => 2 ≤ group.2.length).map (·.1) ↔
      2 ≤ (index.claimants anchor).length := by
    rw [List.mem_map]
    constructor
    · rintro ⟨⟨key, ids⟩, hgroup, rfl⟩
      obtain ⟨hgroup, hlength⟩ := List.mem_filter.mp hgroup
      obtain rfl : index.claimants key = ids := ((h.mem_iff _).mp hgroup).1
      simpa using hlength
    · intro hlength
      have hne : index.claimants anchor ≠ [] := by
        intro hnil
        simp [hnil] at hlength
      refine ⟨(anchor, index.claimants anchor),
        List.mem_filter.mpr ⟨?_, by simpa using hlength⟩, rfl⟩
      exact (h.mem_iff _).mpr ⟨rfl, hne⟩
  rw [hcount]
  split_ifs with hlength
  · exact List.count_eq_one_of_mem hnodup (hmem.mpr hlength)
  · exact List.count_eq_zero_of_not_mem fun hin => hlength (hmem.mp hin)

end BlockIndex

namespace Compiler

section Duplicates

variable (compiler : Compiler) (options : CompileOptions) (text : String)

theorem duplicated_diagnostics (anchor : String) :
    (compiler.compile options text).diagnostics.countP (·.cause.duplicated? = some anchor) =
      if 2 ≤ ((compiler.index options text).claimants anchor).length then 1 else 0 := by
  rw [← BlockIndex.countP_duplicateAnchors (compiler.wellGrouped_index options text),
    List.countP_eq_length_filter, List.countP_eq_length_filter,
    compiler.filter_diagnostics options text .anchors]
  · rfl
  · rintro ⟨cause, position⟩ s hs hcause
    cases cause <;> simp_all [Cause.stage?, Cause.duplicated?]

/-- All reports but those on references come before these. -/
theorem diagnostics_eq_earlier_append : (compiler.compile options text).diagnostics =
    [Stage.frontMatter, .drafting, .validation, .anchors].flatMap
        (compiler.reported options text) ++ compiler.reported options text .references := by
  rw [diagnostics_eq_reported]
  simp

variable {compiler options text}

theorem not_mem_earlier {d : Diagnostic} (h : d.cause.stage? = some .references) :
    d ∉ [Stage.frontMatter, .drafting, .validation, .anchors].flatMap
      (compiler.reported options text) := by
  intro hd
  obtain ⟨s, hs, hreported⟩ := List.mem_flatMap.mp hd
  have hstage : d.cause.stage? = some s := compiler.causes_reported options text s d hreported
  rw [h] at hstage
  obtain rfl := Option.some.inj hstage
  simp at hs

/-- A reference is reported as ambiguous behind the report on the anchor that it names. -/
theorem duplicate_before_ambiguous {before behind : List Diagnostic} {d : Diagnostic}
    (h : (compiler.compile options text).diagnostics = before ++ d :: behind)
    (hcode : d.code = .ambiguousReference) :
    ∃ anchor ids, d.cause = .ambiguous anchor ids ∧
      ∃ e ∈ before, e.cause = .duplicateAnchor anchor ids := by
  have hd : d ∈ (compiler.compile options text).diagnostics := by
    rw [h]
    exact List.mem_append_right _ List.mem_cons_self
  have hstage : d.cause.stage? = some .references := by
    obtain ⟨s, hs⟩ := compiler.exists_stage_of_mem options text hd
    obtain ⟨cause, position⟩ := d
    cases cause <;> simp_all [Cause.stage?, Diagnostic.code, Cause.code]
  rw [diagnostics_eq_earlier_append] at hd h
  have hreported := (List.mem_append.mp hd).resolve_left (not_mem_earlier hstage)
  obtain ⟨r, -, hr⟩ := List.mem_flatMap.mp hreported
  obtain ⟨cause, htarget, rfl⟩ := Reference.mem_resolve hr
  obtain ⟨rfl, first, second, rest, hclaimants⟩ := resolveTarget_ambiguous htarget hcode
  -- the report on the target lies in the earlier stages, and all of these are before
  have hduplicate := (BlockIndex.mem_duplicateAnchors_iff
    (compiler.wellGrouped_index options text) _).mpr ⟨_, first, second, rest, hclaimants, rfl⟩
  rw [← hclaimants] at hduplicate
  have hbefore := mem_of_append_eq_append_cons h (not_mem_earlier hstage)
    (List.mem_flatMap.mpr ⟨.anchors, by simp, hduplicate⟩)
  exact ⟨_, _, rfl, _, hbefore, rfl⟩

end Duplicates

/-- An anchor is reported as claimed several times once if several blocks of
the document have it, however deep they lie, and otherwise not at all. The
report names the final ids of these blocks and their number. A reference is
reported as ambiguous only behind the report on its target. -/
theorem duplicate_anchors_reported_once (compiler : Compiler) (options : CompileOptions)
    (text : String) :
    let result := compiler.compile options text
    let claiming := fun anchor =>
      (allBlocks result.document.blocks).filter fun b => b.anchor? = some anchor
    (∀ anchor, result.diagnostics.countP (·.cause.duplicated? = some anchor) =
      if 2 ≤ (claiming anchor).length then 1 else 0) ∧
    (∀ d ∈ result.diagnostics, d.code = .duplicateGlyphId → ∃ anchor ids,
      d.cause = .duplicateAnchor anchor ids ∧ ids.Perm ((claiming anchor).map (·.id)) ∧
        d.cause.message = "glyph-id " ++ Cause.quoted anchor ++ " is declared by " ++
          toString (claiming anchor).length ++ " blocks: " ++ String.intercalate ", " ids) ∧
    ∀ before d behind, result.diagnostics = before ++ d :: behind →
      d.code = .ambiguousReference → ∃ anchor ids, d.cause = .ambiguous anchor ids ∧
        ∃ e ∈ before, e.cause = .duplicateAnchor anchor ids := by
  simp only [compile_blocks]
  have hlength : ∀ anchor, ((compiler.index options text).claimants anchor).length =
      ((allBlocks (compiler.finalBlocks options text)).filter
        fun b => b.anchor? = some anchor).length := by
    intro anchor
    rw [(compiler.claimants_perm options text anchor).length_eq, List.length_map]
  refine ⟨fun anchor => ?_, fun d hd hcode => ?_, fun before d behind h hcode => ?_⟩
  · rw [duplicated_diagnostics, hlength]
  · have hanchors : d ∈ (compiler.index options text).duplicateAnchors := by
      rw [← diagnostics_about_anchors]
      exact List.mem_filter.mpr ⟨hd, by simpa using hcode⟩
    obtain ⟨anchor, first, second, rest, hclaimants, rfl⟩ :=
      (BlockIndex.mem_duplicateAnchors_iff (compiler.wellGrouped_index options text) d).mp hanchors
    refine ⟨anchor, _, rfl, ?_, ?_⟩
    · rw [← hclaimants]
      exact compiler.claimants_perm options text anchor
    · rw [← hlength, hclaimants]
      rfl
  · exact duplicate_before_ambiguous h hcode

end Compiler

end BlockDoc
