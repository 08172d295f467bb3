import BlockDoc.Proofs.Compilation.Depth
import BlockDoc.Proofs.Compilation.References
import BlockDoc.Proofs.Target

/-!
Links to anchors. A block that alone has an anchor is found by a link to the
anchor if trimming leaves the anchor as it is, and by a link that also names
the document if the name of the document can be read back. Ids of blocks have
no number sign, so no other block is taken for it.
-/

namespace BlockDoc

/-! ### The characters of ids -/

/-- The form of the ids of blocks. -/
def IsBlockId (id : String) : Prop := ∃ rest, id = "b-" ++ rest ∧ '#' ∉ rest.toList

theorem isBlockId_provisionalId (documentId kind : String) (data : BlockData Block) :
    IsBlockId (provisionalId documentId kind data) := by
  refine ⟨_, rfl, ?_⟩
  have hdigit : ∀ n < 16, Nat.digitChar n ≠ '#' := by decide
  have hhex : '#' ∉ (Sha256.hex (contentBytes (blockIdParts documentId kind data))).toList := by
    rw [Sha256.hex, String.toList_ofList]
    intro hmem
    obtain ⟨w, -, hw⟩ := List.mem_flatMap.mp hmem
    obtain ⟨i, -, hi⟩ := List.mem_map.mp hw
    exact hdigit _ (Nat.mod_lt _ (by decide)) hi
  rw [fingerprint, String.toList_ofList]
  exact fun hmem => hhex (List.mem_of_mem_take hmem)

theorem IsBlockId.numbered {id : String} (h : IsBlockId id) (n : Nat) :
    IsBlockId (Assignment.numbered id n) := by
  obtain ⟨rest, rfl, hrest⟩ := h
  refine ⟨rest ++ "-" ++ toString n, by simp [Assignment.numbered, String.append_assoc], ?_⟩
  have hdigits : '#' ∉ (toString n).toList := by
    intro hmem
    have hchars : '#' ∈ Nat.toDigits 10 n := by simpa [Nat.repr_eq_ofList_toDigits] using hmem
    exact absurd (Nat.isDigit_of_mem_toDigits (by decide) (by decide) hchars) (by decide)
  simp only [String.toList_append, List.mem_append, not_or]
  exact ⟨⟨hrest, by decide⟩, hdigits⟩

theorem IsBlockId.two_le_length {id : String} (h : IsBlockId id) : 2 ≤ id.length := by
  obtain ⟨rest, rfl, -⟩ := h
  have hprefix : "b-".length = 2 := by decide
  rw [String.length_append]
  omega

theorem IsBlockId.ne_of_mem {id name : String} (h : IsBlockId id) (hname : '#' ∈ name.toList) :
    name ≠ id := by
  rintro rfl
  obtain ⟨rest, rfl, hrest⟩ := h
  rw [String.toList_append, List.mem_append] at hname
  exact hname.elim (by decide) hrest

/-! ### The only block with an anchor -/

/-- A block is the only one with an anchor. -/
structure SoleClaimant (bs : List Block) (g : String) (b : Block) : Prop where
  mem : b ∈ allBlocks bs
  anchor : b.anchor? = some g
  sole : (allBlocks bs).countP (fun c => c.anchor? = some g) = 1

/-- A name stands for a block: it is its anchor, or its id and not an anchor. -/
def StandsFor (bs : List Block) (name : String) (b : Block) : Prop :=
  b.anchor? = some name ∨ name = b.id ∧ ∀ c ∈ allBlocks bs, c.anchor? ≠ some name

section Sole

variable {bs : List Block} {g : String} {b : Block} {index : BlockIndex}

theorem SoleClaimant.claimants_eq (h : SoleClaimant bs g b) (hindex : index.Knows bs) :
    index.claimants g = [b.id] := by
  have hmem : b ∈ (allBlocks bs).filter fun c => c.anchor? = some g :=
    List.mem_filter.mpr ⟨h.mem, by simp [h.anchor]⟩
  have hlength : ((allBlocks bs).filter fun c => c.anchor? = some g).length = 1 := by
    rw [← List.countP_eq_length_filter, h.sole]
  obtain ⟨c, hc⟩ := List.length_eq_one_iff.mp hlength
  rw [hc] at hmem
  obtain rfl := List.mem_singleton.mp hmem
  have hperm := hindex.claimants g
  rw [hc] at hperm
  exact List.perm_singleton.mp hperm

theorem SoleClaimant.claimants_eq_iff (h : SoleClaimant bs g b) (hindex : index.Knows bs)
    (hnodup : (blockIds bs).Nodup) (name : String) :
    index.claimants name = [b.id] ↔ b.anchor? = some name := by
  constructor
  · intro hclaimants
    have hmem : b.id ∈ ((allBlocks bs).filter fun c => c.anchor? = some name).map (·.id) := by
      rw [← (hindex.claimants name).mem_iff, hclaimants]
      exact List.mem_singleton_self _
    obtain ⟨c, hc, hid⟩ := List.mem_map.mp hmem
    obtain ⟨hc, hanchor⟩ := List.mem_filter.mp hc
    obtain rfl := List.inj_on_of_nodup_map hnodup hc h.mem hid
    simpa using hanchor
  · intro hanchor
    obtain rfl := Option.some.inj (h.anchor.symm.trans hanchor)
    exact h.claimants_eq hindex

/-- A target points at the only block with an anchor if it lies in the document and its name stands
for the block. -/
theorem SoleClaimant.resolveTarget_iff (h : SoleClaimant bs g b) (hindex : index.Knows bs)
    (hnodup : (blockIds bs).Nodup) (documentId : String) (t : Target) :
    resolveTarget documentId index t = .ok b.id ↔
      t.isElsewhere documentId = false ∧ StandsFor bs t.id b := by
  have hid : b.id ∈ blockIds bs := List.mem_map.mpr ⟨b, h.mem, rfl⟩
  rw [resolveTarget_eq_ok_iff, h.claimants_eq_iff hindex hnodup, hindex.claimants_eq_nil_iff,
    StandsFor]
  refine and_congr_right fun _ => or_congr_right ?_
  constructor
  · rintro ⟨hnone, heq, -⟩
    exact ⟨heq, hnone⟩
  · rintro ⟨heq, hnone⟩
    exact ⟨hnone, heq, (hindex.contains t.id).mpr (heq ▸ hid)⟩

end Sole

/-! ### Links -/

/-- A link leads to a block: it has a target, and a reference to this target gets the block. -/
def LinksTo (documentId : String) (index : BlockIndex) (url : String) (b : Block) : Prop :=
  ∃ t, Target.ofLink? url = some t ∧ ∀ r : Reference, r.target = t → r.resolvedBlockId = none →
    (resolveReferences documentId index [r]).1 = [{ r with resolvedBlockId := some b.id }]

theorem linksTo_iff {documentId : String} {index : BlockIndex} {url : String} {b : Block}
    {t : Target} (h : Target.ofLink? url = some t) :
    LinksTo documentId index url b ↔ resolveTarget documentId index t = .ok b.id := by
  constructor
  · rintro ⟨t', ht', hresolves⟩
    obtain rfl := Option.some.inj (ht'.symm.trans h)
    let r : Reference := ⟨.inline, "", none, t', none, none, none⟩
    have hr : (r.resolve documentId index).1.resolvedBlockId = some b.id :=
      congrArg Reference.resolvedBlockId (List.singleton_injective (hresolves r rfl rfl))
    rw [Reference.resolvedBlockId_resolve rfl, Reference.resolve_eq] at hr
    cases htarget : resolveTarget documentId index t' with
    | ok id =>
        simp only [r, htarget] at hr
        exact congrArg _ (Option.some.inj hr)
    | error cause =>
        simp only [r, htarget] at hr
        exact nomatch hr
  · intro htarget
    refine ⟨t, h, fun r hr hnone => ?_⟩
    rw [resolveReferences, List.map_singleton, Reference.resolve_of_ok hnone (hr ▸ htarget)]

theorem isBlankText_of_anchor {b : Block} {g : String} (h : b.anchor? = some g) :
    Text.isBlankText g = false := by
  have hnot := (Option.filter_eq_some_iff.mp h).2
  simpa using hnot

namespace Compiler

section Links

variable (compiler : Compiler) (options : CompileOptions) (text : String)

theorem isBlockId_of_mem {id : String} (h : id ∈ blockIds (compiler.finalBlocks options text)) :
    IsBlockId id := by
  rw [finalBlocks, blockIds_finalizeIds] at h
  refine uniqueIds_induction (fun id hid => ?_) (fun id n hid => hid.numbered n) id h
  obtain ⟨b, hb, rfl⟩ := List.mem_map.mp hid
  obtain ⟨p, hp⟩ := mem_allBlocks.mp hb
  obtain ⟨d, -, hcomes⟩ := exists_comesOf p hp
  rw [hcomes.id]
  exact isBlockId_provisionalId _ _ _

variable {compiler options text}

theorem not_standsFor {b : Block} {g name : String}
    (h : SoleClaimant (compiler.finalBlocks options text) g b)
    (hname : g.toList.count '#' < name.toList.count '#') :
    ¬ StandsFor (compiler.finalBlocks options text) name b := by
  have hid := compiler.isBlockId_of_mem options text (List.mem_map.mpr ⟨b, h.mem, rfl⟩)
  rintro (hanchor | ⟨heq, -⟩)
  · obtain rfl := Option.some.inj (h.anchor.symm.trans hanchor)
    exact Nat.lt_irrefl _ hname
  · exact hid.ne_of_mem (List.count_pos_iff.mp (Nat.zero_lt_of_lt hname)) heq

theorem map_anchor_finalBlocks (options : CompileOptions) :
    (allBlocks (compiler.finalBlocks options text)).map (·.anchor?) =
      (compiler.authored text).map fun x => x.2.data.anchor? := by
  have hanchors := congrArg (List.map fun shell : String × BlockData Empty => shell.2.anchor?)
    (compiler.map_shell_finalBlocks options text)
  simpa [Function.comp_def, Block.shell, Draft.shell, Block.anchor?] using hanchors

/-- An anchor that one draft declares has one block. -/
theorem exists_soleClaimant (options : CompileOptions) {g : String}
    (h : ((compiler.authored text).map fun x => x.2.data.anchor?).count (some g) = 1) :
    ∃ b, SoleClaimant (compiler.finalBlocks options text) g b := by
  rw [← map_anchor_finalBlocks options] at h
  obtain ⟨b, hb, hanchor⟩ := List.mem_map.mp (List.count_pos_iff.mp (h ▸ Nat.one_pos))
  refine ⟨b, hb, hanchor, ?_⟩
  rw [List.count, List.countP_map] at h
  rw [← h]
  refine List.countP_congr fun c _ => ?_
  simp

end Links

/-- A link to an anchor has a target, with and without the document. If one block has the anchor,
the link without the document leads to it if and only if trimming leaves the anchor as it is, or
else leaves the id of the block and no block has that as its anchor. With the document it leads
there under this condition if and only if the id of the document has no marker, and is blank or
stays as it is when it is trimmed. -/
theorem anchor_links_iff (compiler : Compiler) (options : CompileOptions) (text : String)
    {g : String} {b : Block}
    (h : SoleClaimant (compiler.compile options text).document.blocks g b) :
    let document := (compiler.compile options text).document
    let found := Text.trim g = g ∨
      Text.trim g = b.id ∧ ∀ c ∈ allBlocks document.blocks, c.anchor? ≠ some (Text.trim g)
    (Target.ofLink? (Target.marker ++ g)).isSome ∧
    (Target.ofLink? (document.id ++ Target.marker ++ g)).isSome ∧
    ∀ index ∈ [compiler.index options text, BlockIndex.ofBlocks document.blocks],
      (LinksTo document.id index (Target.marker ++ g) b ↔ found) ∧
      (LinksTo document.id index (document.id ++ Target.marker ++ g) b ↔
        Text.occursIn Target.marker document.id = false ∧
          (Text.isBlankText document.id ∨ Text.trim document.id = document.id) ∧ found) := by
  rw [compile_blocks] at h
  simp only [compile_blocks, compile_id]
  have hblank := isBlankText_of_anchor h.anchor
  have hlocal : Target.ofLink? (Target.marker ++ g) = some ⟨none, Text.trim g⟩ := by
    have hnone : Text.occursIn Target.marker "" = false := by decide
    have hlink := Target.ofLink?_between hnone g
    rw [String.empty_append, Target.ofParts?_of_not_blank hblank] at hlink
    exact hlink
  obtain ⟨t, ht, hplain, hmarked⟩ :=
    Target.exists_ofLink?_append hblank (compiler.scope options text).documentId
  refine ⟨by simp [hlocal], by simp [ht], fun index hindex => ?_⟩
  have hknows : index.Knows (compiler.finalBlocks options text) := by
    rcases List.mem_pair.mp hindex with rfl | rfl
    · exact compiler.knows_index options text
    · exact BlockIndex.knows_ofBlocks _
  have hstands : StandsFor (compiler.finalBlocks options text) (Text.trim g) b ↔
      (Text.trim g = g ∨ Text.trim g = b.id ∧
        ∀ c ∈ allBlocks (compiler.finalBlocks options text), c.anchor? ≠ some (Text.trim g)) := by
    rw [StandsFor, h.anchor, Option.some.injEq, eq_comm]
  have hresolve := h.resolveTarget_iff hknows (compiler.nodup_finalBlocks options text)
    (compiler.scope options text).documentId
  rw [linksTo_iff hlocal, linksTo_iff ht, hresolve, hresolve, ← hstands]
  refine ⟨by simp [Target.isElsewhere], ?_⟩
  cases hoccurs : Text.occursIn Target.marker (compiler.scope options text).documentId with
  | false =>
      obtain rfl := hplain hoccurs
      rw [Target.isElsewhere_ofParts]
      simp
  | true =>
      have hnot := not_standsFor h (hmarked hoccurs)
      simp [hnot]

/-- A text with a heading that has an anchor. -/
def headingText : String := "# A \x7b#a\x7d\n"

theorem anchor_links_of_heading :
    let compiler := Compiler.default
    let options : CompileOptions := ⟨none, some "d"⟩
    let document := (compiler.compile options headingText).document
    ∃ b, SoleClaimant document.blocks "a" b ∧
      LinksTo document.id (compiler.index options headingText) (Target.marker ++ "a") b ∧
      LinksTo document.id (compiler.index options headingText)
        (document.id ++ Target.marker ++ "a") b := by
  intro compiler options document
  have hcount : ((compiler.authored headingText).map fun x => x.2.data.anchor?).count (some "a") =
      1 := by decide +kernel
  obtain ⟨b, hb⟩ := exists_soleClaimant options hcount
  have hsole : SoleClaimant document.blocks "a" b := by
    rw [compile_blocks]
    exact hb
  have hid : document.id = "d" := by
    rw [compile_id]
    rfl
  obtain ⟨-, -, hlinks⟩ := anchor_links_iff compiler options headingText hsole
  obtain ⟨hlocal, hfull⟩ := hlinks _ List.mem_cons_self
  have hfound : Text.trim "a" = "a" := by decide +kernel
  refine ⟨b, hsole, hlocal.mpr (Or.inl hfound), hfull.mpr ⟨?_, Or.inr ?_, Or.inl hfound⟩⟩
  · rw [hid]
    decide +kernel
  · rw [hid]
    decide +kernel

/-- A text with a card whose anchor has blanks around it, and a link to it. -/
def blankedText : String := "```ui:card\nglyph-id: \" a \"\n```\n\n[x](<#glyph: a >)\n"

theorem blankedText_links :
    let compiler := Compiler.default
    let options : CompileOptions := ⟨none, some "d"⟩
    let document := (compiler.compile options blankedText).document
    ∃ b, SoleClaimant document.blocks " a " b ∧
      ¬ LinksTo document.id (compiler.index options blankedText) (Target.marker ++ " a ") b := by
  intro compiler options
  simp only [compile_blocks]
  have hcount : ((compiler.authored blankedText).map fun x => x.2.data.anchor?).count
      (some " a ") = 1 := by decide +kernel
  obtain ⟨b, hb⟩ := exists_soleClaimant options hcount
  have htarget : Target.ofLink? (Target.marker ++ " a ") = some ⟨none, "a"⟩ := by decide +kernel
  refine ⟨b, hb, ?_⟩
  rw [linksTo_iff htarget, hb.resolveTarget_iff (compiler.knows_index options blankedText)
    (compiler.nodup_finalBlocks options blankedText)]
  rintro ⟨-, hanchor | ⟨hid, -⟩⟩
  · have heq := Option.some.inj (hb.anchor.symm.trans hanchor)
    exact absurd heq (by decide)
  · have hlength := (compiler.isBlockId_of_mem options blankedText
      (List.mem_map.mpr ⟨b, hb.mem, rfl⟩)).two_le_length
    rw [← hid] at hlength
    exact absurd hlength (by decide)

end Compiler

end BlockDoc
