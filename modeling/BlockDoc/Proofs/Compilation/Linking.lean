import BlockDoc.Proofs.Compilation.AnchorLinks
import BlockDoc.Proofs.Compilation.InlineReferences

/-!
Linking documents. The references that a compilation leaves are resolved once
more against other documents, one after the other. Each reference gets the
block of the first document in which its target points at one, and a target
that names a document points at blocks of that document only. A target that
names none is taken to lie in whatever document it is linked to.
-/

namespace BlockDoc

namespace Document

/-- The block of a document that a target points at. -/
def blockOf? (d : Document) (t : Target) : Option String :=
  (resolveTarget d.id (BlockIndex.ofBlocks d.blocks) t).toOption

/-- Resolves references against a document. -/
def link (d : Document) (rs : List Reference) : List Reference :=
  (resolveReferences d.id (BlockIndex.ofBlocks d.blocks) rs).1

theorem blockOf?_eq_some_iff {d : Document} {t : Target} {id : String} :
    d.blockOf? t = some id ↔ resolveTarget d.id (BlockIndex.ofBlocks d.blocks) t = .ok id := by
  rw [blockOf?]
  cases resolveTarget d.id (BlockIndex.ofBlocks d.blocks) t <;> simp [Except.toOption]

theorem mem_blockIds_of_blockOf? {d : Document} {t : Target} {id : String}
    (h : d.blockOf? t = some id) : id ∈ blockIds d.blocks := by
  have hknows := BlockIndex.knows_ofBlocks d.blocks
  rcases resolveTarget_eq_ok (blockOf?_eq_some_iff.mp h) with hclaimant | ⟨rfl, hcontains⟩
  · exact hknows.mem_blockIds hclaimant
  · exact (hknows.contains _).mp hcontains

/-- A target that names a document points at no block of another one. -/
theorem eq_id_of_blockOf? {d : Document} {t : Target} {id name : String}
    (h : d.blockOf? t = some id) (hname : t.document = some name) : name = d.id := by
  obtain ⟨hhere, -⟩ := resolveTarget_eq_ok_iff.mp (blockOf?_eq_some_iff.mp h)
  simpa [Target.isElsewhere, hname] using hhere

theorem blockOf?_eq_none_iff {d : Document} {t : Target} (h : t.document = none) :
    d.blockOf? t = none ↔
      2 ≤ (allBlocks d.blocks).countP (fun b => b.anchor? = some t.id) ∨
        ∀ b ∈ allBlocks d.blocks, b.anchor? ≠ some t.id ∧ b.id ≠ t.id := by
  have hknows := BlockIndex.knows_ofBlocks d.blocks
  have herror : d.blockOf? t = none ↔
      ∃ cause, resolveTarget d.id (BlockIndex.ofBlocks d.blocks) t = .error cause := by
    rw [blockOf?]
    cases resolveTarget d.id (BlockIndex.ofBlocks d.blocks) t <;> simp [Except.toOption]
  have hhere : t.isElsewhere d.id = false := by simp [Target.isElsewhere, h]
  rw [herror, resolveTarget_error_iff, hhere, hknows.length_claimants, hknows.not_named_iff]
  simp

end Document

/-! ### Linking to one document and to several -/

/-- A reference with a block, unless it has one already. -/
def Reference.orBlock (r : Reference) (found : Option String) : Reference :=
  { r with resolvedBlockId := r.resolvedBlockId.or found }

theorem Reference.orBlock_orBlock (r : Reference) (found more : Option String) :
    (r.orBlock found).orBlock more = r.orBlock (found.or more) := by
  simp [orBlock, Option.or_assoc]

theorem Reference.resolve_eq_orBlock (d : Document) (r : Reference) :
    (r.resolve d.id (BlockIndex.ofBlocks d.blocks)).1 = r.orBlock (d.blockOf? r.target) := by
  obtain ⟨kind, source, anchor, target, relation, label, resolved⟩ := r
  cases resolved with
  | some id => rfl
  | none =>
      rw [Document.blockOf?]
      cases htarget : resolveTarget d.id (BlockIndex.ofBlocks d.blocks) target with
      | ok id =>
          rw [Reference.resolve_of_ok rfl htarget]
          rfl
      | error cause =>
          rw [Reference.resolve_of_error rfl htarget]
          rfl

theorem Document.link_eq (d : Document) (rs : List Reference) :
    d.link rs = rs.map fun r => r.orBlock (d.blockOf? r.target) :=
  List.map_congr_left fun r _ => Reference.resolve_eq_orBlock d r

/-- Links references to documents, one after the other. -/
def linkAll (documents : List Document) (rs : List Reference) : List Reference :=
  documents.foldl (fun rs d => d.link rs) rs

/-- Each reference gets the block of the first document that has one for it. -/
theorem linkAll_eq (documents : List Document) (rs : List Reference) :
    linkAll documents rs = rs.map fun r =>
      r.orBlock (documents.findSome? fun d => d.blockOf? r.target) := by
  induction documents generalizing rs with
  | nil =>
      have hself : ∀ r : Reference, r.orBlock none = r := fun r => by simp [Reference.orBlock]
      simp [linkAll, hself]
  | cons d documents ih =>
      have hrest := ih (d.link rs)
      rw [linkAll] at hrest
      rw [linkAll, List.foldl_cons, hrest, Document.link_eq, List.map_map]
      refine List.map_congr_left fun r _ => ?_
      have htarget : (r.orBlock (d.blockOf? r.target)).target = r.target := rfl
      rw [Function.comp_apply, htarget, Reference.orBlock_orBlock, List.findSome?_cons]
      cases d.blockOf? r.target <;> rfl

/-- Linking leaves each reference with the block that it had, or gives it a block of a document
that it names. -/
def LinksNamed (documents : List Document) (rs : List Reference) : Prop :=
  List.Forall₂ (fun r r' => ∀ id, r'.resolvedBlockId = some id →
    r.resolvedBlockId = some id ∨
      ∃ d ∈ documents, r.target.document = some d.id ∧ id ∈ blockIds d.blocks)
    rs (linkAll documents rs)

theorem linksNamed_iff (documents : List Document) (rs : List Reference) :
    LinksNamed documents rs ↔ ∀ r ∈ rs, r.resolvedBlockId = none → r.target.document = none →
      ∀ d ∈ documents, d.blockOf? r.target = none := by
  rw [LinksNamed, linkAll_eq, List.forall₂_map_right_iff, List.forall₂_same]
  refine forall₂_congr fun r _ => ?_
  constructor
  · intro hnamed hnone hlocal d hd
    by_contra hsome
    have hfound : (documents.findSome? fun d => d.blockOf? r.target).isSome :=
      List.findSome?_isSome_iff.mpr ⟨d, hd, Option.isSome_iff_ne_none.mpr hsome⟩
    obtain ⟨id, hid⟩ := Option.isSome_iff_exists.mp hfound
    rcases hnamed id (by simp [Reference.orBlock, hnone, hid]) with hold | ⟨d', -, hname, -⟩
    · rw [hnone] at hold
      exact nomatch hold
    · rw [hlocal] at hname
      exact nomatch hname
  · intro hlocal id hid
    cases hresolved : r.resolvedBlockId with
    | some old =>
        simp only [Reference.orBlock, hresolved, Option.some_or] at hid
        exact Or.inl hid
    | none =>
        simp only [Reference.orBlock, hresolved, Option.none_or] at hid
        obtain ⟨d, hd, hblock⟩ := List.exists_of_findSome?_eq_some hid
        cases hname : r.target.document with
        | none =>
            rw [hlocal hresolved hname d hd] at hblock
            exact nomatch hblock
        | some name =>
            obtain rfl := Document.eq_id_of_blockOf? hblock hname
            exact Or.inr ⟨d, hd, rfl, Document.mem_blockIds_of_blockOf? hblock⟩

namespace Compiler

/-- However many documents the references of a document are linked to, in any
order, a reference keeps the block that it has, and any other gets the block of
the first document in which its target points at one; a target that names a
document points at blocks of that one only. No reference is linked to a
document that it does not name if and only if each target that names no
document and has no block in its own document is ambiguous or missing in all
the others. -/
theorem linking_follows_names_iff (compiler : Compiler) (options : CompileOptions)
    (text : String) (documents : List Document) :
    let references := (compiler.compile options text).document.references
    linkAll documents references = references.map (fun r =>
      r.orBlock (documents.findSome? fun d => d.blockOf? r.target)) ∧
    (∀ d ∈ documents, ∀ t id, d.blockOf? t = some id →
      id ∈ blockIds d.blocks ∧ ∀ name, t.document = some name → name = d.id) ∧
    (LinksNamed documents references ↔
      ∀ r ∈ references, r.resolvedBlockId = none → r.target.document = none →
        ∀ d ∈ documents,
          2 ≤ (allBlocks d.blocks).countP (fun b => b.anchor? = some r.target.id) ∨
            ∀ b ∈ allBlocks d.blocks, b.anchor? ≠ some r.target.id ∧ b.id ≠ r.target.id) := by
  intro references
  refine ⟨linkAll_eq documents references, fun d _ t id h => ?_, ?_⟩
  · exact ⟨Document.mem_blockIds_of_blockOf? h, fun name => Document.eq_id_of_blockOf? h⟩
  · rw [linksNamed_iff]
    refine forall₄_congr fun r _ _ hlocal => forall₂_congr fun d _ => ?_
    exact Document.blockOf?_eq_none_iff hlocal

theorem exists_reference_of_link {compiler : Compiler} {options : CompileOptions} {text : String}
    {b : Block} (hb : b ∈ allBlocks (compiler.finalBlocks options text)) {link : String × String}
    (hlink : link ∈ dataLinks b.data) {t : Target} (ht : Target.ofLink? link.1 = some t) :
    ∃ r ∈ (compiler.compile options text).document.references, r.target = t := by
  have hreference : ∃ r, b.linkReference? link = some r ∧ r.target = t := by
    rw [Block.linkReference?, ht]
    exact ⟨_, rfl, rfl⟩
  obtain ⟨r, hr, htarget⟩ := hreference
  have hinline : r ∈ inlineReferences b := List.mem_filterMap.mpr ⟨link, hlink, hr⟩
  have hunresolved : r ∈ compiler.unresolved options text :=
    List.mem_append_right _ (List.mem_flatMap.mpr ⟨b, hb, hinline⟩)
  rw [compile_references]
  refine ⟨_, List.mem_map.mpr ⟨r, hunresolved, rfl⟩, ?_⟩
  rw [Reference.resolve_eq, htarget]

theorem toOption_resolveTarget_of_not_named {documentId : String} {index : BlockIndex}
    {bs : List Block} (h : index.Knows bs) {t : Target}
    (hname : ∀ b ∈ allBlocks bs, b.anchor? ≠ some t.id ∧ b.id ≠ t.id) :
    (resolveTarget documentId index t).toOption = none := by
  obtain ⟨cause, hcause⟩ :=
    (resolveTarget_error_iff t).mpr (Or.inr (Or.inr ((h.not_named_iff t.id).mpr hname)))
  rw [hcause]
  rfl

theorem dataLinks_shell {β : Type} {data : BlockData β} (h : data.props? = none) :
    dataLinks data.shell = dataLinks data := by
  cases data with
  | container c => exact absurd h nofun
  | _ => rfl

/-- A text with a link to an anchor that it does not have. -/
def strayText : String := "[x](#glyph:x)\n"

/-- Another text, which has that anchor. -/
def strangerText : String := "# X \x7b#x\x7d\n"

theorem strayText_links :
    let source := (Compiler.default.compile ⟨none, some "a"⟩ strayText).document
    let other := (Compiler.default.compile ⟨none, some "b"⟩ strangerText).document
    source.id ≠ other.id ∧ ∃ r ∈ source.references, r.resolvedBlockId = none ∧
      r.target.document = none ∧ ∃ b ∈ allBlocks other.blocks,
        { r with resolvedBlockId := some b.id } ∈ linkAll [other] source.references := by
  have hdrafts : ((Compiler.default.authored strayText).map fun x =>
      (x.2.data.props?.isNone, dataLinks x.2.data)) = [(true, [("#glyph:x", "x")])] := by
    decide +kernel
  have hfree : some "x" ∉ (Compiler.default.authored strayText).map fun x => x.2.data.anchor? := by
    decide +kernel
  have hcount : ((Compiler.default.authored strangerText).map fun x => x.2.data.anchor?).count
      (some "x") = 1 := by decide +kernel
  have htarget : Target.ofLink? "#glyph:x" = some ⟨none, "x"⟩ := by decide +kernel
  -- the only block of the first text has the link
  obtain ⟨⟨p, d⟩, hd, heq⟩ := List.mem_map.mp (hdrafts ▸ List.mem_cons_self)
  obtain ⟨hprops, hlinks⟩ := Prod.mk.inj heq
  obtain ⟨b, hb⟩ := exists_standsAt Compiler.default ⟨none, some "a"⟩ strayText hd
  have hlink : ("#glyph:x", "x") ∈ dataLinks b.data := by
    have hshell : b.data.shell = d.data.shell := congrArg (·.2) hb.shell
    have hnone : b.data.props? = none := by
      rw [← BlockData.props_shell, hshell, BlockData.props_shell]
      exact Option.isNone_iff_eq_none.mp hprops
    rw [← dataLinks_shell hnone, hshell, dataLinks_shell (Option.isNone_iff_eq_none.mp hprops),
      hlinks]
    exact List.mem_cons_self
  -- no block there has the anchor, and ids are longer
  have hmissing : (resolveTarget "a" (Compiler.default.index ⟨none, some "a"⟩ strayText)
      ⟨none, "x"⟩).toOption = none := by
    refine toOption_resolveTarget_of_not_named (knows_index _ _ _)
      fun c hc => ⟨fun hanchor => hfree ?_, fun hid => ?_⟩
    · rw [← map_anchor_finalBlocks ⟨none, some "a"⟩]
      exact List.mem_map.mpr ⟨c, hc, hanchor⟩
    · have hlength := (isBlockId_of_mem Compiler.default ⟨none, some "a"⟩ strayText
        (List.mem_map.mpr ⟨c, hc, rfl⟩)).two_le_length
      rw [hid] at hlength
      exact absurd hlength (by decide)
  obtain ⟨r, hr, hrtarget⟩ := exists_reference_of_link hb.mem hlink htarget
  obtain ⟨c, hc⟩ := exists_soleClaimant ⟨none, some "b"⟩ hcount
  have hsource : (Compiler.default.scope ⟨none, some "a"⟩ strayText).documentId = "a" := rfl
  have hother : (Compiler.default.scope ⟨none, some "b"⟩ strangerText).documentId = "b" := rfl
  have hblock : (Compiler.default.compile ⟨none, some "b"⟩ strangerText).document.blockOf?
      ⟨none, "x"⟩ = some c.id := by
    rw [Document.blockOf?_eq_some_iff, compile_id, compile_blocks,
      hc.resolveTarget_iff (BlockIndex.knows_ofBlocks _) (nodup_finalBlocks _ _ _)]
    exact ⟨rfl, Or.inl hc.anchor⟩
  have hnone := resolvedBlockId_of_mem hr
  rw [hsource, hrtarget, hmissing] at hnone
  refine ⟨?_, r, hr, hnone, by rw [hrtarget], c, ?_, ?_⟩
  · rw [compile_id, compile_id, hsource, hother]
    decide
  · rw [compile_blocks]
    exact hc.mem
  · rw [linkAll_eq]
    refine List.mem_map.mpr ⟨r, hr, ?_⟩
    simp [Reference.orBlock, hnone, hrtarget, hblock]

end Compiler

end BlockDoc
