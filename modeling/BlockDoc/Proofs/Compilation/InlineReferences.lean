import BlockDoc.Proofs.Compilation.Depth
import BlockDoc.Proofs.Compilation.ExplicitReferences
import BlockDoc.Proofs.Texts

/-!
The inline references of a document. A block makes one reference for each link
to a target in the texts of its mapping. The texts that became blocks are left
to these, and the content of a section is overlooked when it is neither text
nor blocks.
-/

namespace BlockDoc

/-! ### Texts that became blocks -/

section Compiled

variable {β γ : Type}

/-- The text of a section in whose place there are blocks. -/
def Section.compiledTexts : Section β → Section γ → List String
  | .entry _ (some (.markdown text)), .entry _ (some (.blocks _)) => [text]
  | _, _ => []

/-- The texts of the sections of some data in whose places other data have blocks. -/
def BlockData.compiledTexts (before : BlockData β) (data : BlockData γ) : List String :=
  (List.zipWith Section.compiledTexts before.sections data.sections).flatten

theorem Section.compiledTexts_of_no_text {s : Section β} (h : s.hasMarkdown = false)
    (s' : Section γ) : s.compiledTexts s' = [] := by
  cases s with
  | malformed v => rfl
  | entry props content =>
      obtain _ | text | bs | v := content
      case some.markdown => exact absurd h (by simp [Section.hasMarkdown])
      all_goals rfl

/-- Sections keep their texts, up to those that became blocks. -/
def KeepsTexts (s : Section β) (s' : Section γ) : Prop :=
  s.texts.Perm (s.compiledTexts s' ++ s'.texts)

theorem keepsTexts_self {s : Section β} (h : s.compiledTexts s = []) : KeepsTexts s s := by
  rw [KeepsTexts, h]
  exact List.Perm.refl _

theorem texts_perm_of_sections {ss : List (Section β)} {ss' : List (Section γ)}
    (h : List.Forall₂ KeepsTexts ss ss') :
    (ss.flatMap Section.texts).Perm
      ((List.zipWith Section.compiledTexts ss ss').flatten ++ ss'.flatMap Section.texts) := by
  induction h with
  | nil => exact List.Perm.nil
  | cons hhead hrest ih =>
      rename_i s s' rest rest'
      have hboth := List.Perm.append hhead ih
      have hswap := List.perm_append_comm_assoc s'.texts
        (List.zipWith Section.compiledTexts rest rest').flatten (rest'.flatMap Section.texts)
      simp only [List.flatMap_cons, List.zipWith_cons_cons, List.flatten_cons, List.append_assoc]
        at hboth ⊢
      exact hboth.trans (hswap.append_left _)

theorem BlockData.texts_perm {data : BlockData β} {data' : BlockData γ}
    (hprops : data.props? = data'.props?)
    (hsections : List.Forall₂ KeepsTexts data.sections data'.sections) :
    data.texts.Perm (data.compiledTexts data' ++ data'.texts) := by
  have hperm := (texts_perm_of_sections hsections).append_left (data'.props?.getD []).texts
  rw [BlockData.texts, BlockData.texts, BlockData.compiledTexts, hprops]
  exact hperm.trans (List.perm_append_comm_assoc _ _ _)

end Compiled

/-! ### References in texts -/

/-- The reference that a block makes by a link. -/
def Block.linkReference? (b : Block) (link : String × String) : Option Reference :=
  (Target.ofLink? link.1).map fun target =>
    ⟨.inline, b.id, some (b.anchor?.getD b.id), target, none,
      if link.2.isEmpty then none else some link.2, none⟩

/-- The references that a block makes by the links in a text. -/
def Block.textReferences (b : Block) (text : String) : List Reference :=
  (linksOfText text).filterMap b.linkReference?

theorem inlineReferences_eq (b : Block) :
    inlineReferences b = (dataLinks b.data).filterMap b.linkReference? := rfl

theorem perm_iff_eq_nil {α : Type} {l a b : List α} (h : l.Perm (a ++ b)) :
    l.Perm a ↔ b = [] := by
  constructor
  · intro hperm
    have hlength := (hperm.symm.trans h).length_eq
    rw [List.length_append] at hlength
    exact List.eq_nil_of_length_eq_zero (by omega)
  · rintro rfl
    simpa using h

theorem Block.flatMap_textReferences (b : Block) (texts : List String) :
    texts.flatMap b.textReferences = (texts.flatMap linksOfText).filterMap b.linkReference? := by
  rw [List.filterMap_flatMap]
  rfl

/-- The texts of a component give its references, and those in contents that are overlooked. -/
theorem Block.references_perm {b : Block} (h : b.data.props?.isSome) :
    (b.data.texts.flatMap b.textReferences).Perm
      (inlineReferences b ++ b.data.otherTexts.flatMap b.textReferences) := by
  rw [b.flatMap_textReferences, b.flatMap_textReferences, inlineReferences_eq,
    ← List.filterMap_append]
  exact (BlockData.links_perm h).filterMap _

theorem extractReferences_of_block {bs : List Block} (h : (blockIds bs).Nodup) {b : Block}
    (hb : b ∈ allBlocks bs) :
    (extractReferences bs).filter (fun r => r.sourceBlockId = b.id) = inlineReferences b := by
  have hkeys : (((allBlocks bs).map fun c => (c.id, c)).map (·.1)).Nodup := by
    simpa [blockIds, Function.comp_def] using h
  have hmem : (b.id, b) ∈ (allBlocks bs).map fun c => (c.id, c) :=
    List.mem_map.mpr ⟨b, hb, rfl⟩
  have hsources : ∀ c : Block, ∀ r ∈ inlineReferences c, r.sourceBlockId = c.id :=
    fun c r hr => (inlineReferences_spec hr).1.block
  have hone := flatMap_of_key hkeys hmem
    (f := fun x => (inlineReferences x.2).filter fun r => r.sourceBlockId = b.id) (by
      intro x hx hne
      obtain ⟨c, -, rfl⟩ := List.mem_map.mp hx
      refine List.filter_eq_nil_iff.mpr fun r hr => ?_
      simpa [hsources c r hr] using hne)
  rw [List.flatMap_map] at hone
  rw [extractReferences, List.filter_flatMap, hone]
  exact List.filter_eq_self.mpr fun r hr => by simpa using hsources b r hr

/-! ### The document -/

namespace Compiler

section Inline

variable {compiler : Compiler} {options : CompileOptions} {text : String} {p : BlockPath}
  {d : Draft} {b : Block}

theorem Holds.exists_body {around : Nat} (h : compiler.Holds options text around p d b)
    (hprops : b.data.props?.isSome) :
    ∃ details body,
      Draft.ofContent? compiler.registry (.code (some b.kind) details body) = some d ∧
        d.data = (Component.read compiler.registry b.kind body).data := by
  obtain ⟨hkind, hshell⟩ := Prod.mk.inj h.shell
  obtain ⟨content, hcontent⟩ := exists_content_of_authored h.written
  rcases Draft.ofContent_cases hcontent with
    ⟨kind, data, hnone, rfl⟩ | ⟨kind, details, body, rfl, rfl⟩
  · have hprops' : b.data.props? = none := by
      rw [← BlockData.props_shell, hshell, BlockData.props_shell]
      exact hnone
    exact absurd hprops (by simp [hprops'])
  · obtain rfl : b.kind = kind := hkind
    exact ⟨details, body, hcontent, rfl⟩

/-- A block keeps the texts of its draft, up to those that became blocks. -/
theorem Holds.texts_perm {around : Nat} (h : compiler.Holds options text around p d b)
    (hdepth : around ≤ compiler.maxDepth) :
    d.data.texts.Perm (d.data.compiledTexts b.data ++ b.data.texts) := by
  have hshell : b.data.shell = d.data.shell := congrArg (·.2) h.shell
  have hprops : d.data.props? = b.data.props? := by
    rw [← BlockData.props_shell, ← hshell, BlockData.props_shell]
  have hlength := BlockData.length_sections_of_shell hshell
  refine BlockData.texts_perm hprops ?_
  refine List.forall₂_iff_get.mpr ⟨hlength.symm, fun i hi hi' => ?_⟩
  have hs : d.data.sections[i]? = some (d.data.sections.get ⟨i, hi⟩) := List.getElem?_eq_getElem hi
  have hs' : b.sections[i]? = some (b.data.sections.get ⟨i, hi'⟩) := List.getElem?_eq_getElem hi'
  generalize d.data.sections.get ⟨i, hi⟩ = s at hs ⊢
  generalize b.data.sections.get ⟨i, hi'⟩ = s' at hs' ⊢
  cases htext : s.hasMarkdown with
  | false =>
      obtain rfl := Option.some.inj ((h.kept i s hs htext).symm.trans hs')
      exact keepsTexts_self (Section.compiledTexts_of_no_text htext s)
  | true =>
      obtain ⟨props, nested, rfl⟩ := Section.exists_text htext
      rcases Nat.lt_or_eq_of_le hdepth with habove | hlimit
      · obtain ⟨bs, hbs, -⟩ := h.above habove i props nested hs
        obtain rfl := Option.some.inj (hbs.symm.trans hs')
        exact List.perm_append_comm
      · rw [Block.sections, h.atLimit hlimit, hs] at hs'
        obtain rfl := Option.some.inj hs'
        exact keepsTexts_self rfl

/-- The references in an authored mapping are those of its block, those in texts that became
blocks, and those in contents that are overlooked. -/
theorem Holds.references_perm {around : Nat} (h : compiler.Holds options text around p d b)
    (hdepth : around ≤ compiler.maxDepth) (hprops : b.data.props?.isSome) {body : String}
    (hdata : d.data = (Component.read compiler.registry b.kind body).data) :
    ((Component.readProps b.kind body).1.texts.flatMap b.textReferences).Perm
      (inlineReferences b ++ (d.data.compiledTexts b.data).flatMap b.textReferences ++
        b.data.otherTexts.flatMap b.textReferences) := by
  have hread := Component.texts_read compiler.registry b.kind body
  rw [← hdata] at hread
  calc List.Perm ((Component.readProps b.kind body).1.texts.flatMap b.textReferences)
        ((d.data.compiledTexts b.data ++ b.data.texts).flatMap b.textReferences) :=
        (hread.trans (h.texts_perm hdepth)).flatMap_right _
    _ = (d.data.compiledTexts b.data).flatMap b.textReferences ++
          b.data.texts.flatMap b.textReferences := List.flatMap_append
    List.Perm _ ((d.data.compiledTexts b.data).flatMap b.textReferences ++
          (inlineReferences b ++ b.data.otherTexts.flatMap b.textReferences)) :=
        (Block.references_perm hprops).append_left _
    List.Perm _ (inlineReferences b ++ ((d.data.compiledTexts b.data).flatMap b.textReferences ++
          b.data.otherTexts.flatMap b.textReferences)) := List.perm_append_comm_assoc _ _ _
    _ = _ := (List.append_assoc _ _ _).symm

end Inline

/-- The references that are found in the blocks of a document come block by
block, depth first. Those of a component are the ones that the texts of its
authored mapping give, at any depth, one for each link to a target; texts that
became blocks are left to these. None is missing if and only if no content of a
section that is neither text nor blocks has such a link. -/
theorem inline_references_of_authored_texts (compiler : Compiler) (options : CompileOptions)
    (text : String) :
    let blocks := (compiler.compile options text).document.blocks
    let own := fun b : Block =>
      (extractReferences blocks).filter fun r => r.sourceBlockId = b.id
    extractReferences blocks = (allBlocks blocks).flatMap own ∧
    (∀ b ∈ allBlocks blocks, ∀ r ∈ own b, r.ComesFrom b ∧ r.kind = .inline) ∧
    ∀ p b, blockAt? p blocks = some b → b.data.props?.isSome →
      ∃ d details body, compiler.Holds options text p.depth p d b ∧
        Draft.ofContent? compiler.registry (.code (some b.kind) details body) = some d ∧
        let written := (Component.readProps b.kind body).1.texts.flatMap b.textReferences
        let compiled := (d.data.compiledTexts b.data).flatMap b.textReferences
        written.Perm (own b ++ compiled ++ b.data.otherTexts.flatMap b.textReferences) ∧
          (written.Perm (own b ++ compiled) ↔
            ∀ other ∈ b.data.otherTexts, b.textReferences other = []) := by
  simp only [compile_blocks]
  have hown : ∀ b ∈ allBlocks (compiler.finalBlocks options text),
      (extractReferences (compiler.finalBlocks options text)).filter
        (fun r => r.sourceBlockId = b.id) = inlineReferences b :=
    fun b hb => extractReferences_of_block (compiler.nodup_finalBlocks options text) hb
  refine ⟨?_, fun b hb r hr => ?_, fun p b hp hprops => ?_⟩
  · exact List.flatMap_congr fun b hb => (hown b hb).symm
  · rw [hown b hb] at hr
    obtain ⟨hfrom, hkind, -⟩ := inlineReferences_spec hr
    exact ⟨hfrom, hkind⟩
  · obtain ⟨hdepth, d, hholds⟩ := exists_holds hp
    obtain ⟨details, body, hcontent, hdata⟩ := hholds.exists_body hprops
    have hperm := hholds.references_perm hdepth hprops hdata
    refine ⟨d, details, body, hholds, hcontent, ?_⟩
    rw [hown b (mem_allBlocks.mpr ⟨p, hp⟩)]
    refine ⟨hperm, ?_⟩
    rw [perm_iff_eq_nil hperm]
    exact List.flatMap_eq_nil_iff

/-- A text with a link in the content of a section that is a list. -/
def overlookedText : String :=
  "```ui:tabs\ntabs: [\x7blabel: x, content: [\"[a](#glyph:a)\"]\x7d]\n```\n# A \x7b#a\x7d\n"

theorem overlookedText_references :
    let compiler := Compiler.default
    let options : CompileOptions := ⟨none, some "d"⟩
    let blocks := (compiler.compile options overlookedText).document.blocks
    ∃ p b d details body, blockAt? p blocks = some b ∧ b.data.props?.isSome ∧
      compiler.Holds options overlookedText p.depth p d b ∧
      Draft.ofContent? compiler.registry (.code (some b.kind) details body) = some d ∧
      ¬ ((Component.readProps b.kind body).1.texts.flatMap b.textReferences).Perm
        ((extractReferences blocks).filter (fun r => r.sourceBlockId = b.id) ++
          (d.data.compiledTexts b.data).flatMap b.textReferences) := by
  intro compiler options
  rw [compile_blocks]
  -- the list in the content of the first draft holds the link
  have hdrafts : ((compiler.authored overlookedText).map fun x =>
      (x.1, x.2.data.props?.isSome, x.2.data.otherTexts)) =
        [([0], true, ["[a](#glyph:a)"]), ([1], false, [])] := by decide +kernel
  have hfirst : ([0], true, ["[a](#glyph:a)"]) ∈ (compiler.authored overlookedText).map fun x =>
      (x.1, x.2.data.props?.isSome, x.2.data.otherTexts) := by
    rw [hdrafts]
    exact List.mem_cons_self
  obtain ⟨⟨p, d₀⟩, hd₀, heq⟩ := List.mem_map.mp hfirst
  obtain ⟨-, heq⟩ := Prod.mk.inj heq
  obtain ⟨hprops₀, hother₀⟩ := Prod.mk.inj heq
  obtain ⟨b, hb⟩ := compiler.exists_standsAt options overlookedText hd₀
  have hshell : b.data.shell = d₀.data.shell := congrArg (·.2) hb.shell
  have hother : b.data.otherTexts = ["[a](#glyph:a)"] := by
    rw [BlockData.otherTexts_of_shell hshell, hother₀]
  have hprops : b.data.props?.isSome := by
    rw [← BlockData.props_shell, hshell, BlockData.props_shell, hprops₀]
  have hreference : b.textReferences "[a](#glyph:a)" ≠ [] := by
    have hlinks : linksOfText "[a](#glyph:a)" = [("#glyph:a", "a")] := by decide +kernel
    have htarget : Target.ofLink? "#glyph:a" = some ⟨none, "a"⟩ := by decide +kernel
    simp [Block.textReferences, Block.linkReference?, hlinks, htarget]
  obtain ⟨hdepth, d, hholds⟩ := exists_holds hb.block
  obtain ⟨details, body, hcontent, hdata⟩ := hholds.exists_body hprops
  have hperm := hholds.references_perm hdepth hprops hdata
  have hown := extractReferences_of_block (compiler.nodup_finalBlocks options overlookedText)
    (mem_allBlocks.mpr ⟨p, hb.block⟩)
  refine ⟨p, b, d, details, body, hb.block, hprops, hholds, hcontent, ?_⟩
  rw [hown, perm_iff_eq_nil hperm, hother]
  simpa using hreference

end Compiler

end BlockDoc
