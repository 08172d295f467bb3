import BlockDoc.Proofs.Component
import BlockDoc.Proofs.Compilation.Declarations
import BlockDoc.Proofs.Compilation.Diagnostics
import Mathlib.Algebra.GroupWithZero.Nat

/-!
The explicit references of a document. Each block with a field `refs` has the
references that its usable entries declare, in their order, wherever the block
stands; the other entries are reported, once each. The causes that are found in
components are those of the recorded drafts, which is shown by induction on the
levels of texts.
-/

namespace BlockDoc

/-! ### Causes found in components -/

/-- The causes among findings that lie in the bodies of components. -/
def Findings.componentCauses (f : Findings) : List Cause :=
  (f.diagnostics.map (·.cause)).filter Cause.isOfComponent

/-- The causes that drafts come with. -/
def causesOf (l : List (BlockPath × Draft)) : List Cause := l.flatMap (·.2.causes)

theorem Findings.componentCauses_append (f f' : Findings) :
    (f ++ f').componentCauses = f.componentCauses ++ f'.componentCauses := by
  simp [componentCauses]

theorem causesOf_indexed {α : Type} (f : α → List (BlockPath × Draft)) (index : Nat) (l : List α) :
    causesOf (BlockPath.indexed f index l) = l.flatMap fun x => causesOf (f x) := by
  induction l generalizing index with
  | nil => rfl
  | cons x l ih =>
      have hbelow : causesOf (BlockPath.below [index] (f x)) = causesOf (f x) := by
        simp [causesOf, BlockPath.below, List.flatMap_map]
      have hrest := ih (index + 1)
      rw [causesOf] at hrest hbelow
      rw [BlockPath.indexed_cons, causesOf, List.flatMap_append, hbelow, hrest, List.flatMap_cons]

theorem translateFrom_causes (scope : Scope) (index : Nat) (nodes : List Node) :
    (translateFrom scope index nodes).2.componentCauses =
      (draftsOf scope.registry nodes).flatMap (·.causes) := by
  induction nodes generalizing index with
  | nil => rfl
  | cons n rest ih =>
      cases hdraft : Draft.ofContent? scope.registry n.content with
      | none => simpa [translateFrom, draftsOf, hdraft] using ih index
      | some d =>
          have hall : ∀ c ∈ d.causes, c.isOfComponent := fun c hc =>
            Draft.isOfComponent_of_cause hdraft hc
          have hblock : (d.toBlock scope index (scope.positionOf n.position)).2.componentCauses =
              d.causes := by
            simp [Findings.componentCauses, Draft.toBlock, Function.comp_def]
            exact hall
          have hrest := ih (index + 1)
          simp only [draftsOf] at hrest
          simp only [translateFrom, hdraft, Findings.componentCauses_append, hblock, hrest,
            draftsOf, List.filterMap_cons, List.flatMap_cons]

variable {registry : Registry} {inner : Option TextCompiler} {compileText : TextCompiler}
  {found : String → List (BlockPath × Draft)}

/-- A compiler for texts finds the causes of the given drafts; without one there are none. -/
def FindsCauses (registry : Registry) (inner : Option TextCompiler)
    (found : String → List (BlockPath × Draft)) : Prop :=
  match inner with
  | none => ∀ text, found text = []
  | some compileText => ∀ scope : Scope, scope.registry = registry → ∀ text,
      (compileText scope text).2.componentCauses = causesOf (found text)

theorem compileSections_causes (h : FindsCauses registry (some compileText) found) {scope : Scope}
    (hscope : scope.registry = registry) (block : Nat) (position : Range) (index : Nat)
    (ss : List (Section Block)) :
    (compileSections compileText scope block position index ss).2.componentCauses =
      ss.flatMap fun s => causesOf (s.ofText found) := by
  induction ss generalizing index with
  | nil => rfl
  | cons s rest ih =>
      have hhead : (s.compile compileText (scope.enter block index position)).2.componentCauses =
          causesOf (s.ofText found) := by
        cases s with
        | malformed v => rfl
        | entry props content =>
            obtain _ | text | _ | _ := content
            case some.markdown => exact h (scope.enter block index position) hscope text
            all_goals rfl
      rw [compileSections_cons, Findings.componentCauses_append, hhead, ih (index + 1),
        List.flatMap_cons]

theorem compileBlock_causes (h : FindsCauses registry inner found) {scope : Scope}
    (hscope : scope.registry = registry) (index : Nat) (b : Block) :
    (compileBlock inner scope index b).2.componentCauses =
      b.sections.flatMap fun s => causesOf (s.ofText found) := by
  cases inner with
  | some compileText =>
      rw [compileBlock_some]
      exact compileSections_causes h hscope index b.position 0 b.sections
  | none =>
      have hnone : b.sections.flatMap (fun s => causesOf (s.ofText found)) = [] := by
        refine List.flatMap_eq_nil_iff.mpr fun s _ => ?_
        exact s.ofText_induction (P := fun l => causesOf l = []) rfl fun text =>
          congrArg causesOf (h text)
      rw [hnone]
      cases htext : b.hasMarkdown with
      | false =>
          rw [compileBlock_of_no_text none scope index htext]
          rfl
      | true =>
          rw [compileBlock_too_deep scope index htext]
          rfl

theorem compileBlocksFrom_causes (h : FindsCauses registry inner found) {scope : Scope}
    (hscope : scope.registry = registry) (index : Nat) (bs : List Block) :
    (compileBlocksFrom inner scope index bs).2.componentCauses =
      bs.flatMap fun b => b.sections.flatMap fun s => causesOf (s.ofText found) := by
  induction bs generalizing index with
  | nil => rfl
  | cons b bs ih =>
      rw [compileBlocksFrom, Findings.componentCauses_append, compileBlock_causes h hscope, ih,
        List.flatMap_cons]

/-- Adding a level: the causes in a text from the causes in the texts inside. -/
theorem compileWith_causes {levels : Nat}
    (h : FindsCauses registry inner (recorded registry levels)) :
    FindsCauses registry (some (compileWith inner)) (recorded registry (levels + 1)) := by
  intro scope hscope text
  have hblocks := congrArg (fun l => l.flatMap fun x : String × BlockData Block =>
    x.2.sections.flatMap fun s => causesOf (s.ofText (recorded registry levels)))
    (translateFrom_blocks scope 0 (Node.parse text))
  simp only [List.flatMap_map] at hblocks
  have hinside : ∀ d : Draft, causesOf (d.inside (recorded registry levels)) =
      d.data.sections.flatMap fun s => causesOf (s.ofText (recorded registry levels)) :=
    fun d => causesOf_indexed _ 0 d.data.sections
  have hrecorded : causesOf (recorded registry (levels + 1) text) =
      (draftsOf registry (Node.parse text)).flatMap (·.causes) ++
        (draftsOf registry (Node.parse text)).flatMap fun d =>
          causesOf (d.inside (recorded registry levels)) := by
    rw [recorded, causesOf, List.flatMap_append, ← causesOf, ← causesOf, causesOf_indexed,
      causesOf_indexed]
    simp [causesOf]
  rw [compileWith_eq, Findings.componentCauses_append, translate, translateFrom_causes,
    compileBlocksFrom_causes h hscope, hrecorded]
  simp only [Block.sections, hinside, hblocks, hscope]

theorem compilerAt_causes (registry : Registry) (levels : Nat) :
    FindsCauses registry (compilerAt levels) (recorded registry levels) := by
  induction levels with
  | zero => exact fun _ => rfl
  | succ levels ih => exact compileWith_causes ih

/-! ### Drafts -/

theorem exists_content_of_authored {levels : Nat} {text : String} {x : BlockPath × Draft}
    (h : x ∈ authored registry levels text) :
    ∃ content, Draft.ofContent? registry content = some x.2 := by
  induction levels generalizing text x with
  | zero => exact absurd h List.not_mem_nil
  | succ levels ih =>
      obtain ⟨p, d⟩ := x
      obtain ⟨i, d', rest, -, hd', hmem⟩ := BlockPath.mem_indexed.mp h
      rcases List.mem_cons.mp hmem with heq | hinside
      · obtain ⟨-, rfl⟩ := Prod.mk.inj heq
        obtain ⟨n, -, hn⟩ := List.mem_filterMap.mp (List.mem_of_getElem? hd')
        exact ⟨n.content, hn⟩
      · obtain ⟨j, s, rest', -, -, hs⟩ := BlockPath.mem_indexed.mp hinside
        refine s.ofText_induction (P := fun l => (rest', d) ∈ l → _) ?_ (fun text => ih) hs
        exact fun hnil => absurd hnil List.not_mem_nil

/-- A draft declares what the usable entries of its field `refs` declare. -/
theorem Draft.refs_eq (h : registry.LeavesRefs) {content : Content} {d : Draft}
    (hd : Draft.ofContent? registry content = some d) :
    d.refs = d.data.refEntries.filterMap Component.readRef? := by
  rcases Draft.ofContent_cases hd with ⟨kind, data, hnone, rfl⟩ | ⟨kind, -, value, -, rfl⟩
  · simp [plain, BlockData.refEntries_eq_nil hnone]
  · exact Component.refs_read kind value h

theorem Draft.countP_causes (h : registry.LeavesRefs) {content : Content} {d : Draft}
    (hd : Draft.ofContent? registry content = some d) :
    d.causes.countP (·.code = .invalidRef) = d.data.refFaults := by
  rcases Draft.ofContent_cases hd with ⟨kind, data, hnone, rfl⟩ | ⟨kind, -, value, -, rfl⟩
  · simp [plain, BlockData.refFaults_eq_zero hnone]
  · exact Component.countP_read kind value h

/-! ### The document -/

/-- What a reference declares, apart from its source. -/
def Reference.declared (r : Reference) : DeclaredRef := ⟨r.target, r.relation, r.label⟩

/-- The explicit references that have a block as their source. -/
def Document.explicitReferences (d : Document) (b : Block) : List Reference :=
  d.references.filter fun r => r.kind = .explicit ∧ r.sourceBlockId = b.id

theorem sum_refFaults (bs : List Block) : (bs.map (·.data.refFaults)).sum =
    (bs.map fun b => b.data.refEntries.countP (¬ Usable ·)).sum +
      bs.countP (·.data.refsNoArray) := by
  induction bs with
  | nil => rfl
  | cons b bs ih =>
      rw [List.map_cons, List.sum_cons, ih, List.map_cons, List.sum_cons, List.countP_cons,
        BlockData.refFaults]
      omega

namespace Compiler

section Explicit

variable {compiler : Compiler} {options : CompileOptions} {text : String}

theorem drafted_causes (options : CompileOptions) :
    (compiler.drafted options text).2.componentCauses = causesOf (compiler.recorded text) :=
  compilerAt_causes compiler.registry (compiler.maxDepth + 1) (compiler.scope options text) rfl text

/-- The declarations that are recorded at a path are those of the draft there. -/
theorem references_at {p : BlockPath} {d : Draft} (h : (p, d) ∈ compiler.authored text) :
    (compiler.drafted options text).2.references.filter (fun q => q.source = p) =
      d.refs.map (Draft.pending
        (provisionalId (compiler.scope options text).documentId d.kind d.data)
        d.data.anchor? p) := by
  have hperm := compiler.recorded_perm text
  have hnodup : ((compiler.recorded text).map (·.1)).Nodup :=
    (hperm.map _).nodup_iff.mpr (compiler.increasing_authored text).nodup
  have hreferences : (compiler.drafted options text).2.references =
      (declarations (compiler.scope options text).documentId (compiler.recorded text)).references :=
    congrArg (fun f => f.references) (compiler.drafted_declared options text)
  rw [hreferences, declarations, List.filter_flatMap,
    flatMap_of_key hnodup (hperm.mem_iff.mpr h)]
  · refine List.filter_eq_self.mpr fun q hq => ?_
    obtain ⟨r, -, rfl⟩ := List.mem_map.mp hq
    simp [Draft.pending]
  · rintro ⟨p', d'⟩ - hne
    refine List.filter_eq_nil_iff.mpr fun q hq => ?_
    obtain ⟨r, -, rfl⟩ := List.mem_map.mp hq
    simp [Draft.pending, show ¬ p' = p from hne]

/-- The explicit references of the block at the path of a draft are those that the draft declares. -/
theorem StandsAt.explicitReferences {p : BlockPath} {d : Draft} {b : Block}
    (h : compiler.StandsAt options text p d b) :
    ((compiler.compile options text).document.explicitReferences b).map Reference.declared =
      d.refs := by
  -- an explicit reference has the source `b` if it was recorded at the path of `b`
  have hsource : ∀ q ∈ (compiler.drafted options text).2.references,
      (decide (((settle (compiler.finalIds options text) q).resolve
        (compiler.scope options text).documentId
        (compiler.index options text)).1.sourceBlockId = b.id)) = decide (q.source = p) := by
    intro q hq
    obtain ⟨p', d', declared, hd', -, rfl⟩ := mem_references.mp hq
    obtain ⟨b', hb'⟩ := compiler.exists_standsAt options text hd'
    rw [Reference.resolve_eq, hb'.settle_pending, decide_eq_decide]
    constructor
    · exact fun heq => path_of_id (compiler.nodup_finalBlocks options text) hb'.block h.block heq
    · rintro rfl
      exact congrArg Block.id (Option.some.inj (hb'.block.symm.trans h.block))
  have hdeclared : ∀ q : PendingReference,
      ((settle (compiler.finalIds options text) q).resolve (compiler.scope options text).documentId
        (compiler.index options text)).1.declared = q.reference.declared := by
    intro q
    rw [Reference.resolve_eq, settle]
    split <;> rfl
  have hfilter : (compiler.compile options text).document.explicitReferences b =
      ((compiler.compile options text).document.references.filter
        fun r => r.kind = .explicit).filter fun r => r.sourceBlockId = b.id := by
    simp [Document.explicitReferences, List.filter_filter, and_comm]
  rw [hfilter, explicit_references, List.filter_map]
  simp only [Function.comp_def]
  rw [List.filter_congr hsource, references_at h.written]
  simp only [List.map_map, Function.comp_def, hdeclared]
  simp [Draft.pending, Reference.declared]

theorem exists_standsAt_of_mem {b : Block}
    (hb : b ∈ allBlocks (compiler.finalBlocks options text)) :
    ∃ p d, compiler.StandsAt options text p d b := by
  obtain ⟨p, hp⟩ := mem_allBlocks.mp hb
  have hshell : (p, b.shell) ∈ (compiler.authored text).map (Prod.map id Draft.shell) := by
    rw [← finalBlocks_shells compiler options text]
    exact List.mem_map.mpr ⟨(p, b), (mem_locatedBlocks _ p b).mpr hp, rfl⟩
  obtain ⟨⟨q, d⟩, hd, heq⟩ := List.mem_map.mp hshell
  obtain ⟨rfl, -⟩ := Prod.mk.inj heq
  obtain ⟨c, hc⟩ := compiler.exists_standsAt options text hd
  obtain rfl := Option.some.inj (hc.block.symm.trans hp)
  exact ⟨q, d, hc⟩

theorem refFaults_finalBlocks :
    (allBlocks (compiler.finalBlocks options text)).map (·.data.refFaults) =
      (compiler.authored text).map fun x => x.2.data.refFaults := by
  have hshells := congrArg (List.map fun shell : String × BlockData Empty => shell.2.refFaults)
    (compiler.map_shell_finalBlocks options text)
  simpa [Function.comp_def, Block.shell, Draft.shell] using hshells

/-- The faults of the fields `refs` are reported, once each. -/
theorem countP_invalidRef (h : compiler.registry.LeavesRefs) :
    (compiler.compile options text).diagnostics.countP (·.code = .invalidRef) =
      ((allBlocks (compiler.finalBlocks options text)).map (·.data.refFaults)).sum := by
  have hstage : (compiler.compile options text).diagnostics.filter (·.code = .invalidRef) =
      (compiler.drafted options text).2.diagnostics.filter (·.code = .invalidRef) := by
    refine compiler.filter_diagnostics options text .drafting ?_
    rintro ⟨cause, position⟩ s hs hcode
    cases cause <;> simp_all [Cause.stage?, Diagnostic.code, Cause.code]
  have hcauses : (compiler.drafted options text).2.diagnostics.countP (·.code = .invalidRef) =
      (causesOf (compiler.recorded text)).countP (·.code = .invalidRef) := by
    rw [← drafted_causes options, Findings.componentCauses, List.countP_filter, List.countP_map]
    refine List.countP_congr fun d hd => ?_
    have hstage := compiler.causes_reported options text .drafting d hd
    obtain ⟨cause, position⟩ := d
    cases cause <;> simp_all [Diagnostic.code, Cause.code, Cause.isOfComponent, Cause.stage?]
  have hdrafts : (compiler.authored text).map (fun x => x.2.causes.countP (·.code = .invalidRef)) =
      (compiler.authored text).map fun x => x.2.data.refFaults := by
    refine List.map_congr_left fun x hx => ?_
    obtain ⟨content, hcontent⟩ := exists_content_of_authored hx
    exact Draft.countP_causes h hcontent
  rw [List.countP_eq_length_filter, hstage, ← List.countP_eq_length_filter, hcauses, causesOf,
    List.countP_flatMap, refFaults_finalBlocks, ← hdrafts]
  exact ((compiler.recorded_perm text).map _).sum_nat

end Explicit

/-- A block of a document has the explicit references that the usable entries
of its field `refs` declare, one for each entry and in the order of the
entries; other blocks have none. Each entry that is not usable gives one
warning, and so does each field `refs` that is no array. -/
theorem explicit_references_of_blocks (compiler : Compiler) (options : CompileOptions)
    (text : String) (h : compiler.registry.LeavesRefs) :
    let result := compiler.compile options text
    let blocks := allBlocks result.document.blocks
    (∀ b ∈ blocks, List.Forall₂ Declares (b.data.refEntries.filter Usable)
      ((result.document.explicitReferences b).map Reference.declared)) ∧
    (∀ b ∈ blocks, b.data.props? = none → result.document.explicitReferences b = []) ∧
    (∀ d ∈ result.diagnostics, d.code = .invalidRef → d.cause.severity = .warning) ∧
    result.diagnostics.countP (·.code = .invalidRef) =
      (blocks.map fun b => b.data.refEntries.countP (¬ Usable ·)).sum +
        blocks.countP (·.data.refsNoArray) := by
  simp only [compile_blocks]
  have hrefs : ∀ b ∈ allBlocks (compiler.finalBlocks options text),
      ((compiler.compile options text).document.explicitReferences b).map Reference.declared =
        b.data.refEntries.filterMap Component.readRef? := by
    intro b hb
    obtain ⟨p, d, hd⟩ := exists_standsAt_of_mem hb
    obtain ⟨content, hcontent⟩ := exists_content_of_authored hd.written
    rw [hd.explicitReferences, Draft.refs_eq h hcontent,
      BlockData.refEntries_of_shell (congrArg (·.2) hd.shell)]
  refine ⟨fun b hb => ?_, fun b hb hnone => ?_, fun d hd hcode => ?_, ?_⟩
  · rw [hrefs b hb]
    exact Component.forall₂_readRef _
  · have hnil := hrefs b hb
    rw [BlockData.refEntries_eq_nil hnone] at hnil
    exact List.map_eq_nil_iff.mp hnil
  · obtain ⟨s, hs⟩ := compiler.exists_stage_of_mem options text hd
    obtain ⟨cause, position⟩ := d
    cases cause <;> simp_all [Diagnostic.code, Cause.code, Cause.stage?, Cause.severity]
  · rw [countP_invalidRef h, sum_refFaults]

/-- Two charts that are written alike, each with a usable entry and another one. -/
def twinChartsText : String :=
  "```ui:chart\nrefs: [a, 7]\n```\n\n```ui:chart\nrefs: [a, 7]\n```\n"

theorem explicit_references_of_twinCharts :
    let compiler := Compiler.default
    let result := compiler.compile ⟨none, some "d"⟩ twinChartsText
    compiler.registry.LeavesRefs ∧
      (∀ b ∈ allBlocks result.document.blocks,
        List.Forall₂ Declares (b.data.refEntries.filter Usable)
          ((result.document.explicitReferences b).map Reference.declared)) ∧
      result.diagnostics.countP (·.code = .invalidRef) = 2 := by
  have hleaves : Compiler.default.registry.LeavesRefs :=
    Registry.leavesRefs_of_mem (by decide)
  obtain ⟨hdeclared, -, -, hcount⟩ := explicit_references_of_blocks Compiler.default
    ⟨none, some "d"⟩ twinChartsText hleaves
  have hfaults : ((Compiler.default.authored twinChartsText).map
      fun x => x.2.data.refFaults).sum = 2 := by decide +kernel
  refine ⟨hleaves, hdeclared, ?_⟩
  rw [hcount, ← sum_refFaults, compile_blocks, refFaults_finalBlocks, hfaults]

end Compiler

end BlockDoc
