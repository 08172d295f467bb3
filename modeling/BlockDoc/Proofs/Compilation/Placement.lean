import BlockDoc.Proofs.Compilation.Context
import BlockDoc.Proofs.Compilation.Diagnostics

/-!
Text inside a container compiles like a document of its own. Where the text
stands shows in three things only: its blocks and its diagnostics have the
position of the outermost container, what it declares is found below the path
of its section, and a container that lies too deep is reported with the limit
of the whole document.
-/

namespace BlockDoc

/-! ### Blocks at one position -/

mutual

/-- A block that stands at a position with all blocks inside. -/
def Block.placedAt (r : Range) : Block → Block
  | ⟨id, kind, .container ⟨itemsField, contentField, props, some sections⟩, _⟩ =>
    ⟨id, kind, .container ⟨itemsField, contentField, props, some (sectionsPlacedAt r sections)⟩, r⟩
  | ⟨id, kind, data, _⟩ => ⟨id, kind, data, r⟩
  termination_by structural b => b

/-- Sections whose blocks stand at a position. -/
def sectionsPlacedAt (r : Range) : List (Section Block) → List (Section Block)
  | [] => []
  | .entry props (some (.blocks bs)) :: rest =>
    .entry props (some (.blocks (blocksPlacedAt r bs))) :: sectionsPlacedAt r rest
  | s :: rest => s :: sectionsPlacedAt r rest
  termination_by structural s => s

/-- Blocks that stand at a position. -/
def blocksPlacedAt (r : Range) : List Block → List Block
  | [] => []
  | b :: bs => b.placedAt r :: blocksPlacedAt r bs
  termination_by structural bs => bs

end

theorem Block.placedAt_eq (r : Range) (b : Block) :
    b.placedAt r = ⟨b.id, b.kind, b.data.withSections (sectionsPlacedAt r b.sections), r⟩ := by
  obtain ⟨id, kind, data, position⟩ := b
  cases data with
  | container c => obtain ⟨_, _, _, _ | sections⟩ := c <;> rfl
  | _ => rfl

theorem Block.placedAt_withSections (r : Range) (id kind : String) (data : BlockData Block)
    (ss : List (Section Block)) (position : Range) :
    (Block.mk id kind (data.withSections ss) position).placedAt r =
      ⟨id, kind, data.withSections (sectionsPlacedAt r ss), r⟩ := by
  cases data with
  | container c => obtain ⟨_, _, _, _ | sections⟩ := c <;> rfl
  | _ => rfl

theorem sectionsPlacedAt_cons (r : Range) (s : Section Block) (rest : List (Section Block)) :
    sectionsPlacedAt r (s :: rest) =
      s.withBlocks (blocksPlacedAt r s.blocks) :: sectionsPlacedAt r rest := by
  cases s with
  | malformed v => rfl
  | entry props content => obtain _ | _ | _ | _ := content <;> rfl

theorem blocksPlacedAt_length (r : Range) (bs : List Block) :
    (blocksPlacedAt r bs).length = bs.length := by
  induction bs with
  | nil => rfl
  | cons b bs ih => rw [blocksPlacedAt, List.length_cons, ih, List.length_cons]

theorem sectionsPlacedAt_length (r : Range) (ss : List (Section Block)) :
    (sectionsPlacedAt r ss).length = ss.length := by
  induction ss with
  | nil => rfl
  | cons s rest ih => rw [sectionsPlacedAt_cons, List.length_cons, ih, List.length_cons]

theorem Block.sections_placedAt (r : Range) (b : Block) :
    (b.placedAt r).sections = sectionsPlacedAt r b.sections := by
  rw [Block.placedAt_eq]
  exact b.data.sections_withSections (sectionsPlacedAt_length r b.sections)

theorem sectionsPlacedAt_of_fresh (r : Range) {ss : List (Section Block)}
    (h : ∀ s ∈ ss, s.blocks = []) : sectionsPlacedAt r ss = ss := by
  induction ss with
  | nil => rfl
  | cons s rest ih =>
      rw [sectionsPlacedAt_cons, h s List.mem_cons_self,
        ih fun t ht => h t (List.mem_cons_of_mem s ht)]
      exact congrArg (· :: rest) (s.withBlocks_nil (h s List.mem_cons_self))

theorem Block.placedAt_of_fresh (r : Range) {b : Block} (h : ∀ s ∈ b.sections, s.blocks = []) :
    b.placedAt r = ⟨b.id, b.kind, b.data, r⟩ := by
  rw [Block.placedAt_eq, sectionsPlacedAt_of_fresh r h, Block.sections,
    BlockData.withSections_sections]

/-- All blocks stand at the position, nested ones included. -/
theorem position_of_mem_placedAt (r : Range) :
    (∀ b : Block, ∀ c ∈ (b.placedAt r).walk, c.position = r) ∧
      (∀ ss : List (Section Block), ∀ c ∈ walkSections (sectionsPlacedAt r ss), c.position = r) ∧
      ∀ bs : List Block, ∀ c ∈ allBlocks (blocksPlacedAt r bs), c.position = r := by
  apply Block.tree_induction
  · intro b hsections c hc
    rw [Block.walk_eq, Block.sections_placedAt] at hc
    rcases List.mem_cons.mp hc with rfl | hc
    · rw [Block.placedAt_eq]
    · exact hsections c hc
  · exact fun c hc => absurd hc List.not_mem_nil
  · intro s rest hblocks hrest c hc
    rw [sectionsPlacedAt_cons, walkSections_cons,
      s.blocks_withBlocks (blocksPlacedAt_length r s.blocks)] at hc
    rcases List.mem_append.mp hc with hc | hc
    · exact hblocks c hc
    · exact hrest c hc
  · exact fun c hc => absurd hc List.not_mem_nil
  · intro b bs hb hbs c hc
    rcases List.mem_append.mp hc with hc | hc
    · exact hb c hc
    · exact hbs c hc

/-! ### Places -/

/-- A place in a document: the path of a section, the number of containers around it, the limit of
the document and the position of the outermost container. -/
structure Place where
  path : BlockPath
  depth : Nat
  limit : Nat
  anchor : Range

def Cause.withLimit (limit : Nat) : Cause → Cause
  | tooDeep kind _ => tooDeep kind limit
  | cause => cause

namespace Place

variable (place : Place)

/-- The scope of a document of its own, moved to the place. -/
def scope (s : Scope) : Scope :=
  { s with
    maxDepth := place.limit
    path := place.path ++ s.path
    depth := place.depth + s.depth
    container := some place.anchor }

/-- What is found in a document of its own, moved to the place. -/
def findings (f : Findings) : Findings :=
  ⟨f.diagnostics.map fun d => ⟨d.cause.withLimit place.limit, some place.anchor⟩,
    f.references.map fun r => { r with source := place.path ++ r.source },
    f.claims.map fun claim => (claim.1, place.path ++ claim.2)⟩

/-- Compiled text of a document of its own, moved to the place. -/
def result (compiled : List Block × Findings) : List Block × Findings :=
  (blocksPlacedAt place.anchor compiled.1, place.findings compiled.2)

theorem findings_append (f f' : Findings) :
    place.findings (f ++ f') = place.findings f ++ place.findings f' := by
  simp [findings, Findings.append_eq]

theorem enter_scope (s : Scope) (block index : Nat) (position position' : Range) :
    (place.scope s).enter block index position' =
      place.scope (s.enter block index position) := by
  simp [scope, Scope.enter, Scope.positionOf, Nat.add_assoc]

/-! ### Drafts at a place -/

theorem withLimit_of_isOfComponent {cause : Cause} (h : cause.isOfComponent) (limit : Nat) :
    cause.withLimit limit = cause := by
  cases cause <;> first | rfl | cases h

theorem toBlock_scope {s : Scope} {content : Content} {d : Draft}
    (h : Draft.ofContent? s.registry content = some d) (index : Nat) (position : Range) :
    d.toBlock (place.scope s) index place.anchor =
      ((d.toBlock s index position).1.placedAt place.anchor,
        place.findings (d.toBlock s index position).2) := by
  have hcauses : ∀ c ∈ d.causes, c.withLimit place.limit = c := fun c hc =>
    withLimit_of_isOfComponent (Draft.isOfComponent_of_cause h hc) place.limit
  have hblock := Block.placedAt_of_fresh place.anchor (b := (d.toBlock s index position).1)
    fun sec hsec => Draft.blocks_eq_nil h hsec
  rw [hblock]
  refine Prod.ext rfl ?_
  simp only [Draft.toBlock, findings, scope, Scope.pathOf, List.map_map, List.append_assoc,
    Findings.mk.injEq]
  refine ⟨List.map_congr_left fun c hc => ?_, rfl, rfl⟩
  simp [hcauses c hc]

theorem translateFrom_scope (s : Scope) (index : Nat) (nodes : List Node) :
    translateFrom (place.scope s) index nodes = place.result (translateFrom s index nodes) := by
  induction nodes generalizing index with
  | nil => rfl
  | cons n rest ih =>
      rw [translateFrom, translateFrom, show (place.scope s).registry = s.registry from rfl]
      cases hdraft : Draft.ofContent? s.registry n.content with
      | none => exact ih index
      | some d =>
          simp only [ih, show (place.scope s).positionOf n.position = place.anchor from rfl,
            place.toBlock_scope hdraft index (s.positionOf n.position), result, findings_append,
            blocksPlacedAt]

/-! ### Texts at a place -/

theorem compile_scope {s : Scope} {sec : Section Block}
    (h : ∀ text, compileFragment (place.scope s) text = place.result (compileFragment s text))
    (hfresh : sec.blocks = []) :
    sec.compile compileFragment (place.scope s) =
      ((sec.compile compileFragment s).1.withBlocks
          (blocksPlacedAt place.anchor (sec.compile compileFragment s).1.blocks),
        place.findings (sec.compile compileFragment s).2) := by
  cases htext : sec.hasMarkdown with
  | false =>
      rw [Section.compile_of_no_text _ _ htext, Section.compile_of_no_text _ _ htext, hfresh]
      exact Prod.ext (sec.withBlocks_nil hfresh).symm rfl
  | true =>
      obtain ⟨props, text, rfl⟩ := Section.exists_text htext
      rw [Section.compile, h text]
      rfl

theorem compileSections_scope {s : Scope} {block : Nat} {position : Range}
    (h : ∀ i text, compileFragment (place.scope (s.enter block i position)) text =
      place.result (compileFragment (s.enter block i position) text))
    (position' : Range) (index : Nat) {ss : List (Section Block)}
    (hfresh : ∀ sec ∈ ss, sec.blocks = []) :
    compileSections compileFragment (place.scope s) block position' index ss =
      (sectionsPlacedAt place.anchor
          (compileSections compileFragment s block position index ss).1,
        place.findings (compileSections compileFragment s block position index ss).2) := by
  induction ss generalizing index with
  | nil => rfl
  | cons sec rest ih =>
      rw [compileSections_cons, compileSections_cons,
        place.enter_scope s block index position position',
        place.compile_scope (h index) (hfresh sec List.mem_cons_self),
        ih (index + 1) fun t ht => hfresh t (List.mem_cons_of_mem sec ht), sectionsPlacedAt_cons,
        findings_append]

variable {place} {s : Scope}

theorem compileBlock_scope (hlimit : s.maxDepth = place.limit - place.depth) {index : Nat}
    {b : Block}
    (h : s.depth < s.maxDepth → ∀ i text,
      compileFragment (place.scope (s.enter index i b.position)) text =
        place.result (compileFragment (s.enter index i b.position) text))
    (hfresh : ∀ sec ∈ b.sections, sec.blocks = []) :
    compileBlock (compilerAt (place.scope s).levelsLeft) (place.scope s) index
        (b.placedAt place.anchor) =
      ((compileBlock (compilerAt s.levelsLeft) s index b).1.placedAt place.anchor,
        place.findings (compileBlock (compilerAt s.levelsLeft) s index b).2) := by
  have hplaced := b.placedAt_of_fresh place.anchor hfresh
  have hsame : (b.placedAt place.anchor).hasMarkdown = b.hasMarkdown := by
    rw [hplaced]
    rfl
  cases htext : b.hasMarkdown with
  | false =>
      rw [compileBlock_of_no_text _ _ _ (hsame.trans htext), compileBlock_of_no_text _ _ _ htext]
      rfl
  | true =>
      rcases Nat.lt_or_ge s.depth s.maxDepth with habove | hdeep
      · have habove' : (place.scope s).depth < (place.scope s).maxDepth := by
          simp only [scope]
          omega
        have hsections := place.compileSections_scope (h habove) place.anchor 0 hfresh
        rw [compileBlock_above_limit habove', compileBlock_above_limit habove, hplaced,
          Block.placedAt_withSections]
        refine Prod.ext ?_ (congrArg (·.2) hsections)
        exact congrArg (fun ss => Block.mk b.id b.kind (b.data.withSections ss) place.anchor)
          (congrArg (·.1) hsections)
      · have hdeep' : (place.scope s).maxDepth ≤ (place.scope s).depth := by
          simp only [scope]
          omega
        rw [compileBlock_at_limit hdeep' index (hsame.trans htext),
          compileBlock_at_limit hdeep index htext, hplaced]
        rfl

theorem compileBlocksFrom_scope (hlimit : s.maxDepth = place.limit - place.depth)
    (h : s.depth < s.maxDepth → ∀ index i position text,
      compileFragment (place.scope (s.enter index i position)) text =
        place.result (compileFragment (s.enter index i position) text))
    (index : Nat) {bs : List Block} (hfresh : ∀ b ∈ bs, ∀ sec ∈ b.sections, sec.blocks = []) :
    compileBlocksFrom (compilerAt (place.scope s).levelsLeft) (place.scope s) index
        (blocksPlacedAt place.anchor bs) =
      place.result (compileBlocksFrom (compilerAt s.levelsLeft) s index bs) := by
  induction bs generalizing index with
  | nil => rfl
  | cons b bs ih =>
      have hblock := compileBlock_scope hlimit (fun habove i => h habove index i b.position)
        (hfresh b List.mem_cons_self)
      rw [blocksPlacedAt, compileBlocksFrom, compileBlocksFrom, hblock,
        ih (index + 1) fun c hc => hfresh c (List.mem_cons_of_mem b hc)]
      simp only [result, findings_append, blocksPlacedAt]

/-- A text compiles at a place to what it compiles to as a document of its own. -/
theorem compileFragment_scope (hlimit : s.maxDepth = place.limit - place.depth) (text : String) :
    compileFragment (place.scope s) text = place.result (compileFragment s text) := by
  induction s using Scope.induction generalizing text with
  | h s hinside =>
      -- going into a section leaves the levels on both sides equal
      have hblocks := compileBlocksFrom_scope hlimit
        (fun habove index i position => hinside habove index i position hlimit) 0
        (translateFrom_fresh s 0 (Node.parse text))
      rw [compileFragment_eq, compileFragment_eq, translate, translate, translateFrom_scope]
      simp only [compileContainers, result, hblocks, findings_append]

end Place

/-- Inside a container, at any path, depth and limit and after anything that
was found before, a text compiles to the blocks of a document of its own with
the levels that are left as its limit, at the position of the outermost
container. What is found there is added to what was found before: diagnostics
with this position and with the limit of the whole document, declarations with
the path of the section in front of theirs. -/
theorem fragment_compiles_as_document (documentId : String) (registry : Registry) (limit : Nat)
    (path : BlockPath) (depth : Nat) (anchor : Range) (text : String) :
    let scope : Scope := ⟨documentId, registry, limit, path, depth, some anchor⟩
    let top := Scope.top documentId registry (limit - depth)
    let place : Place := ⟨path, depth, limit, anchor⟩
    let fresh := compileFragment top text
    CompilesText ⟨top, .none⟩ text fresh.1 ⟨top, fresh.2⟩ ∧
    compileFragment scope text = (blocksPlacedAt anchor fresh.1, place.findings fresh.2) ∧
    (∀ b ∈ allBlocks (compileFragment scope text).1, b.position = anchor) ∧
    ∀ found bs c', CompilesText ⟨scope, found⟩ text bs c' ↔
      bs = blocksPlacedAt anchor fresh.1 ∧ c' = ⟨scope, found ++ place.findings fresh.2⟩ := by
  intro scope top place fresh
  have hscope : scope = place.scope top := by
    simp [scope, top, place, Place.scope, Scope.top]
  have hfragment : compileFragment scope text =
      (blocksPlacedAt anchor fresh.1, place.findings fresh.2) := by
    rw [hscope]
    exact Place.compileFragment_scope rfl text
  refine ⟨compilesText_none_iff.mpr ⟨rfl, rfl⟩, hfragment, ?_, fun found bs c' => ?_⟩
  · rw [hfragment]
    exact (position_of_mem_placedAt anchor).2.2 fresh.1
  · rw [compilesText_iff, hfragment]
    rfl

end BlockDoc
