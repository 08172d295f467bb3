import BlockDoc.Proofs.Compilation.Authored

/-!
What compiling a text leaves behind: its blocks have the shells of the drafts
in the order in which they are written, at the same paths, and its findings
are the declarations of the drafts in the order in which they are recorded.
Both are shown of a sequence of nodes, of the sections of a block and of a
sequence of blocks, and for nested texts by induction on the levels.
-/

namespace BlockDoc

/-! ### Nodes -/

theorem Container.blocks_ofProps {itemsField contentField : String} {props : Fields}
    {s : Section Block}
    (hs : s ∈ (Container.ofProps itemsField contentField props).sectionList) : s.blocks = [] := by
  rw [Container.ofProps] at hs
  split at hs
  · obtain ⟨v, -, rfl⟩ := List.mem_map.mp hs
    cases v with
    | obj fields =>
        cases hcontent : Fields.get? contentField fields with
        | none => simp [Section.ofValue, hcontent, Section.blocks]
        | some content => cases content <;> simp [Section.ofValue, hcontent, Section.blocks]
    | _ => rfl
  · exact absurd hs List.not_mem_nil

theorem Component.blocks_eq_nil {registry : Registry} {kind body : String} {s : Section Block}
    (hs : s ∈ (Component.read registry kind body).data.sections) : s.blocks = [] := by
  cases hschema : registry.container? kind with
  | none =>
      have hnone : (Component.read registry kind body).data.sections = [] := by
        simp [Component.read, hschema, BlockData.sections]
      exact absurd (hnone ▸ hs) List.not_mem_nil
  | some schema =>
      have hcontainer : s ∈ (Container.ofProps schema.itemsField schema.contentField
          (Component.readProps kind body).1).sectionList := by
        simpa [Component.read, hschema, BlockData.sections] using hs
      exact Container.blocks_ofProps hcontainer

/-- A draft is a block of Markdown, whose data tell its type, or a component. -/
theorem Draft.ofContent_spec {registry : Registry} {content : Content} {d : Draft}
    (h : Draft.ofContent? registry content = some d) :
    (∃ kind data, data.plainKind? = some kind ∧ d = plain kind data) ∨
      ∃ kind details value, content = .code (some kind) details value ∧
        componentPrefix.toList.isPrefixOf kind.toList ∧
        d = ⟨kind, (Component.read registry kind value).data,
          (Component.read registry kind value).refs,
          (Component.read registry kind value).causes⟩ := by
  have hleaf : ∀ kind (data : BlockData Block), data.plainKind? = some kind →
      some (plain kind data) = some d →
        ∃ kind data, data.plainKind? = some kind ∧ d = plain kind data := by
    intro kind data hkind hplain
    exact ⟨kind, data, hkind, (Option.some.inj hplain).symm⟩
  cases content with
  | code language details value =>
      cases language with
      | none => exact Or.inl (hleaf _ _ rfl h)
      | some kind =>
          by_cases hprefix : componentPrefix.toList.isPrefixOf kind.toList
          · refine Or.inr ⟨kind, details, value, rfl, hprefix, ?_⟩
            simpa [ofContent?, hprefix, eq_comm] using h
          · exact Or.inl (hleaf _ _ rfl (by simpa [ofContent?, hprefix] using h))
  | paragraph children =>
      cases himage : loneImage? children with
      | none => exact Or.inl (hleaf _ _ rfl (by simpa [ofContent?, himage] using h))
      | some image =>
          have hkind : image.plainKind? = some "image" := by
            rw [loneImage?] at himage
            split at himage
            · obtain rfl := Option.some.inj himage
              rfl
            · exact absurd himage nofun
          exact Or.inl (hleaf _ _ hkind (by simpa [ofContent?, himage] using h))
  | yaml value => exact absurd h nofun
  | unsupported => exact absurd h nofun
  | _ => exact Or.inl (hleaf _ _ rfl h)

/-- A draft is a plain block of Markdown or a component. -/
theorem Draft.ofContent_cases {registry : Registry} {content : Content} {d : Draft}
    (h : Draft.ofContent? registry content = some d) :
    (∃ kind data, data.props? = none ∧ d = plain kind data) ∨
      ∃ kind details value, content = .code (some kind) details value ∧
        d = ⟨kind, (Component.read registry kind value).data,
          (Component.read registry kind value).refs,
          (Component.read registry kind value).causes⟩ := by
  rcases ofContent_spec h with ⟨kind, data, hkind, hd⟩ | ⟨kind, details, value, hcode, -, hd⟩
  · exact Or.inl ⟨kind, data, BlockData.props_of_plainKind hkind, hd⟩
  · exact Or.inr ⟨kind, details, value, hcode, hd⟩

/-- No section of a draft is compiled. -/
theorem Draft.blocks_eq_nil {registry : Registry} {content : Content} {d : Draft}
    (h : Draft.ofContent? registry content = some d) {s : Section Block}
    (hs : s ∈ d.data.sections) : s.blocks = [] := by
  rcases Draft.ofContent_cases h with ⟨kind, data, hnone, rfl⟩ | ⟨kind, -, value, -, rfl⟩
  · exact absurd (BlockData.sections_eq_nil hnone ▸ hs) List.not_mem_nil
  · exact Component.blocks_eq_nil hs

theorem translateFrom_blocks (scope : Scope) (index : Nat) (nodes : List Node) :
    (translateFrom scope index nodes).1.map (fun b => (b.kind, b.data)) =
      (draftsOf scope.registry nodes).map fun d => (d.kind, d.data) := by
  induction nodes generalizing index with
  | nil => rfl
  | cons n rest ih =>
      cases hdraft : Draft.ofContent? scope.registry n.content with
      | none => simpa [translateFrom, draftsOf, hdraft] using ih index
      | some d => simpa [translateFrom, draftsOf, hdraft, Draft.toBlock] using ih (index + 1)

/-- A block has the type and the data of a draft. -/
theorem exists_draft_of_mem_translateFrom {scope : Scope} {index : Nat} {nodes : List Node}
    {b : Block} (h : b ∈ (translateFrom scope index nodes).1) :
    ∃ content d, Draft.ofContent? scope.registry content = some d ∧ d.kind = b.kind ∧
      d.data = b.data := by
  have hmem : (b.kind, b.data) ∈
      (draftsOf scope.registry nodes).map fun d => (d.kind, d.data) := by
    rw [← translateFrom_blocks scope index]
    exact List.mem_map.mpr ⟨b, h, rfl⟩
  obtain ⟨d, hd, heq⟩ := List.mem_map.mp hmem
  obtain ⟨n, -, hn⟩ := List.mem_filterMap.mp hd
  obtain ⟨hkind, hdata⟩ := Prod.mk.inj heq
  exact ⟨n.content, d, hn, hkind, hdata⟩

theorem translateFrom_fresh (scope : Scope) (index : Nat) (nodes : List Node) :
    ∀ b ∈ (translateFrom scope index nodes).1, ∀ s ∈ b.sections, s.blocks = [] := by
  intro b hb s hs
  obtain ⟨content, d, hd, -, hdata⟩ := exists_draft_of_mem_translateFrom hb
  exact Draft.blocks_eq_nil hd (hdata ▸ hs)

theorem Draft.declared_toBlock (scope : Scope) (index : Nat) (position : Range) (d : Draft) :
    (d.toBlock scope index position).2.declared =
      declarations scope.documentId (scope.path.below (BlockPath.below [index] [([], d)])) := by
  simp [toBlock, Findings.declared, declarations, Scope.pathOf]

theorem translateFrom_declared (scope : Scope) (index : Nat) (nodes : List Node) :
    (translateFrom scope index nodes).2.declared =
      declarations scope.documentId (scope.path.below
        (BlockPath.indexed (fun d => [([], d)]) index (draftsOf scope.registry nodes))) := by
  induction nodes generalizing index with
  | nil => rfl
  | cons n rest ih =>
      cases hdraft : Draft.ofContent? scope.registry n.content with
      | none =>
          have hrest : draftsOf scope.registry (n :: rest) = draftsOf scope.registry rest := by
            simp [draftsOf, hdraft]
          rw [translateFrom, hdraft, hrest]
          exact ih index
      | some d =>
          have hrest : draftsOf scope.registry (n :: rest) =
              d :: draftsOf scope.registry rest := by
            simp [draftsOf, hdraft]
          rw [translateFrom, hdraft, hrest, BlockPath.indexed_cons, BlockPath.below_append,
            declarations_append, ← d.declared_toBlock scope index (scope.positionOf n.position),
            ← ih (index + 1)]
          rfl

/-! ### Sections -/

/-- A compiler for texts that leaves the given drafts behind. -/
structure Records (registry : Registry) (compileText : TextCompiler)
    (written found : String → List (BlockPath × Draft)) : Prop where
  blocks : ∀ scope : Scope, scope.registry = registry → ∀ text,
    (locatedBlocks (compileText scope text).1).map (Prod.map id Block.shell) =
      (written text).map (Prod.map id Draft.shell)
  found : ∀ scope : Scope, scope.registry = registry → ∀ text,
    (compileText scope text).2.declared =
      declarations scope.documentId (scope.path.below (found text))

/-- Without a compiler for texts nothing is left behind. -/
def InnerRecords (registry : Registry) (inner : Option TextCompiler)
    (written found : String → List (BlockPath × Draft)) : Prop :=
  match inner with
  | none => ∀ text, written text = [] ∧ found text = []
  | some compileText => Records registry compileText written found

variable {registry : Registry} {compileText : TextCompiler}
  {written found : String → List (BlockPath × Draft)}

/-- Compiles the text of a section; any other section stays as it is. -/
def Section.compile (compileText : TextCompiler) (scope : Scope) :
    Section Block → Section Block × Findings
  | .entry props (some (.markdown text)) =>
    (.entry props (some (.blocks (compileText scope text).1)), (compileText scope text).2)
  | s => (s, .none)

theorem Section.compile_of_no_text (compileText : TextCompiler) (scope : Scope)
    {s : Section Block} (h : s.hasMarkdown = false) : s.compile compileText scope = (s, .none) := by
  cases s with
  | malformed v => rfl
  | entry props content =>
      obtain _ | _ | _ | _ := content
      case some.markdown => exact absurd h (by simp [Section.hasMarkdown])
      all_goals rfl

theorem compileSections_cons (compileText : TextCompiler) (scope : Scope) (block : Nat)
    (position : Range) (index : Nat) (s : Section Block) (rest : List (Section Block)) :
    compileSections compileText scope block position index (s :: rest) =
      ((s.compile compileText (scope.enter block index position)).1 ::
        (compileSections compileText scope block position (index + 1) rest).1,
      (s.compile compileText (scope.enter block index position)).2 ++
        (compileSections compileText scope block position (index + 1) rest).2) := by
  cases s with
  | malformed v => rfl
  | entry props content => obtain _ | _ | _ | _ := content <;> rfl

theorem Section.shell_compile (compileText : TextCompiler) (scope : Scope) (s : Section Block) :
    (s.compile compileText scope).1.shell = s.shell := by
  cases s with
  | malformed v => rfl
  | entry props content => obtain _ | _ | _ | _ := content <;> rfl

theorem Section.located_compile (h : Records registry compileText written found) (scope : Scope)
    (hscope : scope.registry = registry) {s : Section Block} (hfresh : s.blocks = []) :
    (locatedBlocks (s.compile compileText scope).1.blocks).map (Prod.map id Block.shell) =
      (s.ofText written).map (Prod.map id Draft.shell) := by
  cases s with
  | malformed v => rfl
  | entry props content =>
      obtain _ | text | bs | v := content
      · rfl
      · exact h.blocks scope hscope text
      · obtain rfl : bs = [] := hfresh
        rfl
      · rfl

theorem Section.declared_compile (h : Records registry compileText written found) (scope : Scope)
    (hscope : scope.registry = registry) (s : Section Block) :
    (s.compile compileText scope).2.declared =
      declarations scope.documentId (scope.path.below (s.ofText found)) := by
  cases s with
  | malformed v => rfl
  | entry props content =>
      obtain _ | text | _ | _ := content
      case some.markdown => exact h.found scope hscope text
      all_goals rfl

theorem compileSections_shell (compileText : TextCompiler) (scope : Scope) (block : Nat)
    (position : Range) (index : Nat) (ss : List (Section Block)) :
    (compileSections compileText scope block position index ss).1.map Section.shell =
      ss.map Section.shell := by
  induction ss generalizing index with
  | nil => rfl
  | cons s rest ih =>
      rw [compileSections_cons, List.map_cons, List.map_cons, ih (index + 1), s.shell_compile]

theorem compileSections_length (compileText : TextCompiler) (scope : Scope) (block : Nat)
    (position : Range) (index : Nat) (ss : List (Section Block)) :
    (compileSections compileText scope block position index ss).1.length = ss.length := by
  simpa using congrArg List.length (compileSections_shell compileText scope block position index ss)

theorem compileSections_located (h : Records registry compileText written found) {scope : Scope}
    (hscope : scope.registry = registry) (block : Nat) (position : Range) (index : Nat)
    {ss : List (Section Block)} (hfresh : ∀ s ∈ ss, s.blocks = []) :
    (BlockPath.indexed (fun s => locatedBlocks s.blocks) index
        (compileSections compileText scope block position index ss).1).map
          (Prod.map id Block.shell) =
      (BlockPath.indexed (Section.ofText written) index ss).map (Prod.map id Draft.shell) := by
  induction ss generalizing index with
  | nil => rfl
  | cons s rest ih =>
      have hrest := ih (index + 1) fun t ht => hfresh t (List.mem_cons_of_mem s ht)
      have hhead := s.located_compile h (scope.enter block index position) hscope
        (hfresh s List.mem_cons_self)
      rw [compileSections_cons, BlockPath.indexed_cons, BlockPath.indexed_cons, List.map_append,
        List.map_append, hrest, BlockPath.map_below, BlockPath.map_below, hhead]

theorem compileSections_declared (h : Records registry compileText written found) {scope : Scope}
    (hscope : scope.registry = registry) (block : Nat) (position : Range) (index : Nat)
    (ss : List (Section Block)) :
    (compileSections compileText scope block position index ss).2.declared =
      declarations scope.documentId (BlockPath.below (scope.pathOf block)
        (BlockPath.indexed (Section.ofText found) index ss)) := by
  induction ss generalizing index with
  | nil => rfl
  | cons s rest ih =>
      -- a section is compiled below the path of its block
      have hpath : (scope.enter block index position).path = scope.pathOf block ++ [index] := by
        simp [Scope.enter, Scope.pathOf]
      have hhead := s.declared_compile h (scope.enter block index position) hscope
      rw [hpath, ← BlockPath.below_below] at hhead
      rw [compileSections_cons, Findings.declared_append, ih (index + 1), hhead,
        BlockPath.indexed_cons, BlockPath.below_append, declarations_append]
      rfl

/-! ### Blocks -/

theorem compileSections_of_no_text (compileText : TextCompiler) (scope : Scope) (block : Nat)
    (position : Range) (index : Nat) {ss : List (Section Block)}
    (h : ∀ s ∈ ss, s.hasMarkdown = false) :
    compileSections compileText scope block position index ss = (ss, .none) := by
  induction ss generalizing index with
  | nil => rfl
  | cons s rest ih =>
      rw [compileSections_cons, Section.compile_of_no_text _ _ (h s List.mem_cons_self),
        ih (index + 1) fun t ht => h t (List.mem_cons_of_mem s ht)]
      rfl

/-- With a compiler for texts the sections of a block are compiled, and nothing else happens. -/
theorem compileBlock_some (compileText : TextCompiler) (scope : Scope) (index : Nat) (b : Block) :
    compileBlock (some compileText) scope index b =
      (⟨b.id, b.kind, b.data.withSections
          (compileSections compileText scope index b.position 0 b.sections).1, b.position⟩,
        (compileSections compileText scope index b.position 0 b.sections).2) := by
  obtain ⟨id, kind, data, position⟩ := b
  cases data with
  | container c =>
      obtain ⟨itemsField, contentField, props, _ | sections⟩ := c
      · rfl
      · by_cases hany : sections.any Section.hasMarkdown
        · simp [compileBlock, hany, Block.sections, BlockData.sections, Container.sectionList,
            BlockData.withSections]
        · -- no section has text, so compiling them all changes none
          have hno : ∀ s ∈ sections, s.hasMarkdown = false := by simpa using hany
          have hsections := compileSections_of_no_text compileText scope index position 0 hno
          simp [compileBlock, hany, Block.sections, BlockData.sections, Container.sectionList,
            BlockData.withSections, hsections]
  | _ => rfl

/-- The sections of a block after they are compiled. -/
theorem sections_compileSections (compileText : TextCompiler) (scope : Scope) (index : Nat)
    (b : Block) :
    (b.data.withSections
        (compileSections compileText scope index b.position 0 b.sections).1).sections =
      (compileSections compileText scope index b.position 0 b.sections).1 :=
  b.data.sections_withSections (compileSections_length compileText scope index b.position 0 _)

theorem compileBlock_of_no_text (inner : Option TextCompiler) (scope : Scope) (index : Nat)
    {b : Block} (h : b.hasMarkdown = false) : compileBlock inner scope index b = (b, .none) := by
  obtain ⟨id, kind, data, position⟩ := b
  cases data with
  | container c =>
      obtain ⟨itemsField, contentField, props, _ | sections⟩ := c
      · rfl
      · have hany : sections.any Section.hasMarkdown = false := h
        simp [compileBlock, hany]
  | _ => rfl

/-- Without a compiler for texts a block with text is reported. -/
theorem compileBlock_too_deep (scope : Scope) (index : Nat) {b : Block} (h : b.hasMarkdown) :
    compileBlock none scope index b =
      (b, .ofCauses b.position [.tooDeep b.kind scope.maxDepth]) := by
  obtain ⟨id, kind, data, position⟩ := b
  cases data with
  | container c =>
      obtain ⟨itemsField, contentField, props, _ | sections⟩ := c
      · exact absurd h Bool.false_ne_true
      · have hany : sections.any Section.hasMarkdown = true := h
        simp [compileBlock, hany]
  | _ => exact absurd h Bool.false_ne_true

/-- Without a compiler for texts a block stays as it is. -/
theorem compileBlock_none (scope : Scope) (index : Nat) (b : Block) :
    (compileBlock none scope index b).1 = b ∧
      (compileBlock none scope index b).2.declared = .none := by
  cases h : b.hasMarkdown with
  | false =>
      rw [compileBlock_of_no_text none scope index h]
      exact ⟨rfl, rfl⟩
  | true =>
      rw [compileBlock_too_deep scope index h]
      exact ⟨rfl, rfl⟩

/-- What compiling leaves at a block of a type with data: the block itself, and inside it the
drafts of its texts. -/
def traceOf (written : String → List (BlockPath × Draft)) (x : String × BlockData Block) :
    List (BlockPath × (String × BlockData Empty)) :=
  ([], (x.1, x.2.shell)) ::
    (BlockPath.indexed (Section.ofText written) 0 x.2.sections).map (Prod.map id Draft.shell)

theorem compileBlock_located {inner : Option TextCompiler}
    (h : InnerRecords registry inner written found) {scope : Scope}
    (hscope : scope.registry = registry) (index : Nat) {b : Block}
    (hfresh : ∀ s ∈ b.sections, s.blocks = []) :
    ((compileBlock inner scope index b).1.located []).map (Prod.map id Block.shell) =
      traceOf written (b.kind, b.data) := by
  cases inner with
  | none =>
      -- the sections keep their texts, so nothing stands inside the block
      have hblocks : BlockPath.indexed (fun s => locatedBlocks s.blocks) 0 b.sections = [] :=
        BlockPath.indexed_eq_nil (fun s hs => by rw [hfresh s hs]; rfl) 0
      have htexts : BlockPath.indexed (Section.ofText written) 0 b.data.sections = [] :=
        BlockPath.indexed_eq_nil (fun s _ =>
          s.ofText_induction (P := fun l => l = []) rfl fun text => (h text).1) 0
      rw [(compileBlock_none scope index b).1, Block.located_nil, hblocks, traceOf, htexts]
      rfl
  | some compileText =>
      have hshell := compileSections_shell compileText scope index b.position 0 b.sections
      have hsections : (compileBlock (some compileText) scope index b).1.sections =
          (compileSections compileText scope index b.position 0 b.sections).1 := by
        rw [compileBlock_some]
        exact sections_compileSections compileText scope index b
      have hblock : (compileBlock (some compileText) scope index b).1.shell = b.shell := by
        rw [compileBlock_some]
        exact congrArg (Prod.mk b.kind) (b.data.shell_withSections hshell)
      rw [Block.located_nil, hsections, List.map_cons,
        compileSections_located h hscope index b.position 0 hfresh]
      exact congrArg (fun shell => ([], shell) :: _) hblock

theorem compileBlock_declared {inner : Option TextCompiler}
    (h : InnerRecords registry inner written found) {scope : Scope}
    (hscope : scope.registry = registry) (index : Nat) (b : Block) :
    (compileBlock inner scope index b).2.declared =
      declarations scope.documentId (scope.path.below
        (BlockPath.below [index] (BlockPath.indexed (Section.ofText found) 0 b.sections))) := by
  cases inner with
  | none =>
      have htexts : BlockPath.indexed (Section.ofText found) 0 b.sections = [] :=
        BlockPath.indexed_eq_nil (fun s _ =>
          s.ofText_induction (P := fun l => l = []) rfl fun text => (h text).2) 0
      rw [htexts, (compileBlock_none scope index b).2]
      rfl
  | some compileText =>
      rw [compileBlock_some, BlockPath.below_below]
      exact compileSections_declared h hscope index b.position 0 b.sections

theorem compileBlocksFrom_located {inner : Option TextCompiler}
    (h : InnerRecords registry inner written found) {scope : Scope}
    (hscope : scope.registry = registry) (index : Nat) {bs : List Block}
    (hfresh : ∀ b ∈ bs, ∀ s ∈ b.sections, s.blocks = []) :
    (BlockPath.indexed (fun b => b.located []) index
        (compileBlocksFrom inner scope index bs).1).map (Prod.map id Block.shell) =
      BlockPath.indexed (traceOf written) index (bs.map fun b => (b.kind, b.data)) := by
  induction bs generalizing index with
  | nil => rfl
  | cons b bs ih =>
      have hhead := compileBlock_located h hscope index (hfresh b List.mem_cons_self)
      have hrest := ih (index + 1) fun c hc => hfresh c (List.mem_cons_of_mem b hc)
      rw [compileBlocksFrom, BlockPath.indexed_cons, List.map_append, BlockPath.map_below, hhead,
        hrest, List.map_cons, BlockPath.indexed_cons]

theorem compileBlocksFrom_declared {inner : Option TextCompiler}
    (h : InnerRecords registry inner written found) {scope : Scope}
    (hscope : scope.registry = registry) (index : Nat) (bs : List Block) :
    (compileBlocksFrom inner scope index bs).2.declared =
      declarations scope.documentId (scope.path.below (BlockPath.indexed
        (fun x => BlockPath.indexed (Section.ofText found) 0 x.2.sections) index
        (bs.map fun b => (b.kind, b.data)))) := by
  induction bs generalizing index with
  | nil => rfl
  | cons b bs ih =>
      rw [compileBlocksFrom, Findings.declared_append, compileBlock_declared h hscope, ih,
        List.map_cons, BlockPath.indexed_cons, BlockPath.below_append, declarations_append]
      rfl

/-! ### Texts -/

theorem compileWith_eq (inner : Option TextCompiler) (scope : Scope) (text : String) :
    compileWith inner scope text =
      ((compileBlocksFrom inner scope 0 (translate scope (Node.parse text)).1).1,
        (translate scope (Node.parse text)).2 ++
          (compileBlocksFrom inner scope 0 (translate scope (Node.parse text)).1).2) := by
  rw [compileWith]

/-- Adding a level: the record of a text from the records of the texts inside. -/
theorem compileWith_records {inner : Option TextCompiler} {levels : Nat}
    (h : InnerRecords registry inner (authored registry levels) (recorded registry levels)) :
    Records registry (compileWith inner) (authored registry (levels + 1))
      (recorded registry (levels + 1)) := by
  constructor
  · intro scope hscope text
    have hblocks := compileBlocksFrom_located h hscope 0
      (translateFrom_fresh scope 0 (Node.parse text))
    rw [translateFrom_blocks, BlockPath.indexed_map, hscope] at hblocks
    rw [compileWith_eq, locatedBlocks_eq, translate, hblocks, authored, BlockPath.map_indexed]
    rfl
  · intro scope hscope text
    rw [compileWith_eq, translate, Findings.declared_append, translateFrom_declared,
      compileBlocksFrom_declared h hscope, translateFrom_blocks, BlockPath.indexed_map,
      ← declarations_append, ← BlockPath.below_append, recorded, hscope]
    rfl

/-- The record of a text at each number of levels. -/
theorem compilerAt_records (registry : Registry) (levels : Nat) :
    InnerRecords registry (compilerAt levels) (authored registry levels)
      (recorded registry levels) := by
  induction levels with
  | zero => exact fun text => ⟨rfl, rfl⟩
  | succ levels ih => exact compileWith_records ih

end BlockDoc
