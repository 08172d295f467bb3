import BlockDoc.Proofs.Compilation.Context
import BlockDoc.Proofs.Compilation.Diagnostics

/-!
How deep containers are compiled. A block of a compiled text comes from a
draft in a sequence, and the number of containers around it decides what
becomes of the draft: above the limit all texts of its sections are compiled,
at the limit it is left as it was authored. What is left with a text is
reported, once for each block.
-/

namespace BlockDoc

/-! ### The containers around a block -/

/-- The number of sections that a path leads into. -/
def BlockPath.depth : BlockPath → Nat
  | _ :: _ :: rest => depth rest + 1
  | _ => 0

mutual

/-- The blocks around the block that the rest of a path leads to from a block, itself first. -/
def Block.enclosing : BlockPath → Block → List Block
  | [], _ => []
  | part :: rest, b => b :: (b.sections[part]?).elim [] fun s => BlockDoc.enclosing rest s.blocks

/-- The blocks around the block at a path, outermost first. -/
def enclosing : BlockPath → List Block → List Block
  | [], _ => []
  | index :: rest, bs => (bs[index]?).elim [] fun b => b.enclosing rest

end

theorem Block.isContainer_of_section {b : Block} {i : Nat} {s : Section Block}
    (h : b.sections[i]? = some s) : b.isContainer := by
  obtain ⟨id, kind, data, position⟩ := b
  cases data with
  | container c => rfl
  | _ => exact absurd h nofun

/-- The blocks around a block are containers, one for each section on the way. -/
theorem enclosing_spec (p : BlockPath) {bs : List Block} {b : Block} (h : blockAt? p bs = some b) :
    (enclosing p bs).length = p.depth ∧ ∀ c ∈ enclosing p bs, c.isContainer := by
  match p with
  | [] => exact absurd h nofun
  | [index] =>
      obtain ⟨c, hc, -⟩ := Option.bind_eq_some_iff.mp h
      simp [enclosing, Block.enclosing, BlockPath.depth, hc]
  | index :: part :: rest =>
      obtain ⟨c, hc, hdescend⟩ := Option.bind_eq_some_iff.mp h
      obtain ⟨s, hs, hrest⟩ := Option.bind_eq_some_iff.mp hdescend
      obtain ⟨hlength, hcontainers⟩ := enclosing_spec rest hrest
      have heq : enclosing (index :: part :: rest) bs = c :: enclosing rest s.blocks := by
        simp [enclosing, Block.enclosing, hc, hs]
      rw [heq]
      refine ⟨congrArg (· + 1) hlength, fun d hd => ?_⟩
      rcases List.mem_cons.mp hd with rfl | hd
      · exact Block.isContainer_of_section hs
      · exact hcontainers d hd

/-! ### Members of a sequence -/

theorem exists_getElem?_of_length_eq {α β : Type} {l : List α} {l' : List β}
    (hlength : l.length = l'.length) {i : Nat} {x : α} (hx : l[i]? = some x) :
    ∃ y, l'[i]? = some y :=
  ⟨_, List.getElem?_eq_getElem (hlength ▸ (List.getElem?_eq_some_iff.mp hx).1)⟩

theorem translateFrom_id (scope : Scope) (index : Nat) (nodes : List Node) :
    ∀ b ∈ (translateFrom scope index nodes).1,
      b.id = provisionalId scope.documentId b.kind b.data := by
  induction nodes generalizing index with
  | nil => exact fun b hb => absurd hb List.not_mem_nil
  | cons n rest ih =>
      rw [translateFrom]
      cases Draft.ofContent? scope.registry n.content with
      | none => exact ih index
      | some d =>
          intro b hb
          rcases List.mem_cons.mp hb with rfl | hb
          · rfl
          · exact ih (index + 1) b hb

theorem translate_getElem? {scope : Scope} {nodes : List Node} {i : Nat} {b : Block}
    (h : (translate scope nodes).1[i]? = some b) :
    ∃ d, (draftsOf scope.registry nodes)[i]? = some d ∧
      b.id = provisionalId scope.documentId d.kind d.data ∧ b.kind = d.kind ∧
      b.data = d.data := by
  have hid := translateFrom_id scope 0 nodes b (List.mem_of_getElem? h)
  have hmember := congrArg (fun l => l[i]?) (translateFrom_blocks scope 0 nodes)
  simp only [List.getElem?_map, show (translateFrom scope 0 nodes).1[i]? = some b from h,
    Option.map_some] at hmember
  obtain ⟨d, hd, heq⟩ := Option.map_eq_some_iff.mp hmember.symm
  obtain ⟨hkind, hdata⟩ := Prod.mk.inj heq
  exact ⟨d, hd, by rw [hid, hkind, hdata], hkind.symm, hdata.symm⟩

theorem positionOf_translateFrom (scope : Scope) (index : Nat) (nodes : List Node) :
    ∀ b ∈ (translateFrom scope index nodes).1, scope.positionOf b.position = b.position := by
  induction nodes generalizing index with
  | nil => exact fun b hb => absurd hb List.not_mem_nil
  | cons n rest ih =>
      rw [translateFrom]
      cases Draft.ofContent? scope.registry n.content with
      | none => exact ih index
      | some d =>
          intro b hb
          rcases List.mem_cons.mp hb with rfl | hb
          · cases hcontainer : scope.container <;>
              simp [Draft.toBlock, Scope.positionOf, hcontainer]
          · exact ih (index + 1) b hb

theorem compileBlocksFrom_getElem? (inner : Option TextCompiler) (scope : Scope) (index i : Nat)
    (bs : List Block) :
    (compileBlocksFrom inner scope index bs).1[i]? =
      bs[i]?.map fun b => (compileBlock inner scope (index + i) b).1 := by
  induction bs generalizing index i with
  | nil => rfl
  | cons b bs ih =>
      cases i with
      | zero => rfl
      | succ i =>
          rw [compileBlocksFrom, List.getElem?_cons_succ, List.getElem?_cons_succ, ih (index + 1) i,
            Nat.add_right_comm, Nat.add_assoc]

theorem compileBlock_position (inner : Option TextCompiler) (scope : Scope) (index : Nat)
    (b : Block) : (compileBlock inner scope index b).1.position = b.position := by
  cases inner with
  | none => rw [(compileBlock_none scope index b).1]
  | some compileText => rw [compileBlock_some]

theorem compileSections_getElem? (compileText : TextCompiler) (scope : Scope) (block : Nat)
    (position : Range) (index i : Nat) (ss : List (Section Block)) :
    (compileSections compileText scope block position index ss).1[i]? =
      ss[i]?.map fun s => (s.compile compileText (scope.enter block (index + i) position)).1 := by
  induction ss generalizing index i with
  | nil => rfl
  | cons s rest ih =>
      rw [compileSections_cons]
      cases i with
      | zero => rfl
      | succ i =>
          rw [List.getElem?_cons_succ, List.getElem?_cons_succ, ih (index + 1) i,
            Nat.add_right_comm, Nat.add_assoc]

/-! ### What becomes of a draft -/

/-- The scope inside a section of the block at a path of a text that is compiled in a scope. -/
def Scope.inside (scope : Scope) (p : BlockPath) (position : Range) (index : Nat) : Scope :=
  { scope with
    path := scope.path ++ p ++ [index]
    depth := scope.depth + p.depth + 1
    container := some position }

/-- A block that comes from a draft at a path of a text that is compiled in a scope. -/
structure Block.ComesOf (scope : Scope) (p : BlockPath) (d : Draft) (b : Block) : Prop where
  id : b.id = provisionalId scope.documentId d.kind d.data
  kind : b.kind = d.kind
  fresh : ∀ s ∈ d.data.sections, s.blocks = []
  depth : p.depth ≤ scope.levelsLeft
  length : b.sections.length = d.data.sections.length
  atLimit : p.depth = scope.levelsLeft → b.data = d.data
  above : p.depth < scope.levelsLeft → ∀ i (s : Section Block), d.data.sections[i]? = some s →
    b.sections[i]? = some (s.compile compileFragment (scope.inside p b.position i)).1

theorem Block.ComesOf.kept {scope : Scope} {p : BlockPath} {d : Draft} {b : Block}
    (h : b.ComesOf scope p d) {i : Nat} {s : Section Block} (hs : d.data.sections[i]? = some s)
    (htext : s.hasMarkdown = false) : b.sections[i]? = some s := by
  rcases Nat.lt_or_eq_of_le h.depth with habove | hlimit
  · rw [h.above habove i s hs, Section.compile_of_no_text _ _ htext]
  · rw [Block.sections, h.atLimit hlimit, hs]

/-- The blocks in a section of a block come of a text above the limit. -/
theorem Block.ComesOf.exists_text {scope : Scope} {p : BlockPath} {d : Draft} {b : Block}
    (h : b.ComesOf scope p d) {i : Nat} {s : Section Block} (hs : b.sections[i]? = some s)
    (hne : s.blocks ≠ []) :
    p.depth < scope.levelsLeft ∧ ∃ props text,
      d.data.sections[i]? = some (.entry props (some (.markdown text))) ∧
        s.blocks = (compileFragment (scope.inside p b.position i) text).1 := by
  obtain ⟨s₀, hs₀⟩ := exists_getElem?_of_length_eq h.length hs
  have hfresh : s₀.blocks = [] := h.fresh s₀ (List.mem_of_getElem? hs₀)
  cases htext : s₀.hasMarkdown with
  | false =>
      obtain rfl := Option.some.inj ((h.kept hs₀ htext).symm.trans hs)
      exact absurd hfresh hne
  | true =>
      obtain ⟨props, text, rfl⟩ := Section.exists_text htext
      rcases Nat.lt_or_eq_of_le h.depth with habove | hlimit
      · obtain rfl := Option.some.inj ((h.above habove i _ hs₀).symm.trans hs)
        exact ⟨habove, props, text, hs₀, rfl⟩
      · rw [Block.sections, h.atLimit hlimit, hs₀] at hs
        obtain rfl := Option.some.inj hs
        exact absurd hfresh hne

theorem enter_eq_inside {scope : Scope} {position : Range}
    (h : scope.positionOf position = position) (index i : Nat) :
    scope.enter index i position = scope.inside [index] position i := by
  simp [Scope.enter, Scope.inside, BlockPath.depth, h]

/-- A block of a sequence comes of the draft that was translated to it. -/
theorem comesOf_compileBlock {scope : Scope} {b : Block} {d : Draft} (index : Nat)
    (hid : b.id = provisionalId scope.documentId d.kind d.data) (hkind : b.kind = d.kind)
    (hdata : b.data = d.data)
    (hfresh : ∀ s ∈ b.sections, s.blocks = [])
    (hposition : scope.positionOf b.position = b.position) :
    Block.ComesOf scope [index] d (compileBlock (compilerAt scope.levelsLeft) scope index b).1 := by
  rcases Nat.eq_zero_or_pos scope.levelsLeft with hlevels | hlevels
  · rw [hlevels, compilerAt, (compileBlock_none scope index b).1]
    exact ⟨hid, hkind, hdata ▸ hfresh, Nat.zero_le _, congrArg (·.sections.length) hdata,
      fun _ => hdata, fun h => absurd h (hlevels ▸ Nat.lt_irrefl 0)⟩
  · rw [compileBlock_above_limit (Nat.lt_of_sub_pos hlevels)]
    have hsections := sections_compileSections compileFragment scope index b
    refine ⟨hid, hkind, hdata ▸ hfresh, Nat.zero_le _, ?_,
      fun h => absurd h (Nat.ne_of_lt hlevels), fun _ i s hs => ?_⟩
    · rw [Block.sections, hsections, compileSections_length]
      exact congrArg (·.sections.length) hdata
    · rw [← hdata] at hs
      rw [Block.sections, hsections, compileSections_getElem?, Nat.zero_add,
        enter_eq_inside hposition, Block.sections, hs]
      rfl

/-- What comes of a draft inside a section comes of it in the whole text. -/
theorem Block.ComesOf.lift {scope : Scope} {index part : Nat} {position : Range}
    {rest : BlockPath} {d : Draft} {b : Block} (habove : scope.depth < scope.maxDepth)
    (h : Block.ComesOf (scope.enter index part position) rest d b) :
    Block.ComesOf scope (index :: part :: rest) d b := by
  have hlevels : (scope.enter index part position).levelsLeft + 1 = scope.levelsLeft :=
    levelsLeft_enter habove
  have hinside : ∀ position' i, (scope.enter index part position).inside rest position' i =
      scope.inside (index :: part :: rest) position' i := by
    intro position' i
    simp [Scope.inside, Scope.enter, BlockPath.depth, Nat.add_assoc, Nat.add_comm 1]
  refine ⟨h.id, h.kind, h.fresh, ?_, h.length, ?_, ?_⟩ <;> rw [← hlevels]
  · exact Nat.succ_le_succ h.depth
  · exact fun heq => h.atLimit (Nat.succ.inj heq)
  · intro hlt i s hs
    rw [← hinside]
    exact h.above (Nat.lt_of_succ_lt_succ hlt) i s hs

/-- Every block of a compiled text comes of a draft that was written at its path. -/
theorem exists_comesOf (p : BlockPath) {scope : Scope} {text : String} {b : Block}
    (h : blockAt? p (compileFragment scope text).1 = some b) :
    ∃ d, (p, d) ∈ authored scope.registry (scope.levelsLeft + 1) text ∧
      Block.ComesOf scope p d b := by
  -- the path leads from block to section to block, as texts lie inside each other
  match p with
  | [] => exact absurd h nofun
  | index :: rest =>
      obtain ⟨c, hc, hdescend⟩ := Option.bind_eq_some_iff.mp h
      rw [compileFragment_eq, compileContainers, compileBlocksFrom_getElem?, Nat.zero_add] at hc
      obtain ⟨b₀, hb₀, rfl⟩ := Option.map_eq_some_iff.mp hc
      obtain ⟨d, hd, hid, hkind, hdata⟩ := translate_getElem? hb₀
      have hmem := List.mem_of_getElem? hb₀
      have hposition := positionOf_translateFrom scope 0 (Node.parse text) b₀ hmem
      have hcomes := comesOf_compileBlock index hid hkind hdata
        (translateFrom_fresh scope 0 (Node.parse text) b₀ hmem) hposition
      have hwritten : ∀ {rest d'},
          (rest, d') ∈ ([], d) :: d.inside (authored scope.registry scope.levelsLeft) →
            (index :: rest, d') ∈ authored scope.registry (scope.levelsLeft + 1) text :=
        fun {rest _} h => BlockPath.mem_indexed.mpr ⟨index, d, rest, by rw [Nat.zero_add], hd, h⟩
      cases rest with
      | nil =>
          obtain rfl := Option.some.inj hdescend
          exact ⟨d, hwritten List.mem_cons_self, hcomes⟩
      | cons part rest =>
          obtain ⟨s, hs, hrest⟩ := Option.bind_eq_some_iff.mp hdescend
          -- something stands in the section
          have hne : s.blocks ≠ [] := by
            intro hnil
            rw [hnil] at hrest
            cases rest <;> exact absurd hrest nofun
          -- the block stands in a text of the draft, which is compiled like the whole text
          obtain ⟨hlevels, props, nested, hnested, hblocks⟩ := hcomes.exists_text hs hne
          rw [hblocks, compileBlock_position, ← enter_eq_inside hposition] at hrest
          obtain ⟨d', hd', hcomes'⟩ := exists_comesOf rest hrest
          have habove : scope.depth < scope.maxDepth := Nat.lt_of_sub_pos hlevels
          rw [levelsLeft_enter habove] at hd'
          have hinside : (part :: rest, d') ∈
              d.inside (authored scope.registry scope.levelsLeft) :=
            BlockPath.mem_indexed.mpr ⟨part, _, rest, by rw [Nat.zero_add], hnested, hd'⟩
          exact ⟨d', hwritten (List.mem_cons_of_mem _ hinside), hcomes'.lift habove⟩

/-! ### What is reported -/

theorem walkSections_of_fresh {ss : List (Section Block)} (h : ∀ s ∈ ss, s.blocks = []) :
    walkSections ss = [] := by
  induction ss with
  | nil => rfl
  | cons s rest ih =>
      rw [walkSections_cons, h s List.mem_cons_self, ih fun t ht => h t (List.mem_cons_of_mem s ht)]
      rfl

/-- The report on a container that lies too deep. -/
def Block.tooDeep (limit : Nat) (b : Block) : Diagnostic :=
  ⟨.tooDeep b.kind limit, some b.position⟩

/-- Of some blocks those that hold text are reported as lying too deep, one after the other, and
no others. -/
def ReportsTexts (limit : Nat) (bs : List Block) (f : Findings) : Prop :=
  f.diagnostics.filter (fun d => d.code = .recursionDepthExceeded) =
    (bs.filter Block.hasMarkdown).map (Block.tooDeep limit)

section Reports

variable {limit : Nat} {bs bs' : List Block} {f f' : Findings}

theorem ReportsTexts.append (h : ReportsTexts limit bs f) (h' : ReportsTexts limit bs' f') :
    ReportsTexts limit (bs ++ bs') (f ++ f') := by
  rw [ReportsTexts, Findings.diagnostics_append, List.filter_append, h, h', List.filter_append,
    List.map_append]

theorem ReportsTexts.cons {b : Block} (hb : b.hasMarkdown = false) (h : ReportsTexts limit bs f) :
    ReportsTexts limit (b :: bs) f := by
  rw [ReportsTexts, List.filter_cons_of_neg (by simp [hb])]
  exact h

theorem reportsTexts_translate (limit : Nat) (scope : Scope) (nodes : List Node) :
    ReportsTexts limit [] (translate scope nodes).2 := by
  refine List.filter_eq_nil_iff.mpr fun d hd => ?_
  have hcause := causes_translateFrom scope 0 nodes d hd
  obtain ⟨cause, position⟩ := d
  cases cause <;> simp_all [Cause.isOfComponent, Diagnostic.code, Cause.code]

variable {scope : Scope}

theorem reportsTexts_compileSections {block : Nat} {position : Range}
    (h : ∀ i text, ReportsTexts limit
      (allBlocks (compileFragment (scope.enter block i position) text).1)
      (compileFragment (scope.enter block i position) text).2)
    (index : Nat) {ss : List (Section Block)} (hfresh : ∀ s ∈ ss, s.blocks = []) :
    ReportsTexts limit
      (walkSections (compileSections compileFragment scope block position index ss).1)
      (compileSections compileFragment scope block position index ss).2 := by
  induction ss generalizing index with
  | nil => rfl
  | cons s rest ih =>
      rw [compileSections_cons, walkSections_cons]
      have hrest := ih (index + 1) fun t ht => hfresh t (List.mem_cons_of_mem s ht)
      refine ReportsTexts.append ?_ hrest
      cases htext : s.hasMarkdown with
      | false =>
          rw [Section.compile_of_no_text _ _ htext, hfresh s List.mem_cons_self]
          rfl
      | true =>
          obtain ⟨props, text, rfl⟩ := Section.exists_text htext
          exact h index text

theorem hasMarkdown_compileSections (compileText : TextCompiler) (scope : Scope) (block : Nat)
    (position : Range) (index : Nat) (ss : List (Section Block)) :
    (compileSections compileText scope block position index ss).1.any Section.hasMarkdown =
      false := by
  induction ss generalizing index with
  | nil => rfl
  | cons s rest ih =>
      rw [compileSections_cons, List.any_cons, ih (index + 1), Bool.or_false]
      cases s with
      | malformed v => rfl
      | entry props content => obtain _ | _ | _ | _ := content <;> rfl

theorem reportsTexts_compileBlock {index : Nat} {b : Block}
    (h : scope.depth < scope.maxDepth → ∀ i text, ReportsTexts scope.maxDepth
      (allBlocks (compileFragment (scope.enter index i b.position) text).1)
      (compileFragment (scope.enter index i b.position) text).2)
    (hfresh : ∀ s ∈ b.sections, s.blocks = []) :
    ReportsTexts scope.maxDepth
      (compileBlock (compilerAt scope.levelsLeft) scope index b).1.walk
      (compileBlock (compilerAt scope.levelsLeft) scope index b).2 := by
  -- a block that stays as it is has nothing inside
  have hleft : b.walk = [b] := by
    rw [Block.walk_eq, walkSections_of_fresh hfresh]
  cases htext : b.hasMarkdown with
  | false =>
      rw [compileBlock_of_no_text _ scope index htext, hleft]
      exact ReportsTexts.cons htext rfl
  | true =>
      rcases Nat.lt_or_ge scope.depth scope.maxDepth with habove | hdeep
      · have hsections := sections_compileSections compileFragment scope index b
        rw [compileBlock_above_limit habove, Block.walk_eq]
        refine ReportsTexts.cons ?_ ?_
        · rw [Block.hasMarkdown, Block.sections, hsections]
          exact hasMarkdown_compileSections compileFragment scope index b.position 0 b.sections
        · rw [Block.sections, hsections]
          exact reportsTexts_compileSections (h habove) 0 hfresh
      · rw [compileBlock_at_limit hdeep index htext, hleft]
        simp [ReportsTexts, htext, Findings.ofCauses, Diagnostic.code, Cause.code, Block.tooDeep]

theorem reportsTexts_compileBlocksFrom
    (h : scope.depth < scope.maxDepth → ∀ index i position text, ReportsTexts scope.maxDepth
      (allBlocks (compileFragment (scope.enter index i position) text).1)
      (compileFragment (scope.enter index i position) text).2)
    (index : Nat) {bs : List Block} (hfresh : ∀ b ∈ bs, ∀ s ∈ b.sections, s.blocks = []) :
    ReportsTexts scope.maxDepth
      (allBlocks (compileBlocksFrom (compilerAt scope.levelsLeft) scope index bs).1)
      (compileBlocksFrom (compilerAt scope.levelsLeft) scope index bs).2 := by
  induction bs generalizing index with
  | nil => rfl
  | cons b bs ih =>
      have hblock := reportsTexts_compileBlock
        (fun habove i text => h habove index i b.position text) (hfresh b List.mem_cons_self)
      exact hblock.append (ih (index + 1) fun c hc => hfresh c (List.mem_cons_of_mem b hc))

/-- The blocks of a compiled text that still hold texts are the ones that are reported. -/
theorem reportsTexts_compileFragment (scope : Scope) (text : String) :
    ReportsTexts scope.maxDepth (allBlocks (compileFragment scope text).1)
      (compileFragment scope text).2 := by
  induction scope using Scope.induction generalizing text with
  | h scope hinside =>
      have hblocks := reportsTexts_compileBlocksFrom hinside 0
        (translateFrom_fresh scope 0 (Node.parse text))
      have hall := (reportsTexts_translate scope.maxDepth scope (Node.parse text)).append hblocks
      rw [List.nil_append] at hall
      rw [compileFragment_eq]
      exact hall

end Reports

theorem ReportsTexts.of_withoutIds {limit : Nat} {bs bs' : List Block} {f : Findings}
    (h : ReportsTexts limit (allBlocks bs) f) (hsame : withoutIds bs' = withoutIds bs) :
    ReportsTexts limit (allBlocks bs') f := by
  have hwithout : ∀ l : List Block, (l.filter Block.hasMarkdown).map (Block.tooDeep limit) =
      ((l.map Block.withoutId).filter Block.hasMarkdown).map (Block.tooDeep limit) := by
    intro l
    simp [List.filter_map, Function.comp_def, Block.tooDeep]
  rw [ReportsTexts, hwithout, ← allBlocks_withoutIds, hsame, allBlocks_withoutIds, ← hwithout]
  exact h

/-! ### The document -/

namespace Compiler

/-- What a document holds of a draft with a number of containers around it. -/
structure Holds (compiler : Compiler) (options : CompileOptions) (text : String) (around : Nat)
    (p : BlockPath) (d : Draft) (b : Block) : Prop where
  written : (p, d) ∈ compiler.authored text
  shell : b.shell = d.shell
  /-- A section without a text stays as it was authored. -/
  kept : ∀ (i : Nat) (s : Section Block), d.data.sections[i]? = some s → s.hasMarkdown = false →
    b.sections[i]? = some s
  atLimit : around = compiler.maxDepth → b.data = d.data
  /-- Above the limit every text is compiled in the scope of its section. -/
  above : around < compiler.maxDepth → ∀ (i : Nat) props nested,
    d.data.sections[i]? = some (.entry props (some (.markdown nested))) →
      ∃ bs, b.sections[i]? = some (.entry props (some (.blocks bs))) ∧
        withoutIds bs = withoutIds (compileFragment
          ((compiler.scope options text).inside p b.position i) nested).1

section Document

variable {compiler : Compiler} {options : CompileOptions} {text : String} {p : BlockPath}
  {d : Draft} {b : Block}

theorem Holds.no_text {around : Nat} (h : compiler.Holds options text around p d b)
    (habove : around < compiler.maxDepth) : b.hasMarkdown = false := by
  refine List.any_eq_false.mpr fun s' hs' => ?_
  obtain ⟨i, hi⟩ := List.mem_iff_getElem?.mp hs'
  have hlength := BlockData.length_sections_of_shell (congrArg (·.2) h.shell)
  obtain ⟨s, hs⟩ := exists_getElem?_of_length_eq hlength hi
  cases htext : s.hasMarkdown with
  | false =>
      rw [h.kept i s hs htext] at hi
      obtain rfl := Option.some.inj hi
      simp [htext]
  | true =>
      obtain ⟨props, nested, rfl⟩ := Section.exists_text htext
      obtain ⟨bs, hbs, -⟩ := h.above habove i props nested hs
      rw [hbs] at hi
      obtain rfl := Option.some.inj hi
      simp [Section.hasMarkdown]

/-- What comes of a draft stands in the document, with final ids. -/
theorem exists_holds (h : blockAt? p (compiler.finalBlocks options text) = some b) :
    p.depth ≤ compiler.maxDepth ∧ ∃ d, compiler.Holds options text p.depth p d b := by
  obtain ⟨b₀, hb₀, hsame⟩ := exists_blockAt_of_finalizeIds h
  obtain ⟨d, hd, hcomes⟩ := exists_comesOf p hb₀
  have hposition : b.position = b₀.position := by
    rw [← b.position_withoutId, ← hsame, b₀.position_withoutId]
  have hshell : b.shell = d.shell := by
    obtain ⟨c, hc, hshell⟩ := compiler.exists_block_of_authored options text hd
    obtain rfl := Option.some.inj (hc.symm.trans h)
    exact hshell
  refine ⟨hcomes.depth, d, hd, hshell, fun i s hs htext => ?_, fun hlimit => ?_,
    fun habove i props nested hs => ?_⟩
  · obtain ⟨s', hs', hsection⟩ := Block.exists_section_of_withoutId hsame (hcomes.kept hs htext)
    rw [hs', Section.eq_of_withoutIds (hcomes.fresh s (List.mem_of_getElem? hs)) hsection]
  · have hdata := hcomes.atLimit hlimit
    rw [← hdata]
    exact Block.data_eq_of_withoutId hsame fun s hs => hcomes.fresh s (hdata ▸ hs)
  · obtain ⟨s', hs', hsection⟩ :=
      Block.exists_section_of_withoutId hsame (hcomes.above habove i _ hs)
    obtain ⟨bs, rfl, hbs⟩ := Section.exists_of_withoutIds hsection
    rw [hposition]
    exact ⟨bs, hs', hbs⟩

end Document

/-- The compilation of containers ends for every context, in one way, and
leaves the context where it was. No block of a document lies under more
containers than the limit allows. A draft under fewer containers has all texts
of its sections compiled, one under as many keeps them, and nothing else
changes in a section. The blocks that still hold texts are reported, once
each. -/
theorem containers_compile_up_to_limit (compiler : Compiler) (options : CompileOptions)
    (text : String) :
    let limit := compiler.maxDepth
    let result := compiler.compile options text
    let blocks := result.document.blocks
    (∀ c index bs bs' c',
      let compiled := compileBlocksFrom (compilerAt c.scope.levelsLeft) c.scope index bs
      CompilesBlocks c index bs bs' c' ↔
        bs' = compiled.1 ∧ c'.found = c.found ++ compiled.2 ∧ c'.scope = c.scope) ∧
    (∀ c nested bs c',
      let compiled := compileFragment c.scope nested
      CompilesText c nested bs c' ↔
        bs = compiled.1 ∧ c'.found = c.found ++ compiled.2 ∧ c'.scope = c.scope) ∧
    (∀ p b, blockAt? p blocks = some b →
      let around := enclosing p blocks
      (∀ c ∈ around, c.isContainer) ∧ around.length ≤ limit ∧
        (b.hasMarkdown → around.length = limit) ∧
        ∃ d, compiler.Holds options text around.length p d b) ∧
    result.diagnostics.filter (fun d => d.code = .recursionDepthExceeded) =
      ((allBlocks blocks).filter Block.hasMarkdown).map fun b =>
        ⟨.tooDeep b.kind limit, some b.position⟩ := by
  simp only [compile_blocks]
  refine ⟨?_, ?_, ?_, ?_⟩
  · intro c index bs bs' c'
    rw [compilesBlocks_iff, Context.eq_record_iff]
  · intro c nested bs c'
    rw [compilesText_iff, Context.eq_record_iff]
  · intro p b hb
    obtain ⟨hlength, hcontainers⟩ := enclosing_spec p hb
    obtain ⟨hdepth, d, hholds⟩ := exists_holds hb
    rw [hlength]
    refine ⟨hcontainers, hdepth, fun htext => ?_, d, hholds⟩
    by_contra hne
    have hnone := hholds.no_text (Nat.lt_of_le_of_ne hdepth hne)
    exact absurd htext (by simp [hnone])
  · have hreports := reportsTexts_compileFragment (compiler.scope options text) text
    rw [diagnostics_about_depth]
    exact hreports.of_withoutIds (withoutIds_finalizeIds _)

end Compiler

end BlockDoc
