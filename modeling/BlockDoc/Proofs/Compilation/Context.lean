import BlockDoc.Proofs.Compilation.Record

/-!
Compilation as a run with a context. The context says where in the document
the run is and collects what is found; at a section the run goes down into it,
and out again behind it. Runs are given by relations that know of no number of
levels. Each one ends, in one way only: with the blocks and the findings of
the compiler for its scope, and back in the scope in which it began.
-/

namespace BlockDoc

/-! ### Fragments inside fragments -/

theorem levelsLeft_enter {scope : Scope} (h : scope.depth < scope.maxDepth) {index i : Nat}
    {position : Range} : (scope.enter index i position).levelsLeft + 1 = scope.levelsLeft := by
  simp only [Scope.levelsLeft, Scope.enter]
  omega

/-- Induction over scopes: what holds in a scope if it holds inside the sections
above the limit holds in every scope. -/
theorem Scope.induction {P : Scope → Prop}
    (h : ∀ scope : Scope,
      (scope.depth < scope.maxDepth → ∀ block i position, P (scope.enter block i position)) →
        P scope)
    (scope : Scope) : P scope := by
  induction hlevels : scope.levelsLeft generalizing scope with
  | zero => exact h scope fun habove => absurd hlevels (Nat.sub_ne_zero_of_lt habove)
  | succ levels ih =>
      refine h scope fun habove block i position => ih _ ?_
      exact Nat.succ.inj ((levelsLeft_enter habove).trans hlevels)

theorem compileFragment_eq (scope : Scope) (text : String) :
    compileFragment scope text =
      ((compileContainers scope (translate scope (Node.parse text)).1).1,
        (translate scope (Node.parse text)).2 ++
          (compileContainers scope (translate scope (Node.parse text)).1).2) :=
  compileWith_eq _ scope text

theorem compileSections_congr {compileText compileText' : TextCompiler} {scope : Scope}
    {block : Nat} {position : Range}
    (h : ∀ i, compileText (scope.enter block i position) =
      compileText' (scope.enter block i position))
    (index : Nat) (ss : List (Section Block)) :
    compileSections compileText scope block position index ss =
      compileSections compileText' scope block position index ss := by
  induction ss generalizing index with
  | nil => rfl
  | cons s rest ih =>
      have hs : s.compile compileText (scope.enter block index position) =
          s.compile compileText' (scope.enter block index position) := by
        cases s with
        | malformed v => rfl
        | entry props content =>
            obtain _ | text | _ | _ := content
            case some.markdown => simp only [Section.compile, h]
            all_goals rfl
      rw [compileSections_cons, compileSections_cons, hs, ih]

theorem compileBlock_above_limit {scope : Scope} (h : scope.depth < scope.maxDepth) (index : Nat)
    (b : Block) :
    compileBlock (compilerAt scope.levelsLeft) scope index b =
      (⟨b.id, b.kind, b.data.withSections
          (compileSections compileFragment scope index b.position 0 b.sections).1, b.position⟩,
        (compileSections compileFragment scope index b.position 0 b.sections).2) := by
  obtain ⟨levels, hlevels⟩ : ∃ levels, scope.levelsLeft = levels + 1 :=
    Nat.exists_eq_add_one.mpr (Nat.sub_pos_of_lt h)
  have hinside : ∀ i, compileWith (compilerAt levels) (scope.enter index i b.position) =
      compileFragment (scope.enter index i b.position) := by
    intro i
    have hlevels' : (scope.enter index i b.position).levelsLeft = levels :=
      Nat.succ.inj ((levelsLeft_enter h).trans hlevels)
    funext text
    rw [compileFragment, hlevels']
  rw [hlevels, compilerAt, compileBlock_some, compileSections_congr hinside]

theorem compileBlock_at_limit {scope : Scope} (h : scope.maxDepth ≤ scope.depth) (index : Nat)
    {b : Block} (htext : b.hasMarkdown) :
    compileBlock (compilerAt scope.levelsLeft) scope index b =
      (b, .ofCauses b.position [.tooDeep b.kind scope.maxDepth]) := by
  rw [Scope.levelsLeft, Nat.sub_eq_zero_of_le h]
  exact compileBlock_too_deep scope index htext

/-! ### Runs -/

/-- Where a run is, and what it has found. -/
structure Context where
  scope : Scope
  found : Findings

namespace Context

def record (c : Context) (found : Findings) : Context := { c with found := c.found ++ found }

/-- Goes down into a section of a block. -/
def enter (c : Context) (block index : Nat) (position : Range) : Context :=
  { c with scope := c.scope.enter block index position }

/-- Goes out of a section, to a sequence inside a given outermost container: the last block and the
last section of the path are dropped. -/
def leave (c : Context) (container : Option Range) : Context :=
  { c with scope := { c.scope with
      path := c.scope.path.take (c.scope.path.length - 2)
      depth := c.scope.depth - 1
      container := container } }

@[simp] theorem record_none (c : Context) : c.record .none = c := by
  simp [record]

theorem record_record (c : Context) (found more : Findings) :
    (c.record found).record more = c.record (found ++ more) := by
  simp [record, Findings.append_assoc]

theorem eq_record_iff {c c' : Context} {found : Findings} :
    c' = c.record found ↔ c'.found = c.found ++ found ∧ c'.scope = c.scope := by
  constructor
  · rintro rfl
    exact ⟨rfl, rfl⟩
  · rintro ⟨hfound, hscope⟩
    obtain ⟨scope', found'⟩ := c'
    obtain rfl : scope' = c.scope := hscope
    obtain rfl : found' = c.found ++ found := hfound
    rfl

/-- Going out of a section leads back to where it was entered. -/
theorem leave_enter (c : Context) (block index : Nat) (position : Range) (found : Findings) :
    ((c.enter block index position).record found).leave c.scope.container = c.record found := by
  simp [leave, enter, record, Scope.enter]

end Context

mutual

/-- A text is compiled: its nodes are translated, and then its containers are compiled. -/
inductive CompilesText : Context → String → List Block → Context → Prop
  | text {c c' : Context} {text : String} {bs : List Block}
      (blocks : CompilesBlocks (c.record (translate c.scope (Node.parse text)).2) 0
        (translate c.scope (Node.parse text)).1 bs c') :
      CompilesText c text bs c'

/-- The containers of a sequence of blocks are compiled, the first block having a given index. -/
inductive CompilesBlocks : Context → Nat → List Block → List Block → Context → Prop
  | done {c : Context} {index : Nat} : CompilesBlocks c index [] [] c
  | block {c c₁ c' : Context} {index : Nat} {b b' : Block} {bs bs' : List Block}
      (block : CompilesBlock c index b b' c₁) (rest : CompilesBlocks c₁ (index + 1) bs bs' c') :
      CompilesBlocks c index (b :: bs) (b' :: bs') c'

/-- A block is compiled: only a container with text changes, or is reported if it is too deep. -/
inductive CompilesBlock : Context → Nat → Block → Block → Context → Prop
  | plain {c : Context} {index : Nat} {b : Block} (noText : b.hasMarkdown = false) :
      CompilesBlock c index b b c
  | tooDeep {c : Context} {index : Nat} {b : Block} (hasText : b.hasMarkdown)
      (deep : c.scope.maxDepth ≤ c.scope.depth) :
      CompilesBlock c index b b
        (c.record (.ofCauses b.position [.tooDeep b.kind c.scope.maxDepth]))
  | compiled {c c' : Context} {index : Nat} {b : Block} {ss : List (Section Block)}
      (hasText : b.hasMarkdown) (above : c.scope.depth < c.scope.maxDepth)
      (sections : CompilesSections c index b.position 0 b.sections ss c') :
      CompilesBlock c index b ⟨b.id, b.kind, b.data.withSections ss, b.position⟩ c'

/-- The sections of a block are compiled, the first of which has a given index. -/
inductive CompilesSections :
    Context → Nat → Range → Nat → List (Section Block) → List (Section Block) → Context → Prop
  | done {c : Context} {block index : Nat} {position : Range} :
      CompilesSections c block position index [] [] c
  | kept {c c' : Context} {block index : Nat} {position : Range} {s : Section Block}
      {ss ss' : List (Section Block)} (noText : s.hasMarkdown = false)
      (rest : CompilesSections c block position (index + 1) ss ss' c') :
      CompilesSections c block position index (s :: ss) (s :: ss') c'
  | text {c c₁ c' : Context} {block index : Nat} {position : Range} {props : Fields}
      {text : String} {bs : List Block} {ss ss' : List (Section Block)}
      (inside : CompilesText (c.enter block index position) text bs c₁)
      (rest : CompilesSections (c₁.leave c.scope.container) block position (index + 1) ss ss' c') :
      CompilesSections c block position index (.entry props (some (.markdown text)) :: ss)
        (.entry props (some (.blocks bs)) :: ss') c'

end

/-! ### A run gives what the compiler gives -/

mutual

theorem CompilesText.eq {c c' : Context} {text : String} {bs : List Block}
    (h : CompilesText c text bs c') :
    bs = (compileFragment c.scope text).1 ∧ c' = c.record (compileFragment c.scope text).2 := by
  match h with
  | .text blocks =>
      obtain ⟨rfl, rfl⟩ := blocks.eq
      rw [compileFragment_eq, Context.record_record]
      exact ⟨rfl, rfl⟩
  termination_by structural h

theorem CompilesBlocks.eq {c c' : Context} {index : Nat} {bs bs' : List Block}
    (h : CompilesBlocks c index bs bs' c') :
    bs' = (compileBlocksFrom (compilerAt c.scope.levelsLeft) c.scope index bs).1 ∧
      c' = c.record (compileBlocksFrom (compilerAt c.scope.levelsLeft) c.scope index bs).2 := by
  match h with
  | .done => exact ⟨rfl, c.record_none.symm⟩
  | .block block rest =>
      -- taken first, for the next step replaces the context in which the rest begins
      have hrest := rest.eq
      obtain ⟨rfl, rfl⟩ := block.eq
      obtain ⟨rfl, rfl⟩ := hrest
      rw [Context.record_record]
      exact ⟨rfl, rfl⟩
  termination_by structural h

theorem CompilesBlock.eq {c c' : Context} {index : Nat} {b b' : Block}
    (h : CompilesBlock c index b b' c') :
    b' = (compileBlock (compilerAt c.scope.levelsLeft) c.scope index b).1 ∧
      c' = c.record (compileBlock (compilerAt c.scope.levelsLeft) c.scope index b).2 := by
  match h with
  | .plain noText =>
      rw [compileBlock_of_no_text _ _ _ noText, Context.record_none]
      exact ⟨rfl, rfl⟩
  | .tooDeep hasText deep =>
      rw [compileBlock_at_limit deep index hasText]
      exact ⟨rfl, rfl⟩
  | .compiled hasText above sections =>
      obtain ⟨rfl, rfl⟩ := sections.eq
      rw [compileBlock_above_limit above]
      exact ⟨rfl, rfl⟩
  termination_by structural h

theorem CompilesSections.eq {c c' : Context} {block index : Nat} {position : Range}
    {ss ss' : List (Section Block)} (h : CompilesSections c block position index ss ss' c') :
    ss' = (compileSections compileFragment c.scope block position index ss).1 ∧
      c' = c.record (compileSections compileFragment c.scope block position index ss).2 := by
  match h with
  | .done => exact ⟨rfl, c.record_none.symm⟩
  | .kept noText rest =>
      obtain ⟨rfl, rfl⟩ := rest.eq
      rw [compileSections_cons, Section.compile_of_no_text _ _ noText]
      exact ⟨rfl, rfl⟩
  | .text inside rest =>
      have hrest := rest.eq
      obtain ⟨rfl, rfl⟩ := inside.eq
      -- behind the section the run is back in the scope of its block
      rw [Context.leave_enter] at hrest
      obtain ⟨rfl, rfl⟩ := hrest
      rw [compileSections_cons, Context.record_record]
      exact ⟨rfl, rfl⟩
  termination_by structural h

end

theorem CompilesText.scope_eq {c c' : Context} {text : String} {bs : List Block}
    (h : CompilesText c text bs c') : c'.scope = c.scope := by
  rw [h.eq.2]
  rfl

theorem CompilesBlock.scope_eq {c c' : Context} {index : Nat} {b b' : Block}
    (h : CompilesBlock c index b b' c') : c'.scope = c.scope := by
  rw [h.eq.2]
  rfl

/-! ### A run ends -/

theorem Section.exists_text {s : Section Block} (h : s.hasMarkdown) :
    ∃ props text, s = .entry props (some (.markdown text)) := by
  cases s with
  | malformed v => exact absurd h Bool.false_ne_true
  | entry props content =>
      obtain _ | text | _ | _ := content
      case some.markdown => exact ⟨props, text, rfl⟩
      all_goals exact absurd h Bool.false_ne_true

section Existence

variable {scope : Scope}

theorem exists_compilesSections {block : Nat} {position : Range}
    (h : ∀ (c : Context) (i : Nat) (text : String), c.scope = scope.enter block i position →
      ∃ bs c', CompilesText c text bs c')
    {c : Context} (hc : c.scope = scope) (index : Nat) (ss : List (Section Block)) :
    ∃ ss' c', CompilesSections c block position index ss ss' c' := by
  induction ss generalizing c index with
  | nil => exact ⟨[], c, .done⟩
  | cons s rest ih =>
      cases htext : s.hasMarkdown with
      | false =>
          obtain ⟨rest', c', hrest⟩ := ih hc (index + 1)
          exact ⟨s :: rest', c', .kept htext hrest⟩
      | true =>
          obtain ⟨props, text, rfl⟩ := Section.exists_text htext
          obtain ⟨bs, c₁, hinside⟩ := h (c.enter block index position) index text
            (congrArg (fun scope => scope.enter block index position) hc)
          have hback : (c₁.leave c.scope.container).scope = scope := by
            rw [hinside.eq.2, Context.leave_enter]
            exact hc
          obtain ⟨rest', c', hrest⟩ := ih hback (index + 1)
          exact ⟨.entry props (some (.blocks bs)) :: rest', c', .text hinside hrest⟩

theorem exists_compilesBlock {index : Nat} {b : Block}
    (h : scope.depth < scope.maxDepth → ∀ (c : Context) (i : Nat) (text : String),
      c.scope = scope.enter index i b.position → ∃ bs c', CompilesText c text bs c')
    {c : Context} (hc : c.scope = scope) : ∃ b' c', CompilesBlock c index b b' c' := by
  cases htext : b.hasMarkdown with
  | false => exact ⟨b, c, .plain htext⟩
  | true =>
      rcases Nat.lt_or_ge c.scope.depth c.scope.maxDepth with habove | hdeep
      · obtain ⟨ss, c', hsections⟩ := exists_compilesSections (h (hc ▸ habove)) hc 0 b.sections
        exact ⟨_, c', .compiled htext habove hsections⟩
      · exact ⟨b, _, .tooDeep htext hdeep⟩

theorem exists_compilesBlocks
    (h : scope.depth < scope.maxDepth → ∀ (c : Context) (index i : Nat) (position : Range)
      (text : String), c.scope = scope.enter index i position → ∃ bs c', CompilesText c text bs c')
    {c : Context} (hc : c.scope = scope) (index : Nat) (bs : List Block) :
    ∃ bs' c', CompilesBlocks c index bs bs' c' := by
  induction bs generalizing c index with
  | nil => exact ⟨[], c, .done⟩
  | cons b bs ih =>
      obtain ⟨b', c₁, hb⟩ : ∃ b' c', CompilesBlock c index b b' c' :=
        exists_compilesBlock (fun habove c i text => h habove c index i b.position text) hc
      obtain ⟨bs', c', hbs⟩ := ih (hb.scope_eq.trans hc) (index + 1)
      exact ⟨b' :: bs', c', .block hb hbs⟩

/-- The compilation of a text ends: with each container one level less is left. -/
theorem exists_compilesText (c : Context) (text : String) :
    ∃ bs c', CompilesText c text bs c' := by
  obtain ⟨scope, found⟩ := c
  induction scope using Scope.induction generalizing found text with
  | h scope hinside =>
      have hsections : scope.depth < scope.maxDepth → ∀ (c : Context) (index i : Nat)
          (position : Range) (text : String), c.scope = scope.enter index i position →
          ∃ bs c', CompilesText c text bs c' := by
        rintro habove ⟨_, found⟩ index i position text rfl
        exact hinside habove index i position text found
      have hscope : (Context.record ⟨scope, found⟩ (translate scope (Node.parse text)).2).scope =
          scope := rfl
      obtain ⟨bs, c', h⟩ := exists_compilesBlocks hsections hscope 0 _
      exact ⟨bs, c', .text h⟩

end Existence

/-! ### Runs and the compiler -/

/-- A text is compiled in one way, by the compiler for the scope of the run. -/
theorem compilesText_iff {c c' : Context} {text : String} {bs : List Block} :
    CompilesText c text bs c' ↔
      bs = (compileFragment c.scope text).1 ∧ c' = c.record (compileFragment c.scope text).2 := by
  constructor
  · exact CompilesText.eq
  · rintro ⟨rfl, rfl⟩
    obtain ⟨bs, c', h⟩ := exists_compilesText c text
    obtain ⟨hbs, hc'⟩ := h.eq
    rwa [hbs, hc'] at h

/-- A run that begins with nothing ends with what is found in the text. -/
theorem compilesText_none_iff {scope : Scope} {c' : Context} {text : String} {bs : List Block} :
    CompilesText ⟨scope, .none⟩ text bs c' ↔
      bs = (compileFragment scope text).1 ∧ c' = ⟨scope, (compileFragment scope text).2⟩ := by
  rw [compilesText_iff, Context.record, Findings.none_append]

theorem compilesBlocks_iff {c c' : Context} {index : Nat} {bs bs' : List Block} :
    CompilesBlocks c index bs bs' c' ↔
      bs' = (compileBlocksFrom (compilerAt c.scope.levelsLeft) c.scope index bs).1 ∧
        c' = c.record (compileBlocksFrom (compilerAt c.scope.levelsLeft) c.scope index bs).2 := by
  constructor
  · exact CompilesBlocks.eq
  · rintro ⟨rfl, rfl⟩
    obtain ⟨bs', c', h⟩ := exists_compilesBlocks
      (fun _ c _ _ _ text _ => exists_compilesText c text) (rfl : c.scope = c.scope) index bs
    obtain ⟨hbs', hc'⟩ := h.eq
    rwa [hbs', hc'] at h

end BlockDoc
