import BlockDoc.Proofs.Compilation.Context
import BlockDoc.Proofs.Compilation.Diagnostics

/-!
The limit of nesting matters only where it is reached. A run that reports no
container as lying too deep takes the same steps under every larger limit, so
a text that compiles without such a report compiles to the same result.
-/

namespace BlockDoc

/-- No container is reported as lying too deep. -/
def Findings.Shallow (f : Findings) : Prop :=
  ∀ d ∈ f.diagnostics, d.code ≠ .recursionDepthExceeded

instance (f : Findings) : Decidable f.Shallow :=
  inferInstanceAs (Decidable (∀ d ∈ f.diagnostics, d.code ≠ .recursionDepthExceeded))

theorem Findings.Shallow.of_append {f f' : Findings} (h : (f ++ f').Shallow) : f.Shallow :=
  fun d hd => h d (List.mem_append_left f'.diagnostics hd)

/-- The same context with another limit. -/
def Context.withLimit (n : Nat) (c : Context) : Context :=
  { c with scope := { c.scope with maxDepth := n } }

theorem translateFrom_withLimit (n : Nat) (scope : Scope) (index : Nat) (nodes : List Node) :
    translateFrom { scope with maxDepth := n } index nodes = translateFrom scope index nodes := by
  induction nodes generalizing index with
  | nil => rfl
  | cons node rest ih =>
      rw [translateFrom, translateFrom, ih, ih]
      rfl

/-! ### Runs with a larger limit -/

theorem CompilesBlocks.shallow {c c' : Context} {index : Nat} {bs bs' : List Block}
    (h : CompilesBlocks c index bs bs' c') (hshallow : c'.found.Shallow) : c.found.Shallow := by
  rw [h.eq.2] at hshallow
  exact hshallow.of_append

theorem CompilesSections.shallow {c c' : Context} {block index : Nat} {position : Range}
    {ss ss' : List (Section Block)} (h : CompilesSections c block position index ss ss' c')
    (hshallow : c'.found.Shallow) : c.found.Shallow := by
  rw [h.eq.2] at hshallow
  exact hshallow.of_append

mutual

theorem CompilesText.withLimit {c c' : Context} {text : String} {bs : List Block} {n : Nat}
    (h : CompilesText c text bs c') (hle : c.scope.maxDepth ≤ n) (hshallow : c'.found.Shallow) :
    CompilesText (c.withLimit n) text bs (c'.withLimit n) := by
  match h with
  | .text blocks =>
      have hblocks := blocks.withLimit hle hshallow
      refine .text ?_
      rw [translate, show (c.withLimit n).scope = { c.scope with maxDepth := n } from rfl,
        translateFrom_withLimit]
      exact hblocks
  termination_by structural h

theorem CompilesBlocks.withLimit {c c' : Context} {index : Nat} {bs bs' : List Block} {n : Nat}
    (h : CompilesBlocks c index bs bs' c') (hle : c.scope.maxDepth ≤ n)
    (hshallow : c'.found.Shallow) :
    CompilesBlocks (c.withLimit n) index bs bs' (c'.withLimit n) := by
  match h with
  | .done => exact .done
  | .block block rest =>
      exact .block (block.withLimit hle (rest.shallow hshallow))
        (rest.withLimit (block.scope_eq ▸ hle) hshallow)
  termination_by structural h

theorem CompilesBlock.withLimit {c c' : Context} {index : Nat} {b b' : Block} {n : Nat}
    (h : CompilesBlock c index b b' c') (hle : c.scope.maxDepth ≤ n)
    (hshallow : c'.found.Shallow) :
    CompilesBlock (c.withLimit n) index b b' (c'.withLimit n) := by
  match h with
  | .plain noText => exact .plain noText
  | .tooDeep hasText deep =>
      -- the block was reported
      exact absurd rfl (hshallow _ (List.mem_append_right _ List.mem_cons_self))
  | .compiled hasText above sections =>
      exact .compiled hasText (Nat.lt_of_lt_of_le above hle) (sections.withLimit hle hshallow)
  termination_by structural h

theorem CompilesSections.withLimit {c c' : Context} {block index : Nat} {position : Range}
    {ss ss' : List (Section Block)} {n : Nat}
    (h : CompilesSections c block position index ss ss' c') (hle : c.scope.maxDepth ≤ n)
    (hshallow : c'.found.Shallow) :
    CompilesSections (c.withLimit n) block position index ss ss' (c'.withLimit n) := by
  match h with
  | .done => exact .done
  | .kept noText rest => exact .kept noText (rest.withLimit hle hshallow)
  | .text inside rest =>
      -- going into a section and out of it keeps the limit
      have hlimit := congrArg Scope.maxDepth inside.scope_eq
      exact .text (inside.withLimit hle (rest.shallow hshallow))
        (rest.withLimit (Nat.le_trans (Nat.le_of_eq hlimit) hle) hshallow)
  termination_by structural h

end

theorem compileFragment_withLimit {scope : Scope} {text : String} {n : Nat}
    (hle : scope.maxDepth ≤ n) (hshallow : (compileFragment scope text).2.Shallow) :
    compileFragment { scope with maxDepth := n } text = compileFragment scope text := by
  have hrun : CompilesText ⟨scope, .none⟩ text (compileFragment scope text).1
      ⟨scope, (compileFragment scope text).2⟩ := compilesText_none_iff.mpr ⟨rfl, rfl⟩
  obtain ⟨hblocks, hcontext⟩ := compilesText_none_iff.mp (hrun.withLimit hle hshallow)
  have hfound := congrArg Context.found hcontext
  exact Prod.ext hblocks.symm hfound.symm

namespace Compiler

/-- The containers that lie too deep are found while the text is drafted. -/
theorem shallow_iff (compiler : Compiler) (options : CompileOptions) (text : String) :
    (compiler.drafted options text).2.Shallow ↔
      ∀ d ∈ (compiler.compile options text).diagnostics, d.code ≠ .recursionDepthExceeded := by
  have hnil := congrArg (· = []) (compiler.diagnostics_about_depth options text)
  simpa [Findings.Shallow, List.filter_eq_nil_iff] using hnil.symm

/-- A text that compiles without a container that lies too deep compiles to
the same document, with the same diagnostics, under every larger limit. -/
theorem compile_eq_of_larger_limit (registry : Registry) (options : CompileOptions) (text : String)
    {n n' : Nat} (hle : n ≤ n')
    (h : ∀ d ∈ (compile ⟨registry, n⟩ options text).diagnostics,
      d.code ≠ .recursionDepthExceeded) :
    compile ⟨registry, n'⟩ options text = compile ⟨registry, n⟩ options text ∧
      (compile ⟨registry, n'⟩ options text).hasErrors =
        (compile ⟨registry, n⟩ options text).hasErrors := by
  have hdrafted : drafted ⟨registry, n'⟩ options text = drafted ⟨registry, n⟩ options text :=
    compileFragment_withLimit hle ((shallow_iff ⟨registry, n⟩ options text).mpr h)
  have hcompile : compile ⟨registry, n'⟩ options text = compile ⟨registry, n⟩ options text := by
    simp only [compile_eq, index, unresolved, finalBlocks, finalIds, hdrafted]
    rfl
  exact ⟨hcompile, congrArg Compilation.hasErrors hcompile⟩

/-- A container whose text holds no container. -/
def oneLevelText : String := "```ui:tabs\ntabs:\n- content: x\n```"

theorem compile_oneLevelText :
    let registry := Compiler.default.registry
    let options : CompileOptions := ⟨none, some "d"⟩
    1 ≤ 8 ∧
      (∀ d ∈ (compile ⟨registry, 1⟩ options oneLevelText).diagnostics,
        d.code ≠ .recursionDepthExceeded) ∧
      compile ⟨registry, 8⟩ options oneLevelText = compile ⟨registry, 1⟩ options oneLevelText ∧
      (compile ⟨registry, 8⟩ options oneLevelText).hasErrors =
        (compile ⟨registry, 1⟩ options oneLevelText).hasErrors := by
  have hshallow :
      (drafted ⟨Compiler.default.registry, 1⟩ ⟨none, some "d"⟩ oneLevelText).2.Shallow := by
    decide +kernel
  have hdiagnostics := (shallow_iff _ _ _).mp hshallow
  exact ⟨by decide, hdiagnostics, compile_eq_of_larger_limit _ _ _ (by decide) hdiagnostics⟩

end Compiler

end BlockDoc
