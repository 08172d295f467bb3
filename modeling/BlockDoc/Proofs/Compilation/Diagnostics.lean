import BlockDoc.Proofs.Compilation.Stages
import BlockDoc.Proofs.Resolution

/-!
Which stage of a compilation reports what. A cause tells the stage that reports
it, so the diagnostics of a kind are found in the list of one stage: violations
of containers where containers are validated, claims of anchors in the index of
the blocks, references where they are resolved.
-/

namespace BlockDoc

/-! ### Causes -/

/-- The stages of a compilation that report something. -/
inductive Stage where
  | frontMatter
  | drafting
  | validation
  | anchors
  | references
  deriving DecidableEq

namespace Cause

/-- Whether a cause is found in the body of a component. -/
def isOfComponent : Cause → Bool
  | componentYaml .. | noMapping _ | blankAnchor _ | component .. | refsNoArray _
  | refWithoutTarget .. => true
  | _ => false

/-- The stage that reports a cause. -/
def stage? : Cause → Option Stage
  | frontMatterYaml _ => some .frontMatter
  | componentYaml .. | noMapping _ | blankAnchor _ | component .. | refsNoArray _
  | refWithoutTarget .. | tooDeep .. => some .drafting
  | container .. => some .validation
  | duplicateAnchor .. => some .anchors
  | crossDocument .. | unresolved _ | ambiguous .. => some .references
  | stated .. => none

theorem stage_of_isOfComponent {c : Cause} (h : c.isOfComponent) : c.stage? = some .drafting := by
  cases c <;> first | rfl | cases h

end Cause

/-- All diagnostics have causes with a property. -/
def HaveCauses (P : Cause → Prop) (ds : List Diagnostic) : Prop := ∀ d ∈ ds, P d.cause

section HaveCauses

variable {P : Cause → Prop} {ds ds' : List Diagnostic}

theorem haveCauses_nil : HaveCauses P [] := fun _ hd => absurd hd List.not_mem_nil

theorem haveCauses_singleton {d : Diagnostic} (h : P d.cause) : HaveCauses P [d] := by
  intro d' hd'
  obtain rfl := List.mem_singleton.mp hd'
  exact h

theorem HaveCauses.append (h : HaveCauses P ds) (h' : HaveCauses P ds') :
    HaveCauses P (ds ++ ds') := by
  intro d hd
  rcases List.mem_append.mp hd with hd | hd
  · exact h d hd
  · exact h' d hd

theorem HaveCauses.imp {P' : Cause → Prop} (h : HaveCauses P ds) (himp : ∀ c, P c → P' c) :
    HaveCauses P' ds := fun d hd => himp d.cause (h d hd)

end HaveCauses

/-! ### Drafting -/

section Component

variable {registry : Registry} {kind body : String} {props : Fields} {c : Cause}

theorem Component.isOfComponent_of_readProps (hc : c ∈ (readProps kind body).2) :
    c.isOfComponent := by
  rw [readProps] at hc
  split_ifs at hc
  · exact absurd hc List.not_mem_nil
  · split at hc
    · exact absurd hc List.not_mem_nil
    · exact absurd hc List.not_mem_nil
    · obtain rfl := List.mem_singleton.mp hc
      rfl
    · obtain rfl := List.mem_singleton.mp hc
      rfl

theorem Component.isOfComponent_of_checkAnchor (hc : c ∈ checkAnchor kind props) :
    c.isOfComponent := by
  rw [checkAnchor] at hc
  split_ifs at hc
  · exact absurd hc List.not_mem_nil
  · obtain rfl := List.mem_singleton.mp hc
    rfl

theorem Component.isOfComponent_of_readRefs (hc : c ∈ (readRefs kind props).2) :
    c.isOfComponent := by
  rw [readRefs] at hc
  split at hc
  · exact absurd hc List.not_mem_nil
  · obtain ⟨⟨entry, i⟩, -, hentry⟩ := List.mem_filterMap.mp hc
    dsimp only at hentry
    split_ifs at hentry
    obtain rfl := Option.some.inj hentry
    rfl
  · obtain rfl := List.mem_singleton.mp hc
    rfl

theorem Component.isOfComponent_of_read (hc : c ∈ (Component.read registry kind body).causes) :
    c.isOfComponent := by
  have hbody : ∀ {c}, c ∈ (readProps kind body).2 ++ checkAnchor kind (readProps kind body).1 ++
      (readRefs kind (readProps kind body).1).2 → c.isOfComponent := by
    intro c hc
    rcases List.mem_append.mp hc with hc | hc
    · rcases List.mem_append.mp hc with hc | hc
      · exact isOfComponent_of_readProps hc
      · exact isOfComponent_of_checkAnchor hc
    · exact isOfComponent_of_readRefs hc
  cases hschema : registry.container? kind with
  | some schema => exact hbody (by simpa [Component.read, hschema] using hc)
  | none =>
      rw [Component.read, hschema] at hc
      rcases List.mem_append.mp hc with hc | hc
      · exact hbody hc
      · obtain ⟨v, -, rfl⟩ := List.mem_map.mp hc
        rfl

end Component

theorem Draft.isOfComponent_of_cause {registry : Registry} {content : Content} {d : Draft}
    (h : Draft.ofContent? registry content = some d) {c : Cause} (hc : c ∈ d.causes) :
    c.isOfComponent := by
  rcases Draft.ofContent_cases h with ⟨kind, data, -, rfl⟩ | ⟨kind, -, value, -, rfl⟩
  · exact absurd hc List.not_mem_nil
  · exact Component.isOfComponent_of_read hc

/-- Nodes alone give no other diagnostics than those about components. -/
theorem causes_translateFrom (scope : Scope) (index : Nat) (nodes : List Node) :
    HaveCauses (·.isOfComponent) (translateFrom scope index nodes).2.diagnostics := by
  induction nodes generalizing index with
  | nil => exact haveCauses_nil
  | cons n rest ih =>
      rw [translateFrom]
      cases hdraft : Draft.ofContent? scope.registry n.content with
      | none => exact ih index
      | some d =>
          refine HaveCauses.append ?_ (ih (index + 1))
          intro diagnostic hdiagnostic
          obtain ⟨c, hc, rfl⟩ := List.mem_map.mp hdiagnostic
          exact Draft.isOfComponent_of_cause hdraft hc

section Drafting

variable {inner : Option TextCompiler} {compileText : TextCompiler}

theorem causes_compileSections
    (h : ∀ scope text,
      HaveCauses (·.stage? = some .drafting) (compileText scope text).2.diagnostics)
    (scope : Scope) (block : Nat) (position : Range) (index : Nat) (ss : List (Section Block)) :
    HaveCauses (·.stage? = some .drafting)
      (compileSections compileText scope block position index ss).2.diagnostics := by
  induction ss generalizing index with
  | nil => exact haveCauses_nil
  | cons s rest ih =>
      rw [compileSections_cons]
      refine HaveCauses.append ?_ (ih (index + 1))
      cases s with
      | malformed v => exact haveCauses_nil
      | entry props content =>
          obtain _ | text | _ | _ := content
          case some.markdown => exact h _ text
          all_goals exact haveCauses_nil

theorem causes_compileBlock
    (h : ∀ compileText ∈ inner, ∀ scope text,
      HaveCauses (·.stage? = some .drafting) (compileText scope text).2.diagnostics)
    (scope : Scope) (index : Nat) (b : Block) :
    HaveCauses (·.stage? = some .drafting) (compileBlock inner scope index b).2.diagnostics := by
  cases inner with
  | some compileText =>
      rw [compileBlock_some]
      exact causes_compileSections (h compileText rfl) scope index b.position 0 b.sections
  | none =>
      unfold compileBlock
      split
      · split_ifs
        · exact haveCauses_singleton rfl
        · exact haveCauses_nil
      · exact haveCauses_nil

theorem causes_compileWith
    (h : ∀ compileText ∈ inner, ∀ scope text,
      HaveCauses (·.stage? = some .drafting) (compileText scope text).2.diagnostics)
    (scope : Scope) (text : String) :
    HaveCauses (·.stage? = some .drafting) (compileWith inner scope text).2.diagnostics := by
  have hblocks : ∀ index (bs : List Block),
      HaveCauses (·.stage? = some .drafting)
        (compileBlocksFrom inner scope index bs).2.diagnostics := by
    intro index bs
    induction bs generalizing index with
    | nil => exact haveCauses_nil
    | cons b bs ih => exact (causes_compileBlock h scope index b).append (ih (index + 1))
  refine HaveCauses.append ?_ (hblocks 0 _)
  exact (causes_translateFrom scope 0 (Node.parse text)).imp
    fun _ => Cause.stage_of_isOfComponent

theorem causes_compilerAt (levels : Nat) :
    ∀ compileText ∈ compilerAt levels, ∀ scope text,
      HaveCauses (·.stage? = some .drafting) (compileText scope text).2.diagnostics := by
  induction levels with
  | zero => exact fun compileText hcompile => absurd hcompile nofun
  | succ levels ih =>
      intro compileText hcompile
      obtain rfl := Option.some.inj hcompile
      exact causes_compileWith ih

end Drafting

/-! ### The other stages -/

theorem causes_frontMatter (nodes : List Node) :
    HaveCauses (·.stage? = some .frontMatter) (FrontMatter.read nodes).2 := by
  unfold FrontMatter.read
  split
  · split
    · exact haveCauses_nil
    · exact haveCauses_nil
    · exact haveCauses_singleton rfl
  · exact haveCauses_nil

theorem causes_validateContainers (registry : Registry) (bs : List Block) :
    HaveCauses (·.stage? = some .validation) (validateContainers registry bs) := by
  intro d hd
  obtain ⟨b, -, hd⟩ := List.mem_flatMap.mp hd
  split at hd
  · obtain ⟨v, -, rfl⟩ := List.mem_map.mp hd
    rfl
  · exact absurd hd List.not_mem_nil

theorem causes_duplicateAnchors (index : BlockIndex) :
    HaveCauses (·.stage? = some .anchors) index.duplicateAnchors := by
  intro d hd
  obtain ⟨⟨anchor, ids⟩, -, hids⟩ := List.mem_filterMap.mp hd
  match ids with
  | [] | [_] => exact absurd hids nofun
  | _ :: _ :: _ =>
      obtain rfl := Option.some.inj hids
      rfl

theorem causes_resolve (documentId : String) (index : BlockIndex) (rs : List Reference) :
    HaveCauses (·.stage? = some .references)
      (rs.flatMap fun r => (r.resolve documentId index).2) := by
  intro d hd
  obtain ⟨r, -, hd⟩ := List.mem_flatMap.mp hd
  obtain ⟨cause, htarget, rfl⟩ := Reference.mem_resolve hd
  rcases resolveTarget_cause htarget with rfl | rfl | rfl <;> rfl

namespace Compiler

variable (compiler : Compiler) (options : CompileOptions) (text : String)

/-- What a stage of a compilation reports. -/
def reported : Stage → List Diagnostic
  | .frontMatter => (FrontMatter.read (Node.parse text)).2
  | .drafting => (compiler.drafted options text).2.diagnostics
  | .validation => validateContainers compiler.registry (compiler.drafted options text).1
  | .anchors => (compiler.index options text).duplicateAnchors
  | .references => (compiler.unresolved options text).flatMap fun r =>
      (r.resolve (compiler.scope options text).documentId (compiler.index options text)).2

theorem causes_reported (stage : Stage) :
    HaveCauses (·.stage? = some stage) (compiler.reported options text stage) := by
  cases stage with
  | frontMatter => exact causes_frontMatter _
  | drafting => exact causes_compileWith (causes_compilerAt _) _ text
  | validation => exact causes_validateContainers _ _
  | anchors => exact causes_duplicateAnchors _
  | references => exact causes_resolve _ _ _

theorem diagnostics_eq_reported : (compiler.compile options text).diagnostics =
    [.frontMatter, .drafting, .validation, .anchors, .references].flatMap
      (compiler.reported options text) := by
  rw [compile_diagnostics]
  simp [reported]

theorem exists_stage_of_mem {d : Diagnostic}
    (hd : d ∈ (compiler.compile options text).diagnostics) : ∃ s, d.cause.stage? = some s := by
  rw [diagnostics_eq_reported] at hd
  obtain ⟨s, -, hreported⟩ := List.mem_flatMap.mp hd
  exact ⟨s, compiler.causes_reported options text s d hreported⟩

/-- Diagnostics that only one stage can report are found in its list. -/
theorem filter_diagnostics {Q : Diagnostic → Bool} (stage : Stage)
    (h : ∀ d s, d.cause.stage? = some s → Q d → s = stage) :
    (compiler.compile options text).diagnostics.filter Q =
      (compiler.reported options text stage).filter Q := by
  have hother : ∀ s, s ≠ stage → (compiler.reported options text s).filter Q = [] := fun s hs =>
    List.filter_eq_nil_iff.mpr fun d hd hQ =>
      hs (h d s (compiler.causes_reported options text s d hd) hQ)
  rw [diagnostics_eq_reported]
  cases stage <;> simp [hother]

/-- The containers that lie too deep are reported while the text is drafted. -/
theorem diagnostics_about_depth :
    (compiler.compile options text).diagnostics.filter
        (fun d => d.code = .recursionDepthExceeded) =
      (compiler.drafted options text).2.diagnostics.filter
        (fun d => d.code = .recursionDepthExceeded) := by
  refine compiler.filter_diagnostics options text .drafting ?_
  rintro ⟨cause, position⟩ s hs hcode
  cases cause <;> simp_all [Cause.stage?, Diagnostic.code, Cause.code]

/-- The violations by containers are reported when containers are validated. -/
theorem diagnostics_about_containers :
    (compiler.compile options text).diagnostics.filter
        (fun d => d.cause.phase = .container ∧ d.code = .schemaValidationError) =
      validateContainers compiler.registry (compiler.drafted options text).1 := by
  rw [compiler.filter_diagnostics options text .validation]
  · refine List.filter_eq_self.mpr fun d hd => ?_
    have hstage := causes_validateContainers _ _ d hd
    obtain ⟨cause, position⟩ := d
    cases cause <;> simp_all [Cause.stage?, Diagnostic.code, Cause.code, Cause.phase]
  · rintro ⟨cause, position⟩ s hs hQ
    cases cause <;> simp_all [Cause.stage?, Diagnostic.code, Cause.code, Cause.phase]

/-- The diagnostics about claims of anchors are those of the index. -/
theorem diagnostics_about_anchors :
    (compiler.compile options text).diagnostics.filter (fun d => d.code = .duplicateGlyphId) =
      (compiler.index options text).duplicateAnchors := by
  rw [compiler.filter_diagnostics options text .anchors]
  · refine List.filter_eq_self.mpr fun d hd => ?_
    have hstage := causes_duplicateAnchors _ d hd
    obtain ⟨cause, position⟩ := d
    cases cause <;> simp_all [Cause.stage?, Diagnostic.code, Cause.code]
  · rintro ⟨cause, position⟩ s hs hcode
    cases cause <;> simp_all [Cause.stage?, Diagnostic.code, Cause.code]

/-- The diagnostics about references are those of the resolution. -/
theorem diagnostics_about_references :
    (compiler.compile options text).diagnostics.filter (fun d => d.code.isReference) =
      (compiler.unresolved options text).flatMap fun r =>
        (r.resolve (compiler.scope options text).documentId (compiler.index options text)).2 := by
  rw [compiler.filter_diagnostics options text .references]
  · refine List.filter_eq_self.mpr fun d hd => ?_
    have hstage := causes_resolve _ _ _ d hd
    obtain ⟨cause, position⟩ := d
    cases cause <;> simp_all [Cause.stage?, Diagnostic.code, Cause.code, Code.isReference]
  · rintro ⟨cause, position⟩ s hs hcode
    cases cause <;> simp_all [Cause.stage?, Diagnostic.code, Cause.code, Code.isReference]

end Compiler

end BlockDoc
