import BlockDoc.Proofs.Compilation.Diagnostics

/-!
Which block a violation names. Containers are validated before ids are final,
and a violation names the id that its container has then. The first block with
that id keeps it, so the violation leads to this block: to the container itself
if and only if no block in front of it had the same id.
-/

namespace BlockDoc

namespace Compiler

section Violations

variable (compiler : Compiler) (options : CompileOptions) (text : String)

/-- A violation that is reported is one by a drafted container. -/
theorem mem_violations_iff {d : Diagnostic} :
    d ∈ (compiler.compile options text).diagnostics ∧ d.cause.phase = .container ∧
        d.code = .schemaValidationError ↔
      ∃ p b v, blockAt? p (compiler.drafted options text).1 = some b ∧ b.isContainer ∧
        v ∈ compiler.registry.validate b.kind b.data ∧
        d = ⟨.container b.id b.kind v, some b.position⟩ := by
  have hreported : d ∈ (compiler.compile options text).diagnostics ∧
      d.cause.phase = .container ∧ d.code = .schemaValidationError ↔
        d ∈ validateContainers compiler.registry (compiler.drafted options text).1 := by
    rw [← diagnostics_about_containers, List.mem_filter, decide_eq_true_iff]
  rw [hreported, validateContainers, List.mem_flatMap]
  constructor
  · rintro ⟨b, hb, hd⟩
    obtain ⟨p, hp⟩ := mem_allBlocks.mp hb
    by_cases hcontainer : b.isContainer
    · rw [if_pos hcontainer] at hd
      obtain ⟨v, hv, rfl⟩ := List.mem_map.mp hd
      exact ⟨p, b, v, hp, hcontainer, hv, rfl⟩
    · rw [if_neg hcontainer] at hd
      exact absurd hd List.not_mem_nil
  · rintro ⟨p, b, v, hp, hcontainer, hv, rfl⟩
    refine ⟨b, mem_allBlocks.mpr ⟨p, hp⟩, ?_⟩
    rw [if_pos hcontainer]
    exact List.mem_map.mpr ⟨v, hv, rfl⟩

/-- The violations by containers are reported with the ids that blocks have
before ids are final. The block that such an id leads to in the document is
the container itself if and only if no block in front of it had the same id;
it is the first block that had it. -/
theorem violation_names_container_iff (compiler : Compiler) (options : CompileOptions)
    (text : String) :
    let drafted := (compiler.drafted options text).1
    let result := compiler.compile options text
    let blocks := result.document.blocks
    (∀ d, d ∈ result.diagnostics ∧ d.cause.phase = .container ∧ d.code = .schemaValidationError ↔
      ∃ p b v, blockAt? p drafted = some b ∧ b.isContainer ∧
        v ∈ compiler.registry.validate b.kind b.data ∧
        d = ⟨.container b.id b.kind v, some b.position⟩ ∧
        d.cause.message = "block " ++ b.id ++ " (" ++ b.kind ++ "): " ++ v.toText) ∧
    ∀ p b, blockAt? p drafted = some b →
      (∃ c, blockAt? p blocks = some c ∧ c.withoutId = b.withoutId ∧
        (findBlock? b.id blocks = some c ↔ FirstWithId drafted p b)) ∧
      ∃ q first, FirstWithId drafted q first ∧ first.id = b.id ∧
        findBlock? b.id blocks = blockAt? q blocks := by
  simp only [compile_blocks]
  refine ⟨fun d => ?_, fun p b hb => ⟨?_, ?_⟩⟩
  · rw [mem_violations_iff]
    constructor
    · rintro ⟨p, b, v, hp, hcontainer, hv, rfl⟩
      exact ⟨p, b, v, hp, hcontainer, hv, rfl, rfl⟩
    · rintro ⟨p, b, v, hp, hcontainer, hv, rfl, -⟩
      exact ⟨p, b, v, hp, hcontainer, hv, rfl⟩
  · obtain ⟨c, hc, hsame⟩ := exists_blockAt_finalizeIds hb
    exact ⟨c, hc, hsame, findBlock_finalizeIds_iff hb hc⟩
  · obtain ⟨q, first, hfirst, hid⟩ := exists_firstWithId hb
    exact ⟨q, first, hfirst, hid, hid ▸ hfirst.findBlock⟩

/-- Two containers that differ in their positions only are reported under one
id, which leads to the first of them. -/
theorem violations_of_twins {compiler : Compiler} {options : CompileOptions} {text : String}
    {id kind : String} {data : BlockData Block} {r r' : Range} {v : Violation}
    (hdrafted : (compiler.drafted options text).1 = [⟨id, kind, data, r⟩, ⟨id, kind, data, r'⟩])
    (hcontainer : ∀ r, (Block.mk id kind data r).isContainer)
    (hv : v ∈ compiler.registry.validate kind data) :
    let result := compiler.compile options text
    ∃ b c, blockAt? [0] result.document.blocks = some b ∧ b.position = r ∧
      blockAt? [1] result.document.blocks = some c ∧ c.position = r' ∧
      ⟨.container id kind v, some b.position⟩ ∈ result.diagnostics ∧
      ⟨.container id kind v, some c.position⟩ ∈ result.diagnostics ∧
      findBlock? id result.document.blocks = some b := by
  have hzero : blockAt? [0] (compiler.drafted options text).1 = some ⟨id, kind, data, r⟩ := by
    rw [hdrafted]
    rfl
  have hone : blockAt? [1] (compiler.drafted options text).1 = some ⟨id, kind, data, r'⟩ := by
    rw [hdrafted]
    rfl
  have hfirst : FirstWithId (compiler.drafted options text).1 [0] ⟨id, kind, data, r⟩ := by
    refine ⟨hzero, fun q c hc hlt => ?_⟩
    -- no path is before the first one
    cases q with
    | nil => exact absurd hc nofun
    | cons k rest => simp [List.cons_lt_cons_iff] at hlt
  obtain ⟨b, hb, hbsame⟩ := exists_blockAt_finalizeIds hzero
  obtain ⟨c, hc, hcsame⟩ := exists_blockAt_finalizeIds hone
  have hbposition : b.position = r := by simpa using congrArg Block.position hbsame
  have hcposition : c.position = r' := by simpa using congrArg Block.position hcsame
  simp only [compile_blocks]
  refine ⟨b, c, hb, hbposition, hc, hcposition, ?_, ?_, ?_⟩
  · rw [hbposition]
    exact ((mem_violations_iff _ _ _).mpr ⟨[0], _, _, hzero, hcontainer r, hv, rfl⟩).1
  · rw [hcposition]
    exact ((mem_violations_iff _ _ _).mpr ⟨[1], _, _, hone, hcontainer r', hv, rfl⟩).1
  · exact (findBlock_finalizeIds_iff hzero hb).mpr hfirst

end Violations

/-- Two containers that are written alike and have no sections. -/
def twinText : String := "```ui:tabs\n```\n\n```ui:tabs\n```\n"

/-- Whether there are two tabs without a body, at two positions. -/
def areTwins : List Node → Bool
  | [.mk r (.code (some kind) none body), .mk r' (.code (some kind') none body')] =>
    kind == "ui:tabs" && kind' == "ui:tabs" && body == "" && body' == "" && r != r'
  | _ => false

theorem parse_twinText : ∃ r r', r ≠ r' ∧ Node.parse twinText =
    [.mk r (.code (some "ui:tabs") none ""), .mk r' (.code (some "ui:tabs") none "")] := by
  have hnodes : areTwins (Node.parse twinText) = true := by decide +kernel
  rw [areTwins.eq_def] at hnodes
  split at hnodes
  · next r kind body r' kind' body' hparse =>
      simp only [Bool.and_eq_true, beq_iff_eq, bne_iff_ne] at hnodes
      obtain ⟨⟨⟨⟨rfl, rfl⟩, rfl⟩, rfl⟩, hne⟩ := hnodes
      exact ⟨r, r', hne, hparse⟩
  · exact absurd hnodes Bool.false_ne_true

/-- The containers differ in their positions only, so they have one id. -/
theorem drafted_twinText (options : CompileOptions) :
    ∃ id data r r', r ≠ r' ∧ (∀ r, (Block.mk id "ui:tabs" data r).isContainer) ∧
      (⟨"tabs", "missing required field"⟩ : Violation) ∈
        Compiler.default.registry.validate "ui:tabs" data ∧
      (Compiler.default.drafted options twinText).1 =
        [⟨id, "ui:tabs", data, r⟩, ⟨id, "ui:tabs", data, r'⟩] := by
  obtain ⟨r, r', hne, hparse⟩ := parse_twinText
  refine ⟨provisionalId (Compiler.default.scope options twinText).documentId "ui:tabs"
    (.container ⟨"tabs", "content", [], none⟩), .container ⟨"tabs", "content", [], none⟩, r, r',
    hne, fun _ => rfl, by decide, ?_⟩
  rw [drafted, compileFragment, compileWith_eq, hparse]
  rfl

/-- Both containers are reported under one id, which leads to the first of them. -/
theorem twinText_violations :
    let result := Compiler.default.compile ⟨none, some "d"⟩ twinText
    let blocks := result.document.blocks
    ∃ id kind v b c, blockAt? [0] blocks = some b ∧ blockAt? [1] blocks = some c ∧
      b.position ≠ c.position ∧
      ⟨.container id kind v, some b.position⟩ ∈ result.diagnostics ∧
      ⟨.container id kind v, some c.position⟩ ∈ result.diagnostics ∧
      findBlock? id blocks = some b := by
  obtain ⟨id, data, r, r', hne, hcontainer, hv, hdrafted⟩ := drafted_twinText ⟨none, some "d"⟩
  obtain ⟨b, c, hb, rfl, hc, rfl, hfirst, hsecond, hfind⟩ :=
    violations_of_twins hdrafted hcontainer hv
  exact ⟨id, "ui:tabs", _, b, c, hb, hc, hne, hfirst, hsecond, hfind⟩

end Compiler

end BlockDoc
