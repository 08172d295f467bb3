import BlockDoc.Proofs.Block.Record
import BlockDoc.Proofs.Compilation.Depth
import BlockDoc.Proofs.Compilation.ExplicitReferences
import BlockDoc.Proofs.Texts

/-!
Containers keep the shape in which they were authored. Reading a mapping into a
container and writing the container gives the mapping back, and in a compiled
document a container differs from what was authored in the texts of its
sections only, which are the compiled blocks above the limit of nesting and
stay as they are at the limit.
-/

namespace BlockDoc

/-! ### Containers of mappings -/

section OfProps

variable {β : Type} {itemsField contentField : String} {props : Fields}

theorem Container.ofProps_items {items : List Value}
    (h : props.get? itemsField = some (.arr items)) :
    (ofProps itemsField contentField props : Container β) =
      ⟨itemsField, contentField, props.erase itemsField,
        some (items.map (Section.ofValue contentField))⟩ := by
  simp [ofProps, h]

theorem Container.ofProps_whole (h : ∀ items, props.get? itemsField ≠ some (.arr items)) :
    (ofProps itemsField contentField props : Container β) =
      ⟨itemsField, contentField, props, none⟩ := by
  rw [ofProps]
  split
  · exact absurd ‹_› (h _)
  · rfl

@[simp] theorem Container.itemsField_ofProps :
    (ofProps itemsField contentField props : Container β).itemsField = itemsField := by
  rw [ofProps]
  split <;> rfl

@[simp] theorem Container.contentField_ofProps :
    (ofProps itemsField contentField props : Container β).contentField = contentField := by
  rw [ofProps]
  split <;> rfl

end OfProps

theorem BlockData.exists_container_of_shell {β γ : Type} {data : BlockData β} {c : Container γ}
    (h : data.shell = (BlockData.container c).shell) :
    ∃ sections, data = .container ⟨c.itemsField, c.contentField, c.props, sections⟩ ∧
      sections.map (List.map Section.shell) = c.sections.map (List.map Section.shell) := by
  cases data with
  | container c' =>
      obtain ⟨itemsField, contentField, props, sections⟩ := c'
      simp only [shell, BlockData.container.injEq, Container.mk.injEq] at h
      obtain ⟨rfl, rfl, rfl, hsections⟩ := h
      exact ⟨sections, rfl, hsections⟩
  | _ => simp [shell] at h

theorem Block.exists_container {b : Block} (h : b.isContainer) : ∃ c, b.data = .container c := by
  obtain ⟨id, kind, data, position⟩ := b
  cases data with
  | container c => exact ⟨c, rfl⟩
  | _ => exact absurd h Bool.false_ne_true

/-- The blocks in a section of a block. -/
def Block.blocksIn (b : Block) (i : Nat) : List Block := (b.sections[i]?.map Section.blocks).getD []

namespace Component

variable {registry : Registry} {kind : String} (body : String)

theorem data_read_of_container {schema : ContainerSchema}
    (h : registry.container? kind = some schema) :
    (read registry kind body).data =
      .container (Container.ofProps schema.itemsField schema.contentField
        (readProps kind body).1) := by
  simp [read, h]

theorem data_read_of_no_container (h : registry.container? kind = none) :
    (read registry kind body).data = .component (readProps kind body).1 := by
  simp [read, h]

end Component

/-- The draft that is read from the body of a component. -/
def Draft.ofComponent (registry : Registry) (kind body : String) : Draft :=
  let c := Component.read registry kind body
  ⟨kind, c.data, c.refs, c.causes⟩

/-- A draft with a container was read from the body of a component of a container type. -/
theorem Draft.exists_container {registry : Registry} {content : Content} {d : Draft}
    {c : Container Block} (h : Draft.ofContent? registry content = some d)
    (hdata : d.data = .container c) :
    ∃ body schema, d = Draft.ofComponent registry d.kind body ∧
      registry.container? d.kind = some schema ∧
      c = Container.ofProps schema.itemsField schema.contentField
        (Component.readProps d.kind body).1 := by
  rcases Draft.ofContent_cases h with ⟨kind, data, hnone, rfl⟩ | ⟨kind, -, body, -, rfl⟩
  · obtain rfl : data = .container c := hdata
    exact absurd hnone nofun
  · cases hschema : registry.container? kind with
    | none =>
        have hcomponent := Component.data_read_of_no_container body hschema
        exact absurd (hcomponent.symm.trans hdata) nofun
    | some schema =>
        have hcontainer := Component.data_read_of_container body hschema
        exact ⟨body, schema, rfl, rfl,
          (BlockData.container.inj (hcontainer.symm.trans hdata)).symm⟩

theorem Draft.keysOnce {registry : Registry} {content : Content} {d : Draft}
    (h : Draft.ofContent? registry content = some d) : d.data.KeysOnce := by
  rcases Draft.ofContent_cases h with ⟨kind, data, hnone, rfl⟩ | ⟨kind, -, value, -, rfl⟩
  · cases data with
    | component props => exact absurd hnone nofun
    | container c => exact absurd hnone nofun
    | _ => trivial
  · have hprops := (Component.ordered_readProps kind value).keysOnce
    cases hschema : registry.container? kind with
    | none =>
        rw [Component.data_read_of_no_container value hschema]
        exact hprops
    | some schema =>
        rw [Component.data_read_of_container value hschema]
        exact Container.keysOnce_ofProps schema.itemsField schema.contentField hprops

namespace Compiler

section Shape

variable {compiler : Compiler} {options : CompileOptions} {text : String} {p : BlockPath}
  {b : Block}

/-- In the data of a block of the document no key stands twice. -/
theorem keysOnce_of_mem_finalBlocks
    (h : b ∈ allBlocks (compiler.finalBlocks options text)) : (dataValue b.data).KeysOnce := by
  refine keysOnce_of_mem_allBlocks (fun c hc => ?_) b h
  obtain ⟨q, d, hstands⟩ := exists_standsAt_of_mem hc
  obtain ⟨content, hcontent⟩ := exists_content_of_authored hstands.written
  have hshell : c.data.shell = d.data.shell := congrArg (·.2) hstands.shell
  rw [← BlockData.keysOnce_shell, hshell, BlockData.keysOnce_shell]
  exact Draft.keysOnce hcontent

/-- What stands in the place of the text of a section: its compiled blocks above the limit, and
the text at the limit. -/
def contentAt (compiler : Compiler) (p : BlockPath) (b : Block) (i : Nat) (text : String) : Value :=
  if p.depth < compiler.maxDepth then .arr (blockValues (b.blocksIn i)) else .str text

/-- A section of a container of the document stands for the item of which it was made. -/
theorem Holds.section_standsFor {d : Draft} {contentField : String} {i : Nat} {v : Value}
    {s : Section Block} (h : compiler.Holds options text p.depth p d b)
    (hdepth : p.depth ≤ compiler.maxDepth)
    (hd : d.data.sections[i]? = some (Section.ofValue contentField v))
    (hs : b.sections[i]? = some s) :
    s.StandsFor contentField (compiler.contentAt p b i) v := by
  constructor
  case kept =>
    intro hno
    exact Option.some.inj (hs.symm.trans (h.kept i _ hd hno))
  case text =>
    intro props nested heq
    rw [heq] at hd
    rcases Nat.lt_or_eq_of_le hdepth with habove | hlimit
    · obtain ⟨bs, hbs, -⟩ := h.above habove i props nested hd
      obtain rfl := Option.some.inj (hs.symm.trans hbs)
      refine ⟨.blocks bs, rfl, ?_⟩
      have hin : b.blocksIn i = bs := by simp [Block.blocksIn, hs, Section.blocks]
      rw [contentAt, if_pos habove, hin]
      rfl
    · have hsame : b.sections = d.data.sections := congrArg BlockData.sections (h.atLimit hlimit)
      rw [hsame, hd] at hs
      refine ⟨.markdown nested, (Option.some.inj hs).symm, ?_⟩
      rw [contentAt, if_neg (hlimit ▸ Nat.lt_irrefl _)]
      rfl

/-- A container of the document stands for the mapping of which its draft was made. -/
theorem Holds.standsFor {d : Draft} {itemsField contentField : String} {props : Fields}
    (h : compiler.Holds options text p.depth p d b) (hdepth : p.depth ≤ compiler.maxDepth)
    (hdata : d.data = .container (Container.ofProps itemsField contentField props)) :
    ∃ c : Container Block, b.data = .container c ∧ c.itemsField = itemsField ∧
      c.contentField = contentField ∧ c.StandsFor (compiler.contentAt p b) props := by
  have hshell : b.data.shell = d.data.shell := congrArg (·.2) h.shell
  rw [hdata] at hshell
  obtain ⟨sections, hb, hsections⟩ := BlockData.exists_container_of_shell hshell
  by_cases hitems : ∃ items, props.get? itemsField = some (.arr items)
  · obtain ⟨items, hitems⟩ := hitems
    rw [Container.ofProps_items hitems] at hdata hb hsections
    obtain ⟨ss, rfl, hss⟩ := Option.map_eq_some_iff.mp hsections
    have hlength : ss.length = items.length := by simpa using congrArg List.length hss
    refine ⟨_, hb, rfl, rfl, .items hitems hlength fun i v s hv hs => ?_⟩
    refine h.section_standsFor hdepth ?_ ?_
    · simp [hdata, BlockData.sections, Container.sectionList, hv]
    · simp [Block.sections, hb, BlockData.sections, Container.sectionList, hs]
  · have hnone : ∀ items, props.get? itemsField ≠ some (.arr items) := fun items heq =>
      hitems ⟨items, heq⟩
    rw [Container.ofProps_whole hnone] at hb hsections
    obtain rfl := Option.map_eq_none_iff.mp hsections
    exact ⟨_, hb, rfl, rfl, .whole hnone⟩

/-- The text of an item was compiled to the blocks in its section above the limit. -/
theorem Holds.blocksIn {d : Draft} {around : Nat} {itemsField contentField nested : String}
    {props fields : Fields} {items : List Value} {i : Nat}
    (h : compiler.Holds options text around p d b)
    (hdata : d.data = .container (Container.ofProps itemsField contentField props))
    (hitems : props.get? itemsField = some (.arr items)) (hi : items[i]? = some (.obj fields))
    (hnested : fields.get? contentField = some (.str nested))
    (habove : around < compiler.maxDepth) :
    withoutIds (b.blocksIn i) = withoutIds (compileFragment
      ((compiler.scope options text).inside p b.position i) nested).1 := by
  have hsection : d.data.sections[i]? =
      some (.entry (fields.erase contentField) (some (.markdown nested))) := by
    simp [hdata, Container.ofProps_items hitems, BlockData.sections, Container.sectionList, hi,
      Section.ofValue, hnested]
  obtain ⟨bs, hbs, hsame⟩ := h.above habove i _ nested hsection
  have hin : b.blocksIn i = bs := by simp [Block.blocksIn, hbs, Section.blocks]
  rw [hin, hsame]

end Shape

/-- Writing a container gives back the mapping that it was read from: the same
fields, none of them twice, and the same container when it is read again. In
the document of a text every container was read from the body of a component,
and what is written of it is that mapping again, but for the texts of its
sections. Above the limit of nesting these are the compiled blocks of the
text, and at the limit the text itself. -/
theorem containers_keep_authored_shape :
    (∀ (itemsField contentField : String) (props : Fields), (Value.obj props).Ordered →
      let c : Container Block := Container.ofProps itemsField contentField props
      let written := dataValue (.container c)
      written.KeysOnce ∧ written.asRead = .obj props ∧
        ∀ fields, written.asRead = .obj fields →
          Container.ofProps itemsField contentField fields = c) ∧
    ∀ (compiler : Compiler) (options : CompileOptions) (text : String) (p : BlockPath) (b : Block),
      blockAt? p (compiler.compile options text).document.blocks = some b → b.isContainer →
      ∃ body schema, (p, Draft.ofComponent compiler.registry b.kind body) ∈ compiler.authored text ∧
        compiler.registry.container? b.kind = some schema ∧ p.depth ≤ compiler.maxDepth ∧
        let props := (Component.readProps b.kind body).1
        (Value.obj props).Ordered ∧ (dataValue b.data).KeysOnce ∧
          (dataValue b.data).asRead = (Value.obj (props.mapContents schema.itemsField
            schema.contentField (compiler.contentAt p b))).asRead ∧
          ∀ i items fields nested, props.get? schema.itemsField = some (.arr items) →
            items[i]? = some (.obj fields) →
            Fields.get? schema.contentField fields = some (.str nested) →
            p.depth < compiler.maxDepth →
              withoutIds (b.blocksIn i) = withoutIds (compileFragment
                ((compiler.scope options text).inside p b.position i) nested).1 := by
  refine ⟨fun itemsField contentField props hprops => ?_, fun compiler options text p b hb hc => ?_⟩
  · have hread := (Container.standsFor_ofProps itemsField contentField props).asRead hprops
    rw [Container.itemsField_ofProps, Container.contentField_ofProps,
      Fields.mapContents_str _ _ hprops, hprops.asRead] at hread
    refine ⟨?_, hread, fun fields hfields => ?_⟩
    · refine keysOnce_dataValue (Container.keysOnce_ofProps _ _ hprops.keysOnce) fun s hs c hc => ?_
      rw [Container.blocks_ofProps hs] at hc
      exact absurd hc List.not_mem_nil
    · obtain rfl := Value.obj.inj (hread.symm.trans hfields)
      rfl
  · rw [compile_blocks] at hb
    obtain ⟨hdepth, d, hholds⟩ := exists_holds hb
    obtain ⟨content, hcontent⟩ := exists_content_of_authored hholds.written
    obtain ⟨c, hdata⟩ := Block.exists_container hc
    have hshell : d.data.shell = (BlockData.container c).shell := by
      rw [← hdata]
      exact congrArg (·.2) hholds.shell.symm
    obtain ⟨sections, hd, -⟩ := BlockData.exists_container_of_shell hshell
    have hkind : b.kind = d.kind := congrArg (·.1) hholds.shell
    obtain ⟨body, schema, hread, hschema, hprops⟩ := Draft.exists_container hcontent hd
    rw [hprops] at hd
    rw [hkind]
    have hordered := Component.ordered_readProps d.kind body
    obtain ⟨c', hc', hitems, hcontentField, hstands⟩ := hholds.standsFor hdepth hd
    refine ⟨body, schema, hread ▸ hholds.written, hschema, hdepth, hordered,
      keysOnce_of_mem_finalBlocks (mem_allBlocks.mpr ⟨p, hb⟩), ?_, ?_⟩
    · rw [hc', hstands.asRead hordered, hitems, hcontentField]
    · exact fun i items fields nested => hholds.blocksIn hd

end Compiler

end BlockDoc
