import BlockDoc.Proofs.Block.Alike
import BlockDoc.Proofs.Compilation.AuthoredShape

/-!
The bytes of which ids are made. Before they are hashed, the document, the type
and the data of a block can be read back from them, and so can the path and the
text of a document. Two things can have one id by chance of the hash only, or
because their data differ in nothing but numbers with one text.
-/

namespace BlockDoc

/-! ### Data that the translation gives -/

/-- A text that is translated under a registry has a block of a type with some data. -/
def Registry.Produces (registry : Registry) (kind : String) (data : BlockData Block) : Prop :=
  ∃ (scope : Scope) (nodes : List Node), scope.registry = registry ∧
    ∃ b ∈ (translate scope nodes).1, b.kind = kind ∧ b.data = data

theorem BlockData.not_prefix_of_plainKind {β : Type} {data : BlockData β} {kind : String}
    (h : data.plainKind? = some kind) : ¬ componentPrefix.toList.isPrefixOf kind.toList := by
  cases data with
  | container c => exact absurd h nofun
  | component props => exact absurd h nofun
  | _ =>
      obtain rfl := Option.some.inj h
      decide

/-- The type of a block tells whether it is a component. -/
theorem Registry.Produces.cases {registry : Registry} {kind : String} {data : BlockData Block}
    (h : registry.Produces kind data) :
    data.plainKind? = some kind ∨
      componentPrefix.toList.isPrefixOf kind.toList ∧
        ∃ body, data = (Component.read registry kind body).data := by
  obtain ⟨scope, nodes, rfl, b, hb, rfl, rfl⟩ := h
  obtain ⟨content, d, hd, hkind, hdata⟩ := exists_draft_of_mem_translateFrom hb
  rw [← hkind, ← hdata]
  rcases Draft.ofContent_spec hd with
    ⟨kind, data, hplain, rfl⟩ | ⟨kind, -, body, -, hcomponent, rfl⟩
  · exact Or.inl hplain
  · exact Or.inr ⟨hcomponent, body, rfl⟩

theorem BlockData.alike_of_plain {β : Type} {data data' : BlockData β} {kind : String}
    (h : data.plainKind? = some kind) : data.Alike data' ↔ data = data' := by
  cases data with
  | container c => exact absurd h nofun
  | component props => exact absurd h nofun
  | _ => rfl

/-- Data of one type under one registry are written alike exactly if they are alike. -/
theorem Registry.Produces.alike_dataValue {registry : Registry} {kind : String}
    {data data' : BlockData Block} (h : registry.Produces kind data)
    (h' : registry.Produces kind data') :
    (dataValue data).Alike (dataValue data') ↔ data.Alike data' := by
  rcases h.cases with hplain | ⟨hcomponent, body, rfl⟩
  · rcases h'.cases with hplain' | ⟨hcomponent', -⟩
    · rw [BlockData.alike_of_plain hplain]
      refine ⟨BlockData.eq_of_alike_dataValue hplain hplain', fun heq => ?_⟩
      rw [heq]
      exact Json.compact_inj.mp rfl
    · exact absurd hcomponent' (BlockData.not_prefix_of_plainKind hplain)
  · rcases h'.cases with hplain' | ⟨-, body', rfl⟩
    · exact absurd hcomponent (BlockData.not_prefix_of_plainKind hplain')
    · cases hschema : registry.container? kind with
      | none =>
          rw [Component.data_read_of_no_container body hschema,
            Component.data_read_of_no_container body' hschema]
          rfl
      | some schema =>
          rw [Component.data_read_of_container body hschema,
            Component.data_read_of_container body' hschema]
          exact Container.alike_dataValue (Container.fresh_ofProps _ _ _)
            (Container.fresh_ofProps _ _ _) (by simp) (by simp)

/-! ### Bytes of blocks and documents -/

/-- The texts of which the id of a document is made. -/
def documentIdParts (path : Option String) (text : String) : List String := [path.getD "", text]

theorem documentId_of_unnamed {given declared : Option String}
    (hgiven : given.filter (fun s => !s.isEmpty) = none)
    (hdeclared : declared.filter (fun s => !s.isEmpty) = none) (path : Option String)
    (text : String) :
    documentId given declared path text = "doc-" ++ fingerprint 16 (documentIdParts path text) := by
  simp only [documentId, hgiven, hdeclared]
  rfl

/-- Before they are hashed, the bytes for the id of a block determine the document, the type and
the data of the block, whose numbers count by their texts. The bytes for the id of a document
without a name determine its path, of which a missing one counts as empty, and its text. -/
theorem hashed_bytes_determine_content :
    (∀ (registry : Registry) (document document' kind kind' : String)
        (data data' : BlockData Block), '\x00' ∉ kind.toList → '\x00' ∉ kind'.toList →
      registry.Produces kind data → registry.Produces kind' data' →
      (contentBytes (blockIdParts document kind data) =
          contentBytes (blockIdParts document' kind' data') ↔
        document = document' ∧ kind = kind' ∧ data.Alike data')) ∧
    (∀ (given declared path : Option String) (text : String),
      given.filter (fun s => !s.isEmpty) = none → declared.filter (fun s => !s.isEmpty) = none →
      documentId given declared path text = "doc-" ++ fingerprint 16 (documentIdParts path text)) ∧
    ∀ (path path' : Option String) (text text' : String), '\x00' ∉ (path.getD "").toList →
      '\x00' ∉ (path'.getD "").toList →
      (contentBytes (documentIdParts path text) = contentBytes (documentIdParts path' text') ↔
        path.getD "" = path'.getD "" ∧ text = text') := by
  refine ⟨fun registry document document' kind kind' data data' hkind hkind' h h' => ?_,
    fun given declared path text hgiven hdeclared =>
      documentId_of_unnamed hgiven hdeclared path text,
    fun path path' text text' hpath hpath' => contentBytes_pair_inj hpath hpath'⟩
  rw [blockIdParts, blockIdParts, contentBytes_triple_inj hkind hkind'
    (Json.nul_notMem_compact _) (Json.nul_notMem_compact _), Json.compact_inj]
  refine and_congr_right fun _ => and_congr_right fun hsame => ?_
  subst hsame
  exact h.alike_dataValue h'

/-- A NUL character in the id of a document is not taken for the end of the id. -/
theorem hashed_bytes_nul_document :
    contentBytes (blockIdParts "d" "thematic-break" .thematicBreak) ≠
      contentBytes (blockIdParts "d\x00thematic-break" "thematic-break" .thematicBreak) := by
  have hproduces : Registry.builtin.Produces "thematic-break" .thematicBreak :=
    ⟨Scope.top "d" Registry.builtin 8, [Node.mk default .thematicBreak], rfl, _,
      List.mem_cons_self, rfl, rfl⟩
  intro h
  obtain ⟨hdocument, -⟩ := (hashed_bytes_determine_content.1 Registry.builtin _ _ _ _ _ _
    (by decide) (by decide) hproduces hproduces).mp h
  exact absurd hdocument (by decide)

end BlockDoc
