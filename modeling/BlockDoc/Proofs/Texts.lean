import BlockDoc.Component
import BlockDoc.Proofs.Block.Shell
import BlockDoc.Proofs.Yaml.Decode
import BlockDoc.Resolution
import Mathlib.Data.List.Perm.Basic

/-!
The texts of a component, wherever they stand in its mapping. Taking a mapping
apart into a container keeps each of them, and each is searched for links with
one exception: the content of a section when it is neither text nor blocks.
-/

namespace BlockDoc

mutual

/-- The texts in a value, at any depth. -/
def Value.texts : Value → List String
  | .str s => [s]
  | .arr items => Value.textsOfItems items
  | .obj fields => Fields.texts fields
  | _ => []

/-- The texts in the items of an array. -/
def Value.textsOfItems : List Value → List String
  | [] => []
  | v :: vs => v.texts ++ Value.textsOfItems vs

/-- The texts in the values of fields. -/
def Fields.texts : Fields → List String
  | [] => []
  | (_, v) :: rest => v.texts ++ Fields.texts rest

end

theorem Value.textsOfItems_eq (items : List Value) :
    Value.textsOfItems items = items.flatMap Value.texts := by
  induction items with
  | nil => rfl
  | cons v vs ih => rw [Value.textsOfItems, ih, List.flatMap_cons]

theorem Fields.texts_eq (fields : Fields) : fields.texts = fields.flatMap fun f => f.2.texts := by
  induction fields with
  | nil => rfl
  | cons f rest ih => rw [Fields.texts, ih, List.flatMap_cons]

theorem Fields.texts_perm {fields fields' : Fields} (h : fields.Perm fields') :
    fields.texts.Perm fields'.texts := by
  rw [Fields.texts_eq, Fields.texts_eq]
  exact h.flatMap_right _

/-! ### Links in texts -/

/-- The links in a text, each as a URL and a label. -/
def linksOfText (text : String) : List (String × String) := foundLinks (TextLink.ofText text)

mutual

theorem links_ofValue (v : Value) :
    foundLinks (TextLink.ofValue v) = v.texts.flatMap linksOfText := by
  cases v with
  | str s => simp [TextLink.ofValue, Value.texts, linksOfText]
  | arr items => exact links_ofValues items
  | obj fields => exact links_ofFields fields
  | _ => rfl

theorem links_ofValues (vs : List Value) :
    foundLinks (TextLink.ofValues vs) = (Value.textsOfItems vs).flatMap linksOfText := by
  cases vs with
  | nil => rfl
  | cons v vs =>
      rw [Value.textsOfItems, List.flatMap_append, ← links_ofValue v, ← links_ofValues vs]
      exact List.map_append

theorem links_ofFields (fields : List (String × Value)) :
    foundLinks (TextLink.ofFields fields) = (Fields.texts fields).flatMap linksOfText := by
  cases fields with
  | nil => rfl
  | cons f rest =>
      obtain ⟨key, v⟩ := f
      rw [Fields.texts, List.flatMap_append, ← links_ofValue v, ← links_ofFields rest]
      exact List.map_append

end

/-! ### Texts of sections and blocks -/

section Blocks

variable {β : Type}

/-- The texts in a section, but for its compiled content. -/
def Section.texts : Section β → List String
  | .entry props (some (.markdown text)) => props.texts ++ [text]
  | .entry props (some (.other v)) => props.texts ++ v.texts
  | .entry props _ => props.texts
  | .malformed v => v.texts

/-- The texts in the content of a section that is neither text nor blocks. -/
def Section.otherTexts : Section β → List String
  | .entry _ (some (.other v)) => v.texts
  | _ => []

/-- The texts in the fields of a block, but for its compiled content. -/
def BlockData.texts (data : BlockData β) : List String :=
  (data.props?.getD []).texts ++ data.sections.flatMap Section.texts

/-- The texts in the contents of sections that are neither text nor blocks. -/
def BlockData.otherTexts (data : BlockData β) : List String :=
  data.sections.flatMap Section.otherTexts

@[simp] theorem BlockData.texts_component (props : Fields) :
    (BlockData.component props : BlockData β).texts = props.texts :=
  List.append_nil _

@[simp] theorem BlockData.texts_container (c : Container β) :
    (BlockData.container c).texts = c.props.texts ++ c.sectionList.flatMap Section.texts := rfl

@[simp] theorem Section.otherTexts_shell (s : Section β) : s.shell.otherTexts = s.otherTexts := by
  cases s with
  | malformed v => rfl
  | entry props content => obtain _ | _ | _ | _ := content <;> rfl

/-- The contents that are neither text nor blocks do not depend on what is compiled. -/
@[simp] theorem BlockData.otherTexts_shell (data : BlockData β) :
    data.shell.otherTexts = data.otherTexts := by
  simp [BlockData.otherTexts, BlockData.sections_shell, List.flatMap_map]

theorem BlockData.otherTexts_of_shell {γ : Type} {data : BlockData β} {data' : BlockData γ}
    (h : data.shell = data'.shell) : data.otherTexts = data'.otherTexts := by
  rw [← BlockData.otherTexts_shell, h, BlockData.otherTexts_shell]

theorem Section.links_perm (s : Section β) :
    (s.texts.flatMap linksOfText).Perm (sectionLinks s ++ s.otherTexts.flatMap linksOfText) := by
  cases s with
  | malformed v => simp [Section.texts, sectionLinks, Section.otherTexts, links_ofValue]
  | entry props content =>
      have hprops := links_ofFields props
      obtain _ | text | bs | v := content
      · simp [Section.texts, sectionLinks, Section.otherTexts, hprops]
      · have hlinks : sectionLinks (.entry props (some (.markdown text)) : Section β) =
            foundLinks (TextLink.ofFields props) ++ linksOfText text := List.map_append
        simp [Section.texts, hlinks, Section.otherTexts, hprops]
      · simp [Section.texts, sectionLinks, Section.otherTexts, hprops]
      · simp [Section.texts, sectionLinks, Section.otherTexts, hprops]

/-- All texts of a component are searched except the contents that are neither text nor blocks. -/
theorem BlockData.links_perm {data : BlockData β} (h : data.props?.isSome) :
    (data.texts.flatMap linksOfText).Perm
      (dataLinks data ++ data.otherTexts.flatMap linksOfText) := by
  cases data with
  | component props =>
      simp [dataLinks, BlockData.otherTexts, BlockData.sections, links_ofFields]
  | container c =>
      have hsections : ((c.sectionList.flatMap Section.texts).flatMap linksOfText).Perm
          (c.sectionList.flatMap sectionLinks ++
            (c.sectionList.flatMap Section.otherTexts).flatMap linksOfText) := by
        rw [List.flatMap_assoc, List.flatMap_assoc]
        refine List.Perm.trans ?_ (List.flatMap_append_perm _ _ _).symm
        exact List.Perm.flatMap_left _ fun s _ => s.links_perm
      simp only [BlockData.texts_container, dataLinks, BlockData.otherTexts, BlockData.sections,
        links_ofFields, List.flatMap_append, List.append_assoc]
      exact hsections.append_left _
  | _ => exact absurd h Bool.false_ne_true

/-! ### Reading a component -/

theorem Section.texts_ofValue (contentField : String) {v : Value} (h : v.Ordered) :
    v.texts.Perm (Section.ofValue contentField v : Section β).texts := by
  cases h with
  | obj hsorted hfields =>
      rename_i fields
      cases hcontent : Fields.get? contentField fields with
      | none =>
          rw [Section.ofValue, hcontent, Fields.erase_of_get?_none hcontent]
          exact List.Perm.refl _
      | some content =>
          have hsplit := Fields.texts_perm (hsorted.perm_erase hcontent)
          have hcontentTexts : (Section.ofValue contentField (.obj fields) : Section β).texts =
              (Fields.erase contentField fields).texts ++ content.texts := by
            rw [Section.ofValue, hcontent]
            cases content <;> simp [Section.texts, Value.texts]
          rw [hcontentTexts]
          exact hsplit.trans List.perm_append_comm
  | _ => exact List.Perm.refl _

/-- A mapping and the container that is made of it have the same texts. -/
theorem Container.texts_ofProps (itemsField contentField : String) {props : Fields}
    (h : (Value.obj props).Ordered) :
    props.texts.Perm
      (BlockData.container (Container.ofProps itemsField contentField props : Container β)).texts := by
  cases h with
  | obj hsorted hfields =>
      cases hitems : Fields.get? itemsField props with
      | none => simp [Container.ofProps, hitems, Container.sectionList]
      | some v =>
          cases v with
          | arr items =>
              have hordered := hfields _ (Fields.mem_of_get? hitems)
              have hsplit := Fields.texts_perm (hsorted.perm_erase hitems)
              have hsections : (Value.arr items).texts.Perm
                  ((items.map (Section.ofValue contentField)).flatMap
                    (Section.texts (β := β))) := by
                rw [Value.texts, Value.textsOfItems_eq, List.flatMap_map]
                cases hordered with
                | arr hitem =>
                    exact List.Perm.flatMap_left _ fun v hv =>
                      Section.texts_ofValue contentField (hitem v hv)
              have hcontainer : (BlockData.container
                  (Container.ofProps itemsField contentField props : Container β)).texts =
                  (Fields.erase itemsField props).texts ++
                    (items.map (Section.ofValue contentField)).flatMap
                      (Section.texts (β := β)) := by
                simp [Container.ofProps, hitems, Container.sectionList]
              rw [hcontainer]
              refine hsplit.trans (List.Perm.trans List.perm_append_comm ?_)
              exact hsections.append_left _
          | _ => simp [Container.ofProps, hitems, Container.sectionList]

namespace Component

theorem ordered_readProps (kind body : String) :
    (Value.obj (readProps kind body).1).Ordered := by
  have hempty : (Value.obj []).Ordered :=
    .obj List.Pairwise.nil fun f hf => absurd hf List.not_mem_nil
  rw [readProps]
  split_ifs
  · exact hempty
  · split
    · next fields hdecode => exact Yaml.ordered_decode hdecode
    · exact hempty
    · exact hempty
    · exact hempty

/-- The data of a component have the texts of its mapping. -/
theorem texts_read (registry : Registry) (kind body : String) :
    (readProps kind body).1.texts.Perm (read registry kind body).data.texts := by
  cases hschema : registry.container? kind with
  | none => simp [read, hschema]
  | some schema =>
      have hcontainer := Container.texts_ofProps (β := Block) schema.itemsField
        schema.contentField (ordered_readProps kind body)
      simpa [read, hschema] using hcontainer

end Component

end Blocks

end BlockDoc
