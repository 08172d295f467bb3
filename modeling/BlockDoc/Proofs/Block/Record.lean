import BlockDoc.Proofs.Block.Shell
import BlockDoc.Proofs.Data.Record

/-!
Containers as records. A container is written in the shape in which it was
authored: the items and the content of a mapping are taken out when it is read,
and written behind the other fields under the keys where they stood. What is
written differs from the authored mapping in the texts that were compiled, and
in no record a key stands twice.
-/

namespace BlockDoc

/-! ### Sections -/

/-- The content of a section as it is written. -/
def SectionContent.toValue : SectionContent Block → Value
  | .markdown text => .str text
  | .blocks bs => .arr (blockValues bs)
  | .other v => v

/-- A section as a record. -/
def Section.toValue (contentField : String) : Section Block → Value
  | .malformed v => v
  | .entry props none => .obj props
  | .entry props (some content) => .obj (props ++ [(contentField, content.toValue)])

theorem sectionValues_eq (contentField : String) (ss : List (Section Block)) :
    sectionValues contentField ss = ss.map (Section.toValue contentField) := by
  induction ss with
  | nil => rfl
  | cons s rest ih =>
      cases s with
      | malformed v => rw [sectionValues, ih, List.map_cons, Section.toValue]
      | entry props content =>
          obtain _ | _ | _ | _ := content <;>
            simp only [sectionValues, ih, List.map_cons, Section.toValue, SectionContent.toValue]

theorem blockValues_eq (bs : List Block) : blockValues bs = bs.map Block.toValue := by
  induction bs with
  | nil => rfl
  | cons b bs ih => rw [blockValues, ih, List.map_cons]

/-- A mapping in which the content is replaced if it is text. -/
def Value.mapContent (contentField : String) (f : String → Value) : Value → Value
  | .obj fields =>
    match Fields.get? contentField fields with
    | some (.str text) => .obj (Fields.insert contentField (f text) fields)
    | _ => .obj fields
  | v => v

theorem Value.mapContent_text {contentField text : String} {f : String → Value} {fields : Fields}
    (h : fields.get? contentField = some (.str text)) :
    (Value.obj fields).mapContent contentField f =
      .obj (fields.insert contentField (f text)) := by
  simp [mapContent, h]

/-- A mapping in which the texts that are contents of items are replaced. -/
def Fields.mapContents (itemsField contentField : String) (f : Nat → String → Value)
    (props : Fields) : Fields :=
  match props.get? itemsField with
  | some (.arr items) =>
    props.insert itemsField (.arr (items.mapIdx fun i v => v.mapContent contentField (f i)))
  | _ => props

/-- A section stands for an item: its text was replaced, and nothing else was changed. -/
structure Section.StandsFor (contentField : String) (f : String → Value) (v : Value)
    (s : Section Block) : Prop where
  kept : (ofValue contentField v : Section Block).hasMarkdown = false → s = ofValue contentField v
  text : ∀ props text,
    (ofValue contentField v : Section Block) = .entry props (some (.markdown text)) →
      ∃ content : SectionContent Block, s = .entry props (some content) ∧ content.toValue = f text

/-- A section is read back as the item for which it stands. -/
theorem Section.StandsFor.asRead {contentField : String} {f : String → Value} {v : Value}
    {s : Section Block} (h : s.StandsFor contentField f v) (hv : v.Ordered) :
    (s.toValue contentField).asRead = (v.mapContent contentField f).asRead := by
  cases hv with
  | @obj fields hsorted hfields =>
      cases hcontent : Fields.get? contentField fields with
      | none =>
          have hs := h.kept (by simp [ofValue, hcontent, hasMarkdown])
          rw [hs, Value.mapContent, hcontent, ofValue, hcontent,
            Fields.erase_of_get?_none hcontent]
          rfl
      | some w =>
          by_cases hw : ∃ text, w = .str text
          · obtain ⟨text, rfl⟩ := hw
            obtain ⟨content, rfl, heq⟩ := h.text (fields.erase contentField) text
              (by simp [ofValue, hcontent])
            rw [Value.mapContent_text hcontent, ← heq]
            exact Value.asRead_erase_append hsorted contentField content.toValue
          · have hother : (ofValue contentField (.obj fields) : Section Block) =
                  .entry (fields.erase contentField) (some (.other w)) ∧
                (Value.obj fields).mapContent contentField f = .obj fields := by
              cases w with
              | str text => exact absurd ⟨text, rfl⟩ hw
              | _ => simp [ofValue, Value.mapContent, hcontent]
            have hs := h.kept (by rw [hother.1]; rfl)
            have hread := Value.asRead_erase_append hsorted contentField w
            rw [hsorted.insert_of_get? hcontent] at hread
            rw [hs, hother.1, hother.2]
            exact hread
  | _ =>
      rw [h.kept rfl]
      rfl

/-- An item that is left as it is stands for itself. -/
theorem Section.standsFor_ofValue (contentField : String) (v : Value) :
    (ofValue contentField v : Section Block).StandsFor contentField Value.str v :=
  ⟨fun _ => rfl, fun _ text h => ⟨.markdown text, h, rfl⟩⟩

/-! ### Containers -/

/-- A container stands for an authored mapping: its sections stand for the items. -/
inductive Container.StandsFor (f : Nat → String → Value) (props : Fields) : Container Block → Prop
  /-- Without items the mapping stays whole. -/
  | whole {itemsField contentField : String}
    (hnone : ∀ items, props.get? itemsField ≠ some (.arr items)) :
    StandsFor f props ⟨itemsField, contentField, props, none⟩
  | items {itemsField contentField : String} {items : List Value} {sections : List (Section Block)}
    (hitems : props.get? itemsField = some (.arr items)) (hlength : sections.length = items.length)
    (hsections : ∀ i v (s : Section Block), items[i]? = some v → sections[i]? = some s →
      s.StandsFor contentField (f i) v) :
    StandsFor f props ⟨itemsField, contentField, props.erase itemsField, some sections⟩

theorem Container.standsFor_ofProps (itemsField contentField : String) (props : Fields) :
    (ofProps itemsField contentField props : Container Block).StandsFor (fun _ => Value.str)
      props := by
  rw [ofProps]
  split
  · rename_i items hitems
    refine .items hitems (List.length_map _) fun i v s hv hs => ?_
    rw [List.getElem?_map, hv] at hs
    obtain rfl := Option.some.inj hs
    exact Section.standsFor_ofValue contentField v
  · rename_i hnone
    exact .whole hnone

theorem dataValue_container (itemsField contentField : String) (props : Fields)
    (sections : List (Section Block)) :
    dataValue (.container ⟨itemsField, contentField, props, some sections⟩) =
      .obj (props ++ [(itemsField, .arr (sections.map (Section.toValue contentField)))]) := by
  rw [dataValue, sectionValues_eq]

/-- A container is read back as the mapping for which it stands. -/
theorem Container.StandsFor.asRead {f : Nat → String → Value} {props : Fields}
    {c : Container Block} (h : c.StandsFor f props) (hprops : (Value.obj props).Ordered) :
    (dataValue (.container c)).asRead =
      (Value.obj (props.mapContents c.itemsField c.contentField f)).asRead := by
  cases hprops with
  | obj hsorted hfields =>
      cases h with
      | whole hnone =>
          rw [Fields.mapContents]
          split
          · exact absurd ‹_› (hnone _)
          · rfl
      | @items itemsField contentField items sections hitems hlength hsections =>
          have hordered : ∀ v ∈ items, v.Ordered := by
            cases hfields _ (Fields.mem_of_get? hitems) with
            | arr hitems => exact hitems
          rw [dataValue_container, Value.asRead_erase_append hsorted, Fields.mapContents, hitems]
          refine Value.asRead_insert_congr hsorted itemsField ?_
          rw [Value.asRead_arr, Value.asRead_arr]
          refine congrArg Value.arr (List.ext_getElem (by simp [hlength]) fun i hi hi' => ?_)
          have hi : i < items.length := by simpa using hi'
          have hs := hsections i items[i] sections[i] (List.getElem?_eq_getElem hi)
            (List.getElem?_eq_getElem _)
          simpa using hs.asRead (hordered _ (List.getElem_mem hi))

theorem Value.mapContent_str {contentField : String} {v : Value} (h : v.Ordered) :
    v.mapContent contentField Value.str = v := by
  cases h with
  | obj hsorted hfields =>
      rw [mapContent]
      split
      · rw [hsorted.insert_of_get? ‹_›]
      · rfl
  | _ => rfl

/-- A mapping in which each text is replaced by itself stays as it is. -/
theorem Fields.mapContents_str (itemsField contentField : String) {props : Fields}
    (h : (Value.obj props).Ordered) :
    props.mapContents itemsField contentField (fun _ => Value.str) = props := by
  cases h with
  | obj hsorted hfields =>
      rw [mapContents]
      split
      · rename_i items hitems
        have hordered : ∀ v ∈ items, v.Ordered := by
          cases hfields _ (mem_of_get? hitems) with
          | arr hitems => exact hitems
        have hsame : (items.mapIdx fun _ v => v.mapContent contentField Value.str) = items := by
          refine List.ext_getElem (by simp) fun i hi hi' => ?_
          simpa using Value.mapContent_str (hordered _ (List.getElem_mem hi'))
        rw [hsame, hsorted.insert_of_get? hitems]
      · rfl

/-! ### Keys of records -/

mutual

theorem Inline.keysOnce_toValue (x : Inline) : x.toValue.KeysOnce := by
  cases x with
  | strong children | emphasis children | delete children =>
      have hchildren := keysOnce_valuesOf children
      simpa [toValue] using hchildren
  | link url title children | image url title children =>
      have hchildren := keysOnce_valuesOf children
      by_cases htitle : title.isEmpty <;> simpa [toValue, titleField, htitle] using hchildren
  | _ => simp [toValue]

theorem Inline.keysOnce_valuesOf (xs : List Inline) : ∀ v ∈ valuesOf xs, v.KeysOnce := by
  cases xs with
  | nil => exact fun v hv => absurd hv List.not_mem_nil
  | cons x xs => exact List.forall_mem_cons.mpr ⟨keysOnce_toValue x, keysOnce_valuesOf xs⟩

end

mutual

theorem ItemList.keysOnce_toValue (l : ItemList) : l.toValue.KeysOnce := by
  cases l with
  | mk ordered start items =>
      have hitems := keysOnce_itemValues items
      cases start <;> simpa [ItemList.toValue, Value.optional] using hitems

theorem Item.keysOnce_toValue (x : Item) : x.toValue.KeysOnce := by
  cases x with
  | mk checked children sublist =>
      have hchildren := Inline.keysOnce_valuesOf children
      cases sublist with
      | none => cases checked <;> simpa [Item.toValue, Value.optional] using hchildren
      | some l =>
          have hl := ItemList.keysOnce_toValue l
          cases checked <;> simpa [Item.toValue, Value.optional, hl] using hchildren

theorem keysOnce_itemValues (xs : List Item) : ∀ v ∈ itemValues xs, v.KeysOnce := by
  cases xs with
  | nil => exact fun v hv => absurd hv List.not_mem_nil
  | cons x xs => exact List.forall_mem_cons.mpr ⟨Item.keysOnce_toValue x, keysOnce_itemValues xs⟩

end

theorem Table.keysOnce_fields (t : Table) : (Value.obj t.fields).KeysOnce := by
  have hrow : ∀ cells, (rowValue cells).KeysOnce := by
    intro cells
    refine .arr fun v hv => ?_
    obtain ⟨cell, -, rfl⟩ := List.mem_map.mp hv
    exact .arr (Inline.keysOnce_valuesOf cell)
  simp [fields, hrow]

/-- In the parts of a section that are written no key stands twice, and the key of the content is
new. -/
def Section.KeysOnce {β : Type} (contentField : String) : Section β → Prop
  | .malformed v => v.KeysOnce
  | .entry props none => (Value.obj props).KeysOnce
  | .entry props (some content) => (Value.obj props).KeysOnce ∧
      contentField ∉ props.map (·.1) ∧ ∀ v, content = .other v → v.KeysOnce

/-- In the parts of the data of a block that are written no key stands twice. -/
def BlockData.KeysOnce {β : Type} : BlockData β → Prop
  | .component props => (Value.obj props).KeysOnce
  | .container ⟨_, _, props, none⟩ => (Value.obj props).KeysOnce
  | .container ⟨itemsField, contentField, props, some sections⟩ => (Value.obj props).KeysOnce ∧
      itemsField ∉ props.map (·.1) ∧ ∀ s ∈ sections, s.KeysOnce contentField
  | _ => True

@[simp] theorem Section.keysOnce_shell {β : Type} (contentField : String) (s : Section β) :
    s.shell.KeysOnce contentField ↔ s.KeysOnce contentField := by
  cases s with
  | malformed v => rfl
  | entry props content => obtain _ | _ | _ | _ := content <;> simp [shell, KeysOnce]

@[simp] theorem BlockData.keysOnce_shell {β : Type} (data : BlockData β) :
    data.shell.KeysOnce ↔ data.KeysOnce := by
  cases data with
  | container c => obtain ⟨_, _, _, _ | sections⟩ := c <;> simp [shell, KeysOnce]
  | _ => rfl

theorem Section.keysOnce_ofValue {β : Type} (contentField : String) {v : Value}
    (h : v.KeysOnce) : (ofValue contentField v : Section β).KeysOnce contentField := by
  cases v with
  | obj fields =>
      have herase := h.erase contentField
      have hkey := Fields.not_mem_keys_erase contentField fields
      cases hcontent : Fields.get? contentField fields with
      | none => simpa [ofValue, hcontent, KeysOnce] using herase
      | some w =>
          have hw : w.KeysOnce :=
            (Value.keysOnce_obj_iff.mp h).2 _ (Fields.mem_of_get? hcontent)
          have hsection : ∃ content, (ofValue contentField (.obj fields) : Section β) =
              .entry (Fields.erase contentField fields) (some content) ∧
                ∀ u, content = .other u → w = u := by
            cases w <;> simp [ofValue, hcontent]
          obtain ⟨content, heq, hother⟩ := hsection
          rw [heq]
          exact ⟨herase, hkey, fun u hu => hother u hu ▸ hw⟩
  | _ => exact h

theorem Container.keysOnce_ofProps {β : Type} (itemsField contentField : String) {props : Fields}
    (h : (Value.obj props).KeysOnce) :
    (BlockData.container (ofProps itemsField contentField props : Container β)).KeysOnce := by
  rw [ofProps]
  split
  · rename_i items hitems
    have harr := (Value.keysOnce_obj_iff.mp h).2 _ (Fields.mem_of_get? hitems)
    refine ⟨h.erase itemsField, Fields.not_mem_keys_erase itemsField props, fun s hs => ?_⟩
    obtain ⟨v, hv, rfl⟩ := List.mem_map.mp hs
    exact Section.keysOnce_ofValue contentField (Value.keysOnce_arr_iff.mp harr v hv)
  · exact h

theorem Section.keysOnce_toValue {contentField : String} {s : Section Block}
    (h : s.KeysOnce contentField) (hblocks : ∀ b ∈ s.blocks, b.toValue.KeysOnce) :
    (s.toValue contentField).KeysOnce := by
  cases s with
  | malformed v => exact h
  | entry props content =>
      cases content with
      | none => exact h
      | some content =>
          obtain ⟨hprops, hkey, hother⟩ := h
          refine hprops.append hkey ?_
          cases content with
          | markdown text => exact .str
          | other v => exact hother v rfl
          | blocks bs =>
              refine .arr fun v hv => ?_
              rw [blockValues_eq] at hv
              obtain ⟨b, hb, rfl⟩ := List.mem_map.mp hv
              exact hblocks b hb

/-- In the data of a block as they are written no key stands twice. -/
theorem keysOnce_dataValue {data : BlockData Block} (h : data.KeysOnce)
    (hblocks : ∀ s ∈ data.sections, ∀ b ∈ s.blocks, b.toValue.KeysOnce) :
    (dataValue data).KeysOnce := by
  cases data with
  | heading depth anchor children =>
      have hchildren := Inline.keysOnce_valuesOf children
      cases anchor <;> simpa [dataValue, Value.optional] using hchildren
  | paragraph children | quote children =>
      have hchildren := Inline.keysOnce_valuesOf children
      simpa [dataValue] using hchildren
  | image src alt title => cases title <;> simp [dataValue, Value.optional]
  | list l => exact l.keysOnce_toValue
  | code language details value =>
      cases language <;> cases details <;> simp [dataValue, Value.optional]
  | table t => exact t.keysOnce_fields
  | thematicBreak => simp [dataValue]
  | html value => simp [dataValue]
  | component props => exact h
  | container c =>
      obtain ⟨itemsField, contentField, props, _ | sections⟩ := c
      · exact h
      · obtain ⟨hprops, hkey, hsections⟩ := h
        rw [dataValue_container]
        refine hprops.append hkey (.arr fun v hv => ?_)
        obtain ⟨s, hs, rfl⟩ := List.mem_map.mp hv
        exact Section.keysOnce_toValue (hsections s hs) (hblocks s hs)

theorem Block.keysOnce_toValue {b : Block} (h : (dataValue b.data).KeysOnce) :
    b.toValue.KeysOnce := by
  obtain ⟨id, kind, data, position⟩ := b
  have hdata : (dataValue data).KeysOnce := h
  simp [Block.toValue, Range.toValue, Point.toValue, hdata]

theorem mem_allBlocks_of_mem {bs : List Block} {b : Block} (h : b ∈ bs) : b ∈ allBlocks bs := by
  obtain ⟨i, hi⟩ := List.mem_iff_getElem?.mp h
  exact mem_allBlocks.mpr ⟨[i], by simp [blockAt?, hi, Block.descend?]⟩

theorem walkSections_eq (ss : List (Section Block)) :
    walkSections ss = ss.flatMap fun s => allBlocks s.blocks := by
  induction ss with
  | nil => rfl
  | cons s rest ih => rw [walkSections_cons, ih, List.flatMap_cons]

/-- In the blocks of a document as they are written no key stands twice, however deep. -/
theorem keysOnce_of_mem_allBlocks {bs : List Block} (h : ∀ b ∈ allBlocks bs, b.data.KeysOnce) :
    ∀ b ∈ allBlocks bs, (dataValue b.data).KeysOnce := by
  refine (Block.tree_induction
    (P := fun b => (∀ c ∈ b.walk, c.data.KeysOnce) → ∀ c ∈ b.walk, (dataValue c.data).KeysOnce)
    (Q := fun ss => (∀ c ∈ walkSections ss, c.data.KeysOnce) →
      ∀ c ∈ walkSections ss, (dataValue c.data).KeysOnce)
    (R := fun bs => (∀ c ∈ allBlocks bs, c.data.KeysOnce) →
      ∀ c ∈ allBlocks bs, (dataValue c.data).KeysOnce) ?_ ?_ ?_ ?_ ?_).2.2 bs h
  · intro b hsections h
    rw [Block.walk_eq] at h ⊢
    obtain ⟨hb, hinside⟩ := List.forall_mem_cons.mp h
    refine List.forall_mem_cons.mpr ⟨?_, hsections hinside⟩
    refine keysOnce_dataValue hb fun s hs c hc => Block.keysOnce_toValue (hsections hinside c ?_)
    rw [walkSections_eq]
    exact List.mem_flatMap.mpr ⟨s, hs, mem_allBlocks_of_mem hc⟩
  · exact fun _ c hc => absurd hc List.not_mem_nil
  · intro s rest hs hrest h
    rw [walkSections_cons] at h ⊢
    obtain ⟨h, h'⟩ := List.forall_mem_append.mp h
    exact List.forall_mem_append.mpr ⟨hs h, hrest h'⟩
  · exact fun _ c hc => absurd hc List.not_mem_nil
  · intro b bs hb hbs h
    rw [allBlocks] at h ⊢
    obtain ⟨h, h'⟩ := List.forall_mem_append.mp h
    exact List.forall_mem_append.mpr ⟨hb h, hbs h'⟩

end BlockDoc
