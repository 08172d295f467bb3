import BlockDoc.Proofs.Block.Record
import BlockDoc.Proofs.Data.Json
import Mathlib.Data.List.Forall2

/-!
Data of blocks that are written alike. The records of lines of text, lists and
tables determine what they were made of. A container is determined by its
record as well, since its items and their contents stand behind all other
fields, under keys that no other field has.
-/

namespace BlockDoc

/-! ### Fields that are alike -/

theorem itemsAlike_iff {vs ws : List Value} :
    ItemsAlike vs ws ↔ List.Forall₂ Value.Alike vs ws := by
  induction vs generalizing ws with
  | nil => cases ws <;> simp [ItemsAlike]
  | cons v vs ih => cases ws <;> simp [ItemsAlike, ih]

theorem itemsAlike_map {α : Type} {f : α → Value} (hf : ∀ a b, (f a).Alike (f b) → a = b)
    {xs ys : List α} (h : ItemsAlike (xs.map f) (ys.map f)) : xs = ys := by
  rw [itemsAlike_iff, List.forall₂_map_left_iff, List.forall₂_map_right_iff] at h
  exact List.forall₂_eq_eq_eq ▸ h.imp hf

theorem FieldsAlike.keys_eq {fs gs : Fields} (h : FieldsAlike fs gs) :
    fs.map (·.1) = gs.map (·.1) := by
  induction fs generalizing gs with
  | nil => cases gs <;> simp_all [FieldsAlike]
  | cons f fs ih =>
      cases gs with
      | nil => simp [FieldsAlike] at h
      | cons g gs =>
          obtain ⟨hkey, -, hrest⟩ := h
          rw [List.map_cons, List.map_cons, ih hrest, hkey]

theorem fieldsAlike_append_singleton {fs gs : Fields} {k l : String} {v w : Value} :
    FieldsAlike (fs ++ [(k, v)]) (gs ++ [(l, w)]) ↔ FieldsAlike fs gs ∧ k = l ∧ v.Alike w := by
  induction fs generalizing gs with
  | nil =>
      cases gs with
      | nil => simp [FieldsAlike]
      | cons g gs => cases gs <;> simp [FieldsAlike]
  | cons f fs ih =>
      cases gs with
      | nil => cases fs <;> simp [FieldsAlike]
      | cons g gs => simp [FieldsAlike, ih, and_assoc]

/-- An optional field behind fields with other keys. -/
theorem fieldsAlike_append_optional {key : String} {fs gs : Fields} (hfs : key ∉ fs.map (·.1))
    (hgs : key ∉ gs.map (·.1)) {o p : Option Value} :
    FieldsAlike (fs ++ Value.optional key o) (gs ++ Value.optional key p) ↔
      FieldsAlike fs gs ∧ Option.Rel Value.Alike o p := by
  cases o with
  | none =>
      cases p with
      | none => simp [Value.optional]
      | some w =>
          refine iff_of_false (fun h => hfs ?_) (by simp)
          have hkeys := h.keys_eq
          simp only [Value.optional, List.append_nil] at hkeys
          simp [hkeys]
  | some v =>
      cases p with
      | none =>
          refine iff_of_false (fun h => hgs ?_) (by simp)
          have hkeys := h.keys_eq
          simp only [Value.optional, List.append_nil] at hkeys
          simp [← hkeys]
      | some w => simp [Value.optional, fieldsAlike_append_singleton]

/-- An optional field in front of fields with other keys. -/
theorem fieldsAlike_optional {α : Type} {f : α → Value} (hf : ∀ a b, (f a).Alike (f b) ↔ a = b)
    {key : String} {fs gs : Fields} (hfs : key ∉ fs.map (·.1)) (hgs : key ∉ gs.map (·.1))
    {o p : Option α} :
    FieldsAlike (Value.optional key (o.map f) ++ fs) (Value.optional key (p.map f) ++ gs) ↔
      o = p ∧ FieldsAlike fs gs := by
  cases o with
  | none =>
      cases p with
      | none => simp [Value.optional]
      | some b =>
          refine iff_of_false (fun h => hfs ?_) (by simp)
          have hkeys : fs.map (·.1) = key :: gs.map (·.1) := h.keys_eq
          exact hkeys ▸ List.mem_cons_self
  | some a =>
      cases p with
      | none =>
          refine iff_of_false (fun h => hgs ?_) (by simp)
          have hkeys : key :: fs.map (·.1) = gs.map (·.1) := h.keys_eq
          exact hkeys ▸ List.mem_cons_self
      | some b => simp [Value.optional, FieldsAlike, hf]

theorem FieldsAlike.get? {fs gs : Fields} (h : FieldsAlike fs gs) (key : String) :
    Option.Rel Value.Alike (fs.get? key) (gs.get? key) := by
  induction fs generalizing gs with
  | nil =>
      cases gs with
      | nil => exact .none
      | cons g gs => simp [FieldsAlike] at h
  | cons f fs ih =>
      cases gs with
      | nil => simp [FieldsAlike] at h
      | cons g gs =>
          obtain ⟨hkey, hv, hrest⟩ := h
          rw [Fields.get?, Fields.get?, ← hkey]
          split_ifs
          · exact .some hv
          · exact ih hrest

/-! ### Lines of text -/

namespace Inline

/-- The word for the kind of an element. -/
def tag : Inline → String
  | text _ => "text"
  | strong _ => "strong"
  | emphasis _ => "emphasis"
  | delete _ => "delete"
  | code _ => "inlineCode"
  | link _ _ _ => "link"
  | image _ _ _ => "image"
  | html _ => "html"
  | softBreak => "softBreak"
  | hardBreak => "break"

theorem toValue_eq_tag (x : Inline) :
    ∃ fields, x.toValue = .obj (("type", .str x.tag) :: fields) := by
  cases x <;> exact ⟨_, rfl⟩

theorem fieldsAlike_title {title title' : String} {fs gs : Fields} (hfs : "title" ∉ fs.map (·.1))
    (hgs : "title" ∉ gs.map (·.1)) :
    FieldsAlike (titleField title ++ fs) (titleField title' ++ gs) ↔
      title = title' ∧ FieldsAlike fs gs := by
  have hfield : ∀ t, titleField t =
      Value.optional "title" ((if t = "" then none else some t).map Value.str) := by
    intro t
    by_cases ht : t = "" <;> simp [titleField, ht, Value.optional]
  rw [hfield, hfield, fieldsAlike_optional (fun _ _ => Value.alike_str) hfs hgs]
  refine and_congr_left fun _ => ?_
  split_ifs <;> simp_all [eq_comm]

mutual

theorem eq_of_alike {x y : Inline} (h : x.toValue.Alike y.toValue) : x = y := by
  have htag : x.tag = y.tag := by
    obtain ⟨fs, hfs⟩ := x.toValue_eq_tag
    obtain ⟨gs, hgs⟩ := y.toValue_eq_tag
    rw [hfs, hgs] at h
    exact h.2.1
  -- the tags leave one case for the second element
  cases x with
  | text value | code value | html value =>
      cases y <;> simp only [tag, String.reduceEq] at htag
      exact congrArg _ h.2.2.2.1
  | strong children | emphasis children | delete children =>
      cases y <;> simp only [tag, String.reduceEq] at htag
      exact congrArg _ (eq_of_itemsAlike h.2.2.2.1)
  | link url title children | image url title children =>
      cases y <;> simp only [tag, String.reduceEq] at htag
      obtain ⟨-, -, -, rfl, hrest⟩ := h
      obtain ⟨rfl, -, hchildren, -⟩ := (fieldsAlike_title (by simp) (by simp)).mp hrest
      rw [eq_of_itemsAlike hchildren]
  | softBreak | hardBreak =>
      cases y <;> simp only [tag, String.reduceEq] at htag
      rfl

theorem eq_of_itemsAlike {xs ys : List Inline} (h : ItemsAlike (valuesOf xs) (valuesOf ys)) :
    xs = ys := by
  cases xs with
  | nil =>
      cases ys with
      | nil => rfl
      | cons y ys => simp [valuesOf, ItemsAlike] at h
  | cons x xs =>
      cases ys with
      | nil => simp [valuesOf, ItemsAlike] at h
      | cons y ys =>
          obtain ⟨hx, hxs⟩ := h
          rw [eq_of_alike hx, eq_of_itemsAlike hxs]

end

end Inline

/-! ### Lists and tables -/

mutual

theorem ItemList.eq_of_alike {l l' : ItemList} (h : l.toValue.Alike l'.toValue) : l = l' := by
  obtain ⟨ordered, start, items⟩ := l
  obtain ⟨ordered', start', items'⟩ := l'
  obtain ⟨-, rfl, hrest⟩ := h
  obtain ⟨rfl, -, hitems, -⟩ :=
    (fieldsAlike_optional (fun _ _ => Value.alike_nat) (by simp) (by simp)).mp hrest
  rw [eq_of_itemsAlike hitems]

theorem Item.eq_of_alike {x x' : Item} (h : x.toValue.Alike x'.toValue) : x = x' := by
  obtain ⟨checked, children, sublist⟩ := x
  obtain ⟨checked', children', sublist'⟩ := x'
  have hfields : ∀ {fs gs : Fields}, "checked" ∉ fs.map (·.1) → "checked" ∉ gs.map (·.1) →
      FieldsAlike
        (Value.optional "checked" (checked.map .bool) ++
          [("children", .arr (Inline.valuesOf children))] ++ fs)
        (Value.optional "checked" (checked'.map .bool) ++
          [("children", .arr (Inline.valuesOf children'))] ++ gs) →
      checked = checked' ∧ children = children' ∧ FieldsAlike fs gs := by
    intro fs gs hfs hgs halike
    rw [List.append_assoc, List.append_assoc,
      fieldsAlike_optional (fun _ _ => Value.alike_bool) (by simpa using hfs) (by simpa using hgs)]
      at halike
    obtain ⟨hchecked, -, hchildren, hrest⟩ := halike
    exact ⟨hchecked, Inline.eq_of_itemsAlike hchildren, hrest⟩
  cases sublist with
  | none =>
      cases sublist' with
      | none =>
          obtain ⟨rfl, rfl, -⟩ := hfields (by simp) (by simp) h
          rfl
      | some l' =>
          obtain ⟨-, -, hrest⟩ := hfields (by simp) (by simp) h
          simp [FieldsAlike] at hrest
  | some l =>
      cases sublist' with
      | none =>
          obtain ⟨-, -, hrest⟩ := hfields (by simp) (by simp) h
          simp [FieldsAlike] at hrest
      | some l' =>
          obtain ⟨rfl, rfl, -, hsublist, -⟩ := hfields (by simp) (by simp) h
          rw [ItemList.eq_of_alike hsublist]

theorem eq_of_itemsAlike {xs ys : List Item} (h : ItemsAlike (itemValues xs) (itemValues ys)) :
    xs = ys := by
  cases xs with
  | nil =>
      cases ys with
      | nil => rfl
      | cons y ys => simp [itemValues, ItemsAlike] at h
  | cons x xs =>
      cases ys with
      | nil => simp [itemValues, ItemsAlike] at h
      | cons y ys =>
          obtain ⟨hx, hxs⟩ := h
          rw [Item.eq_of_alike hx, eq_of_itemsAlike hxs]

end

theorem Table.eq_of_alike {t t' : Table} (h : FieldsAlike t.fields t'.fields) : t = t' := by
  obtain ⟨align, header, rows⟩ := t
  obtain ⟨align', header', rows'⟩ := t'
  have hname : ∀ a b : Markdown.CellAlignment, (Value.str a.name).Alike (.str b.name) → a = b := by
    intro a b hab
    cases a <;> cases b <;> simp [Markdown.CellAlignment.name] at hab ⊢
  have hcell : ∀ cell cell', (Value.arr (Inline.valuesOf cell)).Alike
      (.arr (Inline.valuesOf cell')) → cell = cell' :=
    fun _ _ => Inline.eq_of_itemsAlike
  have hrow : ∀ cells cells', (rowValue cells).Alike (rowValue cells') → cells = cells' :=
    fun _ _ => itemsAlike_map hcell
  obtain ⟨-, halign, -, hheader, -, hrows, -⟩ := h
  obtain rfl : align = align' := itemsAlike_map hname halign
  obtain rfl : header = header' := hrow _ _ hheader
  obtain rfl : rows = rows' := itemsAlike_map hrow hrows
  rfl

/-! ### Sections and containers -/

/-- Contents of sections that differ at most in numbers, which have the same text. -/
def SectionContent.Alike {β : Type} : SectionContent β → SectionContent β → Prop
  | .other v, .other w => v.Alike w
  | content, content' => content = content'

/-- Sections that differ at most in numbers, which have the same text. -/
def Section.Alike {β : Type} : Section β → Section β → Prop
  | .entry props content, .entry props' content' =>
    FieldsAlike props props' ∧ Option.Rel SectionContent.Alike content content'
  | .malformed v, .malformed w => v.Alike w
  | _, _ => False

/-- Containers that differ at most in numbers, which have the same text. -/
structure Container.Alike {β : Type} (c c' : Container β) : Prop where
  itemsField : c.itemsField = c'.itemsField
  contentField : c.contentField = c'.contentField
  props : FieldsAlike c.props c'.props
  sections : Option.Rel (List.Forall₂ Section.Alike) c.sections c'.sections

/-- Data of blocks that differ at most in numbers of components, which have the same text. -/
def BlockData.Alike {β : Type} : BlockData β → BlockData β → Prop
  | .container c, .container c' => c.Alike c'
  | .component props, .component props' => FieldsAlike props props'
  | data, data' => data = data'

/-- A section that was read from an item: the key of the content is free. -/
def Section.Fresh {β : Type} (contentField : String) : Section β → Prop
  | .malformed v => ∀ fields, v ≠ .obj fields
  | .entry props content => contentField ∉ props.map (·.1) ∧ ∀ x ∈ content,
      (∀ bs, x ≠ .blocks bs) ∧ ∀ text, x ≠ .other (.str text)

/-- A container that was read from a mapping: the key of the items is free. -/
def Container.Fresh {β : Type} (c : Container β) : Prop :=
  match c.sections with
  | none => ∀ items, c.props.get? c.itemsField ≠ some (.arr items)
  | some sections => c.itemsField ∉ c.props.map (·.1) ∧ ∀ s ∈ sections, s.Fresh c.contentField

theorem Fields.get?_append_singleton {key : String} {fields : Fields}
    (h : key ∉ fields.map (·.1)) (v : Value) : get? key (fields ++ [(key, v)]) = some v := by
  induction fields with
  | nil => simp [get?]
  | cons f rest ih =>
      obtain ⟨hne, hrest⟩ : f.1 ≠ key ∧ key ∉ rest.map (·.1) := by simpa [eq_comm] using h
      rw [List.cons_append, get?, if_neg hne, ih hrest]

theorem Section.fresh_ofValue {β : Type} (contentField : String) (v : Value) :
    (ofValue contentField v : Section β).Fresh contentField := by
  cases v with
  | obj fields =>
      refine ⟨Fields.not_mem_keys_erase contentField fields, fun x hx => ?_⟩
      obtain ⟨w, -, rfl⟩ := Option.map_eq_some_iff.mp hx
      cases w <;> simp
  | _ => exact fun fields => nofun

theorem Container.fresh_ofProps {β : Type} (itemsField contentField : String) (props : Fields) :
    (ofProps itemsField contentField props : Container β).Fresh := by
  rw [ofProps]
  split
  · refine ⟨Fields.not_mem_keys_erase itemsField props, fun s hs => ?_⟩
    obtain ⟨v, -, rfl⟩ := List.mem_map.mp hs
    exact Section.fresh_ofValue contentField v
  · rename_i hnone
    exact hnone

theorem SectionContent.alike_toValue {x x' : SectionContent Block}
    (h : (∀ bs, x ≠ .blocks bs) ∧ ∀ text, x ≠ .other (.str text))
    (h' : (∀ bs, x' ≠ .blocks bs) ∧ ∀ text, x' ≠ .other (.str text)) :
    x.toValue.Alike x'.toValue ↔ x.Alike x' := by
  cases x with
  | blocks bs => exact absurd rfl (h.1 bs)
  | markdown text =>
      cases x' with
      | blocks bs => exact absurd rfl (h'.1 bs)
      | markdown text' => simp [toValue, Alike]
      | other w =>
          cases w with
          | str text' => exact absurd rfl (h'.2 text')
          | _ => simp [toValue, Alike, Value.Alike]
  | other v =>
      cases x' with
      | blocks bs => exact absurd rfl (h'.1 bs)
      | markdown text' =>
          cases v with
          | str text => exact absurd rfl (h.2 text)
          | _ => simp [toValue, Alike, Value.Alike]
      | other w => rfl

theorem Section.toValue_entry (contentField : String) (props : Fields)
    (content : Option (SectionContent Block)) :
    (entry props content).toValue contentField =
      .obj (props ++ Value.optional contentField (content.map SectionContent.toValue)) := by
  cases content with
  | none => simp [toValue, Value.optional]
  | some x => rfl

theorem Section.alike_toValue {contentField : String} {s s' : Section Block}
    (h : s.Fresh contentField) (h' : s'.Fresh contentField) :
    (s.toValue contentField).Alike (s'.toValue contentField) ↔ s.Alike s' := by
  have hmapping : ∀ {v : Value} {fields : Fields}, (∀ fs, v ≠ .obj fs) →
      ¬ v.Alike (.obj fields) ∧ ¬ (Value.obj fields).Alike v := by
    intro v fields hv
    cases v with
    | obj fs => exact absurd rfl (hv fs)
    | _ => simp [Value.Alike]
  cases s with
  | malformed v =>
      cases s' with
      | malformed w => rfl
      | entry props' content' =>
          rw [toValue_entry]
          exact iff_of_false (hmapping h).1 id
  | entry props content =>
      cases s' with
      | malformed w =>
          rw [toValue_entry]
          exact iff_of_false (hmapping h').2 id
      | entry props' content' =>
          obtain ⟨hkey, hx⟩ := h
          obtain ⟨hkey', hx'⟩ := h'
          rw [toValue_entry, toValue_entry]
          refine (fieldsAlike_append_optional hkey hkey').trans (and_congr_right fun _ => ?_)
          cases content with
          | none => cases content' <;> simp
          | some x =>
              cases content' with
              | none => simp
              | some x' => simpa using SectionContent.alike_toValue (hx x rfl) (hx' x' rfl)

theorem Section.itemsAlike_toValue {contentField : String} {ss ss' : List (Section Block)}
    (h : ∀ s ∈ ss, s.Fresh contentField) (h' : ∀ s ∈ ss', s.Fresh contentField) :
    ItemsAlike (ss.map (toValue contentField)) (ss'.map (toValue contentField)) ↔
      List.Forall₂ Section.Alike ss ss' := by
  rw [itemsAlike_iff, List.forall₂_map_left_iff, List.forall₂_map_right_iff, List.forall₂_iff_zip,
    List.forall₂_iff_zip]
  refine and_congr_right fun _ => forall₂_congr fun s s' => imp_congr_right fun hmem => ?_
  obtain ⟨hs, hs'⟩ := List.of_mem_zip hmem
  exact alike_toValue (h s hs) (h' s' hs')

/-- Fields that are alike to some with an array at the end have an array under its key. -/
theorem FieldsAlike.exists_arr {fs gs : Fields} {key : String} {items : List Value}
    (hkey : key ∉ gs.map (·.1))
    (h : FieldsAlike fs (gs ++ [(key, .arr items)]) ∨ FieldsAlike (gs ++ [(key, .arr items)]) fs) :
    ∃ vs, fs.get? key = some (.arr vs) := by
  have hget := Fields.get?_append_singleton hkey (.arr items)
  rcases h with h | h
  all_goals
    have hrel := h.get? key
    rw [hget] at hrel
    cases hv : fs.get? key with
    | none => simp [hv] at hrel
    | some v =>
        cases v with
        | arr vs => exact ⟨vs, rfl⟩
        | _ => simp [hv, Value.Alike] at hrel

theorem Container.alike_dataValue {c c' : Container Block} (h : c.Fresh) (h' : c'.Fresh)
    (hitems : c.itemsField = c'.itemsField) (hcontent : c.contentField = c'.contentField) :
    (dataValue (.container c)).Alike (dataValue (.container c')) ↔ c.Alike c' := by
  have halike_iff : c.Alike c' ↔ FieldsAlike c.props c'.props ∧
      Option.Rel (List.Forall₂ Section.Alike) c.sections c'.sections :=
    ⟨fun h => ⟨h.props, h.sections⟩, fun h => ⟨hitems, hcontent, h.1, h.2⟩⟩
  rw [halike_iff]
  obtain ⟨itemsField, contentField, props, sections⟩ := c
  obtain ⟨itemsField', contentField', props', sections'⟩ := c'
  obtain rfl : itemsField = itemsField' := hitems
  obtain rfl : contentField = contentField' := hcontent
  cases sections with
  | none =>
      cases sections' with
      | none => simp [dataValue]
      | some ss' =>
          rw [dataValue_container]
          refine iff_of_false (fun halike => ?_) (by simp)
          obtain ⟨vs, hvs⟩ := FieldsAlike.exists_arr h'.1 (Or.inl halike)
          exact h vs hvs
  | some ss =>
      cases sections' with
      | none =>
          rw [dataValue_container]
          refine iff_of_false (fun halike => ?_) (by simp)
          obtain ⟨vs, hvs⟩ := FieldsAlike.exists_arr h.1 (Or.inr halike)
          exact h' vs hvs
      | some ss' =>
          rw [dataValue_container, dataValue_container]
          refine fieldsAlike_append_singleton.trans (and_congr_right fun _ => ?_)
          simpa using Section.itemsAlike_toValue h.2 h'.2

/-! ### Data of Markdown blocks -/

/-- Data of one type that are written alike are the same. -/
theorem BlockData.eq_of_alike_dataValue {data data' : BlockData Block} {kind : String}
    (hkind : data.plainKind? = some kind) (hkind' : data'.plainKind? = some kind)
    (h : (dataValue data).Alike (dataValue data')) : data = data' := by
  have hsame : data.plainKind? = data'.plainKind? := hkind.trans hkind'.symm
  have hstr : ∀ s t : String, (Value.str s).Alike (.str t) ↔ s = t := fun _ _ => Value.alike_str
  cases data with
  | heading depth anchor children =>
      cases data' with
      | heading depth' anchor' children' =>
          obtain ⟨-, hdepth, hrest⟩ := h
          obtain ⟨rfl, -, hchildren, -⟩ := (fieldsAlike_optional hstr (by simp) (by simp)).mp hrest
          rw [Value.alike_nat.mp hdepth, Inline.eq_of_itemsAlike hchildren]
      | _ => simp [plainKind?] at hsame
  | paragraph children =>
      cases data' with
      | paragraph children' => rw [Inline.eq_of_itemsAlike h.2.1]
      | _ => simp [plainKind?] at hsame
  | image src alt title =>
      cases data' with
      | image src' alt' title' =>
          obtain ⟨⟨-, hsrc, -, halt, -⟩, hrel⟩ :=
            (fieldsAlike_append_optional (by simp) (by simp)).mp h
          have htitle : title = title' := by cases title <;> cases title' <;> simp_all
          rw [Value.alike_str.mp hsrc, Value.alike_str.mp halt, htitle]
      | _ => simp [plainKind?] at hsame
  | list l =>
      cases data' with
      | list l' => rw [ItemList.eq_of_alike h]
      | _ => simp [plainKind?] at hsame
  | code language details value =>
      cases data' with
      | code language' details' value' =>
          rw [dataValue, dataValue, List.append_assoc, List.append_assoc] at h
          obtain ⟨rfl, hrest⟩ := (fieldsAlike_optional hstr
            (by cases details <;> simp [Value.optional])
            (by cases details' <;> simp [Value.optional])).mp h
          obtain ⟨rfl, -, hvalue, -⟩ := (fieldsAlike_optional hstr (by simp) (by simp)).mp hrest
          rw [Value.alike_str.mp hvalue]
      | _ => simp [plainKind?] at hsame
  | quote children =>
      cases data' with
      | quote children' => rw [Inline.eq_of_itemsAlike h.2.1]
      | _ => simp [plainKind?] at hsame
  | table t =>
      cases data' with
      | table t' => rw [Table.eq_of_alike h]
      | _ => simp [plainKind?] at hsame
  | thematicBreak =>
      cases data' with
      | thematicBreak => rfl
      | _ => simp [plainKind?] at hsame
  | html value =>
      cases data' with
      | html value' => rw [Value.alike_str.mp h.2.1]
      | _ => simp [plainKind?] at hsame
  | container c => simp [plainKind?] at hkind
  | component props => simp [plainKind?] at hkind

end BlockDoc
