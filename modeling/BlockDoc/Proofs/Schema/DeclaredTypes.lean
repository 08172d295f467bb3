import BlockDoc.Proofs.Data.Fields
import BlockDoc.Proofs.Schema.Acceptance
import BlockDoc.Proofs.Schema.Registration

/-!
Container types that settings declare, and whether any fields pass for them. A
type with the name of a built-in one keeps its validator. No container is a
callout, and the text that tabs and steps must have is not found when its field
is taken for the content. Every other declaration leaves fields that pass.
-/

namespace BlockDoc

/-! ### Validators of declared types -/

namespace Arrangement

/-- The arrangement of a container type. All types but three are plain. -/
def ofKind (kind : String) : Arrangement :=
  if kind = "ui:tabs" then tabs
  else if kind = "ui:steps" then steps
  else if kind = "ui:columns" then columns
  else plain

/-- The field of an item that must hold text. -/
def textField? : Arrangement → Option String
  | tabs => some "label"
  | steps => some "title"
  | plain => none
  | columns => none

theorem textField?_ofKind (kind : String) :
    (ofKind kind).textField? =
      if kind = "ui:tabs" then some "label"
      else if kind = "ui:steps" then some "title"
      else none := by
  rw [ofKind]
  split_ifs <;> rfl

end Arrangement

theorem Config.lastValidator?_calls (c : Config) (kind : String) :
    Registry.lastValidator? kind c.calls = none := by
  have hnone : c.calls.filterMap (·.validatorFor? kind) = [] := by
    refine List.filterMap_eq_nil_iff.mpr fun call hcall => ?_
    obtain ⟨x, -, rfl⟩ := List.mem_map.mp hcall
    rfl
  rw [Registry.lastValidator?, hnone, List.getLast?_nil]

/-- A declared type has the validator of the built-in type of its name, or else the common one. -/
theorem Config.validator?_registry {c : Config} {kind : String} {schema : ContainerSchema}
    (h : (kind, schema) ∈ c.containers) :
    c.registry.validator? kind =
      some (if kind = "ui:callout" then .callout else (Arrangement.ofKind kind).validator) := by
  have hdeclares : Registry.Declares kind c.calls := ⟨schema, List.mem_map.mpr ⟨_, h, rfl⟩⟩
  rw [c.registry_eq_after, Registry.validator?_after, c.lastValidator?_calls, Option.none_or,
    Registry.findSome?_commonFor? hdeclares, Registry.validator?_builtin, Arrangement.ofKind]
  by_cases hcallout : kind = "ui:callout"
  · subst hcallout
    rfl
  · rw [if_neg hcallout, if_neg hcallout]
    split_ifs <;> rfl

/-! ### Fields that pass -/

section Fields

variable (itemsField contentField : String)

/-- The content of an item is not among its other fields. -/
theorem Container.get?_contentField_of_mem {β : Type} {authored props : Fields}
    {held : Option (SectionContent β)}
    (h : .entry props held ∈ (ofProps itemsField contentField authored).sectionList) :
    props.get? contentField = none := by
  rw [ofProps] at h
  split at h
  · obtain ⟨v, -, hv⟩ := List.mem_map.mp h
    cases v with
    | obj fields =>
        obtain ⟨rfl, -⟩ := Section.entry.inj hv
        exact Fields.get?_erase_self contentField fields
    | _ => cases hv
  · exact absurd h List.not_mem_nil

namespace Arrangement

/-- Fields of an item that pass, with empty content. -/
def sampleItem (a : Arrangement) : Fields :=
  Fields.insert contentField (.str "") (a.textField?.toList.map fun field => (field, .str "x"))

/-- Fields of a container that pass. -/
def sample (a : Arrangement) : Fields :=
  [(itemsField, .arr [.obj (a.sampleItem contentField)])]

theorem ordered_sample (a : Arrangement) :
    Value.Ordered (.obj (a.sample itemsField contentField)) := by
  have htext : Fields.Sorted (a.textField?.toList.map fun field => (field, Value.str "x")) := by
    cases a <;> simp [textField?, Fields.Sorted]
  have hitem : Value.Ordered (.obj (a.sampleItem contentField)) := by
    refine .obj (htext.insert contentField (.str "")) fun f hf => ?_
    rcases Fields.mem_insert hf with rfl | hf
    · exact .str
    · obtain ⟨field, -, rfl⟩ := List.mem_map.mp hf
      exact .str
  refine .obj (List.pairwise_singleton _ _) fun f hf => ?_
  obtain rfl := List.mem_singleton.mp hf
  refine .arr fun v hv => ?_
  obtain rfl := List.mem_singleton.mp hv
  exact hitem

theorem ofProps_sample {β : Type} (a : Arrangement) :
    (Container.ofProps itemsField contentField (a.sample itemsField contentField) : Container β) =
      ⟨itemsField, contentField, [], some [.entry ((a.sampleItem contentField).erase contentField)
        (some (.markdown ""))]⟩ := by
  have hcontent : (a.sampleItem contentField).get? contentField = some (.str "") :=
    Fields.get?_insert_self _ _ _
  simp [Container.ofProps, sample, Fields.get?, Fields.erase, Section.ofValue, hcontent]

theorem hasFields_sampleItem {a : Arrangement} (h : ∀ field ∈ a.textField?, field ≠ contentField) :
    a.HasFields ((a.sampleItem contentField).erase contentField) := by
  have hread : ∀ key, key ≠ contentField →
      ((a.sampleItem contentField).erase contentField).get? key =
        Fields.get? key (a.textField?.toList.map fun field => (field, Value.str "x")) := by
    intro key hkey
    rw [Fields.get?_erase_of_ne hkey.symm, sampleItem, Fields.get?_insert_of_ne hkey.symm]
  have htext : ∀ field ∈ a.textField?,
      ((a.sampleItem contentField).erase contentField).HasText field := by
    intro field hfield
    refine ⟨"x", ?_, 'x', by decide, by decide⟩
    rw [hread field (h field hfield), hfield]
    exact if_pos rfl
  cases a with
  | plain => exact trivial
  | columns => exact trivial
  | tabs => exact htext "label" rfl
  | steps =>
      refine ⟨htext "title" rfl, fun v hv => ?_⟩
      by_cases hstatus : contentField = "status"
      · rw [hstatus, Fields.get?_erase_self] at hv
        exact absurd hv nofun
      · rw [hread "status" (Ne.symm hstatus)] at hv
        simp [textField?, Fields.get?] at hv

theorem accepts_sample {β : Type} {a : Arrangement}
    (h : ∀ field ∈ a.textField?, field ≠ contentField) :
    a.Accepts (Container.ofProps itemsField contentField (a.sample itemsField contentField) :
      Container β) := by
  rw [ofProps_sample]
  refine ⟨⟨_, _, rfl⟩, fun s hs => ?_, fun props held hs => ?_, fun _ v hv => absurd hv nofun⟩
  · obtain rfl := List.mem_singleton.mp hs
    exact ⟨_, Or.inl ⟨"", rfl⟩⟩
  · obtain ⟨rfl, -⟩ := Section.entry.inj (List.mem_singleton.mp hs)
    exact hasFields_sampleItem contentField h

theorem Accepts.hasText {β : Type} {a : Arrangement} {c : Container β} (h : a.Accepts c)
    {field : String} (hfield : field ∈ a.textField?)
    {props : Fields} {held : Option (SectionContent β)}
    (hs : .entry props held ∈ c.sectionList) : props.HasText field := by
  have hfields := h.fields props held hs
  cases a with
  | tabs => exact Option.some.inj hfield ▸ hfields
  | steps => exact Option.some.inj hfield ▸ hfields.1
  | plain => exact absurd hfield nofun
  | columns => exact absurd hfield nofun

/-- Some fields pass exactly if the field that must hold text is not taken for the content. -/
theorem exists_accepts_iff {β : Type} (a : Arrangement) :
    (∃ props : Fields, Value.Ordered (.obj props) ∧
        a.Accepts (Container.ofProps itemsField contentField props : Container β)) ↔
      ∀ field ∈ a.textField?, field ≠ contentField := by
  constructor
  · rintro ⟨authored, -, h⟩ field hfield rfl
    obtain ⟨s, rest, hsections⟩ := h.items
    have hs : s ∈ (Container.ofProps itemsField field authored).sectionList := by
      simp [Container.sectionList, hsections]
    obtain ⟨props, ⟨text, rfl⟩ | ⟨bs, rfl⟩⟩ := h.contents s hs
    all_goals
      obtain ⟨t, htext, -⟩ := h.hasText hfield hs
      rw [Container.get?_contentField_of_mem itemsField field hs] at htext
      cases htext
  · intro h
    exact ⟨_, a.ordered_sample itemsField contentField, accepts_sample itemsField contentField h⟩

end Arrangement

end Fields

/-- Some fields pass for a type that settings declare, unless it is named like the callout or the
content of its items is to stand in the field that must hold the label of a tab or the title of a
step. In these cases no fields pass. -/
theorem Config.declared_types_usable_iff {c : Config} {kind : String} {schema : ContainerSchema}
    (h : (kind, schema) ∈ c.containers) :
    (∃ props : Fields, Value.Ordered (.obj props) ∧ c.registry.validate kind
        (.container (Container.ofProps schema.itemsField schema.contentField props)) = []) ↔
      kind ≠ "ui:callout" ∧ ¬ (kind = "ui:tabs" ∧ schema.contentField = "label") ∧
        ¬ (kind = "ui:steps" ∧ schema.contentField = "title") := by
  have hvalidate : ∀ data, c.registry.validate kind data =
      (if kind = "ui:callout" then Validator.callout
        else (Arrangement.ofKind kind).validator).check data := by
    intro data
    rw [Registry.validate, c.validator?_registry h]
  simp only [hvalidate]
  by_cases hcallout : kind = "ui:callout"
  · refine ⟨?_, fun hne => absurd hcallout hne.1⟩
    rintro ⟨props, -, hpass⟩
    rw [if_pos hcallout] at hpass
    exact absurd hpass (List.cons_ne_nil _ _)
  · simp only [if_neg hcallout, Arrangement.check_eq_nil_iff, Arrangement.exists_accepts_iff,
      Arrangement.textField?_ofKind]
    split_ifs with htabs hsteps
    · simp [htabs, eq_comm]
    · simp [hsteps, eq_comm]
    · simp [htabs, hsteps, hcallout]

/-- Settings under which tabs keep their texts in the body of panels. -/
def panelSettings : Config := ⟨8, [("ui:tabs", ⟨"panels", "body"⟩)]⟩

theorem Config.declared_types_usable_of_panels :
    panelSettings.validate = .ok () ∧ ("ui:tabs", ⟨"panels", "body"⟩) ∈ panelSettings.containers ∧
      ∃ props : Fields, Value.Ordered (.obj props) ∧ panelSettings.registry.validate "ui:tabs"
        (.container (Container.ofProps "panels" "body" props)) = [] := by
  have hmem : ("ui:tabs", ⟨"panels", "body"⟩) ∈ panelSettings.containers :=
    List.mem_singleton.mpr rfl
  exact ⟨rfl, hmem, (Config.declared_types_usable_iff hmem).mpr (by decide)⟩

/-- Settings that make callouts containers. -/
def calloutSettings : String :=
  "[containers.\"ui:callout\"]\nitems-field = \"items\"\ncontent-field = \"content\"\n"

/-- The settings are accepted, but no container passes as a callout. -/
theorem calloutSettings_unusable :
    ∃ c, Config.ofToml calloutSettings = .ok c ∧ c.validate = .ok () ∧
      ("ui:callout", ⟨"items", "content"⟩) ∈ c.containers ∧
      ∀ props : Fields, c.registry.validate "ui:callout"
        (.container (Container.ofProps "items" "content" props)) ≠ [] := by
  have hread : Config.ofToml calloutSettings =
      .ok ⟨8, [("ui:callout", ⟨"items", "content"⟩)]⟩ := by decide +kernel
  refine ⟨_, hread, rfl, List.mem_singleton.mpr rfl, fun props => ?_⟩
  rw [Registry.validate, Config.validator?_registry (List.mem_singleton.mpr rfl), if_pos rfl]
  exact List.cons_ne_nil _ _

end BlockDoc
