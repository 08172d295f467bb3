import BlockDoc.Component
import BlockDoc.Proofs.Block.Shell
import BlockDoc.Proofs.Data.Fields
import Mathlib.Data.List.Forall2

/-!
The references that components declare. The field `refs` is an array of
targets and of mappings with a target. An entry of any other form declares
nothing and is reported, and so is a field that is no array.
-/

namespace BlockDoc

/-- An entry declares a reference: it is a target, or a mapping with a target. -/
inductive Declares : Value → DeclaredRef → Prop
  | target {raw : String} {t : Target} (htarget : Target.ofDeclared? raw = some t) :
    Declares (.str raw) ⟨t, none, none⟩
  | mapping {fields : Fields} {raw : String} {t : Target}
    (hraw : fields.get? "target" = some (.str raw)) (htarget : Target.ofDeclared? raw = some t) :
    Declares (.obj fields)
      ⟨t, (fields.get? "relation").bind Value.str?, (fields.get? "label").bind Value.str?⟩

theorem Component.readRef_eq_some_iff {v : Value} {r : DeclaredRef} :
    readRef? v = some r ↔ Declares v r := by
  constructor
  · intro h
    cases v with
    | str raw =>
        rw [readRef?] at h
        obtain ⟨t, htarget, rfl⟩ := Option.map_eq_some_iff.mp h
        exact .target htarget
    | obj fields =>
        simp only [readRef?] at h
        obtain ⟨t, hbind, rfl⟩ := Option.map_eq_some_iff.mp h
        obtain ⟨raw, hraw, htarget⟩ := Option.bind_eq_some_iff.mp hbind
        obtain ⟨w, hw, hstr⟩ := Option.bind_eq_some_iff.mp hraw
        cases w with
        | str s =>
            obtain rfl := Option.some.inj hstr
            exact .mapping hw htarget
        | _ => exact absurd hstr nofun
    | _ => exact absurd h nofun
  · intro h
    cases h with
    | target htarget => simp [readRef?, htarget]
    | mapping hraw htarget => simp [readRef?, hraw, htarget, Value.str?]

/-- An entry is usable if it declares a reference. -/
def Usable (v : Value) : Prop := ∃ r, Declares v r

theorem usable_iff {v : Value} : Usable v ↔ (Component.readRef? v).isSome := by
  simp only [Usable, ← Component.readRef_eq_some_iff, Option.isSome_iff_exists]

instance : DecidablePred Usable := fun _ => decidable_of_iff _ usable_iff.symm

/-- The usable entries declare the references that are read, one after the other. -/
theorem Component.forall₂_readRef (entries : List Value) :
    List.Forall₂ Declares (entries.filter Usable) (entries.filterMap readRef?) := by
  induction entries with
  | nil => exact List.Forall₂.nil
  | cons v rest ih =>
      cases hread : readRef? v with
      | none =>
          have hv : ¬ Usable v := by simp [usable_iff, hread]
          simpa [hv, hread] using ih
      | some r =>
          have hv : Usable v := ⟨r, readRef_eq_some_iff.mp hread⟩
          simpa [hv, hread] using List.Forall₂.cons (readRef_eq_some_iff.mp hread) ih

/-! ### The field `refs` -/

section RefsField

variable {β : Type}

/-- The field `refs` of the data of a block. -/
def BlockData.refsField? (data : BlockData β) : Option Value := data.props?.bind (·.get? "refs")

/-- The entries of the field `refs`; there are none if it is no array. -/
def BlockData.refEntries (data : BlockData β) : List Value :=
  (data.refsField?.bind Value.arr?).getD []

/-- Whether there is a field `refs` that is no array. -/
def BlockData.refsNoArray (data : BlockData β) : Bool :=
  data.refsField?.any fun v => v.arr?.isNone

/-- The number of reports that a field `refs` calls for. -/
def BlockData.refFaults (data : BlockData β) : Nat :=
  data.refEntries.countP (¬ Usable ·) + if data.refsNoArray then 1 else 0

@[simp] theorem BlockData.refsField_shell (data : BlockData β) :
    data.shell.refsField? = data.refsField? := by
  simp [refsField?]

@[simp] theorem BlockData.refEntries_shell (data : BlockData β) :
    data.shell.refEntries = data.refEntries := by
  simp [refEntries]

@[simp] theorem BlockData.refsNoArray_shell (data : BlockData β) :
    data.shell.refsNoArray = data.refsNoArray := by
  simp [refsNoArray]

@[simp] theorem BlockData.refFaults_shell (data : BlockData β) :
    data.shell.refFaults = data.refFaults := by
  rw [refFaults, refFaults, refEntries_shell, refsNoArray_shell]

theorem BlockData.refEntries_of_shell {γ : Type} {data : BlockData β} {data' : BlockData γ}
    (h : data.shell = data'.shell) : data.refEntries = data'.refEntries := by
  rw [← data.refEntries_shell, h, data'.refEntries_shell]

theorem BlockData.refEntries_eq_nil {data : BlockData β} (h : data.props? = none) :
    data.refEntries = [] := by
  simp [refEntries, refsField?, h]

theorem BlockData.refFaults_eq_zero {data : BlockData β} (h : data.props? = none) :
    data.refFaults = 0 := by
  simp [refFaults, refEntries_eq_nil h, refsNoArray, refsField?, h]

end RefsField

namespace Component

/-- Each entry that declares nothing is reported once. -/
theorem countP_unusable (kind : String) (entries : List Value) (index : Nat) :
    ((entries.zipIdx index).filterMap fun (entry, i) =>
        if (readRef? entry).isSome then none else some (Cause.refWithoutTarget kind i)).countP
          (·.code = .invalidRef) = entries.countP (¬ Usable ·) := by
  induction entries generalizing index with
  | nil => rfl
  | cons v rest ih =>
      have hrest := ih (index + 1)
      rw [List.zipIdx_cons, List.filterMap_cons]
      by_cases hv : Usable v
      · have hread : (readRef? v).isSome = true := usable_iff.mp hv
        rw [List.countP_cons_of_neg (by simpa using hv)]
        simpa only [hread, if_true] using hrest
      · have hread : (readRef? v).isSome = false := by simpa [usable_iff] using hv
        rw [List.countP_cons_of_pos (by simpa using hv), ← hrest]
        simp only [hread, Bool.false_eq_true, if_false]
        exact List.countP_cons_of_pos rfl

/-- What is read from the field `refs` of some data, and how often the field is reported. -/
theorem readRefs_spec (kind : String) {data : BlockData Block} {props : Fields}
    (h : data.refsField? = props.get? "refs") :
    (readRefs kind props).1 = data.refEntries.filterMap readRef? ∧
      (readRefs kind props).2.countP (·.code = .invalidRef) = data.refFaults := by
  rw [BlockData.refFaults, BlockData.refEntries, BlockData.refsNoArray, h, readRefs]
  cases props.get? "refs" with
  | none => simp
  | some v =>
      cases v with
      | arr entries => exact ⟨rfl, countP_unusable kind entries 0⟩
      | _ => simp [Value.arr?, Cause.code]

end Component

/-! ### Reading a component -/

/-- A container keeps all fields except the one of its items. -/
theorem Container.get?_ofProps {β : Type} {key itemsField : String} (h : itemsField ≠ key)
    (contentField : String) (props : Fields) :
    (Container.ofProps itemsField contentField props : Container β).props.get? key =
      props.get? key := by
  rw [Container.ofProps]
  split
  · exact Fields.get?_erase_of_ne h props
  · rfl

/-- No container type keeps its items in the field `refs`. -/
def Registry.LeavesRefs (registry : Registry) : Prop :=
  ∀ kind schema, registry.container? kind = some schema → schema.itemsField ≠ "refs"

theorem Registry.leavesRefs_of_mem {registry : Registry}
    (h : ∀ x ∈ registry.containers, x.2.itemsField ≠ "refs") : registry.LeavesRefs := by
  intro kind schema hschema
  obtain ⟨before, behind, hsplit, -⟩ := List.lookup_eq_some_iff.mp hschema
  exact h (kind, schema) (by simp [hsplit])

namespace Component

variable {registry : Registry} (kind body : String)

theorem refsField_read (h : registry.LeavesRefs) :
    (read registry kind body).data.refsField? = (readProps kind body).1.get? "refs" := by
  cases hschema : registry.container? kind with
  | none => simp [read, hschema, BlockData.refsField?, BlockData.props?]
  | some schema =>
      have hfield := Container.get?_ofProps (β := Block) (h kind schema hschema)
        schema.contentField (readProps kind body).1
      simpa [read, hschema, BlockData.refsField?, BlockData.props?] using hfield

theorem refs_read (h : registry.LeavesRefs) :
    (read registry kind body).refs =
      (read registry kind body).data.refEntries.filterMap readRef? := by
  rw [← (readRefs_spec kind (refsField_read kind body h)).1, read]
  cases registry.container? kind <;> rfl

/-- Reading a component reports what is wrong with its field `refs`, once for each fault. -/
theorem countP_read (h : registry.LeavesRefs) :
    (read registry kind body).causes.countP (·.code = .invalidRef) =
      (read registry kind body).data.refFaults := by
  have hbody : (readProps kind body).2.countP (·.code = .invalidRef) = 0 := by
    rw [readProps]
    split_ifs
    · rfl
    · split <;> rfl
  have hanchor : (checkAnchor kind (readProps kind body).1).countP (·.code = .invalidRef) = 0 := by
    rw [checkAnchor]
    split_ifs <;> rfl
  have hrefs := (readRefs_spec kind (refsField_read kind body h)).2
  have hschema : ∀ (data : BlockData Block), ((registry.validate kind data).map
      (Cause.component kind)).countP (·.code = .invalidRef) = 0 := by
    intro data
    simp [List.countP_map, Function.comp_def, Cause.code]
  rw [← hrefs, read]
  cases registry.container? kind with
  | none => simp [List.countP_append, hbody, hanchor, hschema]
  | some schema => simp [List.countP_append, hbody, hanchor]

end Component

end BlockDoc
