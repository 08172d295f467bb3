import BlockDoc.Proofs.Data.Fields
import Mathlib.Data.List.Induction

/-!
Values as records. A record that is read back becomes a mapping sorted by key,
in which the last of several fields with one key counts. An ordered value is
read back as it is, and a record in which one field was moved to the end is
read back as the mapping that it was made of.
-/

namespace BlockDoc

namespace Fields

variable {key : String} {v : Value} {fields : Fields}

/-! ### Sorted mappings -/

theorem insert_of_last (h : ∀ f ∈ fields, f.1 < key) :
    insert key v fields = fields ++ [(key, v)] := by
  induction fields with
  | nil => rfl
  | cons f rest ih =>
      have hlt : f.1 < key := h f List.mem_cons_self
      rw [insert, if_neg (lt_asymm hlt), if_neg (ne_of_gt hlt),
        ih fun g hg => h g (List.mem_cons_of_mem f hg)]
      rfl

theorem ofList_append_singleton (fields : Fields) (key : String) (v : Value) :
    ofList (fields ++ [(key, v)]) = insert key v (ofList fields) := by
  simp [ofList]

/-- A sorted mapping is read back as it is. -/
theorem Sorted.ofList (h : Sorted fields) : Fields.ofList fields = fields := by
  induction fields using List.reverseRecOn with
  | nil => rfl
  | append_singleton rest f ih =>
      obtain ⟨hrest, -, hlast⟩ := List.pairwise_append.mp h
      rw [ofList_append_singleton, ih hrest,
        insert_of_last fun g hg => hlast g hg f List.mem_cons_self]

theorem Sorted.erase (h : Sorted fields) (key : String) : Sorted (Fields.erase key fields) :=
  h.sublist List.filter_sublist

theorem not_mem_keys_erase (key : String) (fields : Fields) :
    key ∉ (erase key fields).map (·.1) := by
  intro hkey
  obtain ⟨f, hf, heq⟩ := List.mem_map.mp hkey
  exact absurd heq (by simpa using (List.mem_filter.mp hf).2)

theorem Sorted.nodup_keys (h : Sorted fields) : (fields.map (·.1)).Nodup :=
  List.pairwise_map.mpr (h.imp fun hlt => ne_of_lt hlt)

theorem erase_cons_of_ne {f : String × Value} (h : f.1 ≠ key) :
    erase key (f :: fields) = f :: erase key fields :=
  List.filter_cons_of_pos (by simpa using h)

theorem erase_of_forall_ne (h : ∀ f ∈ fields, f.1 ≠ key) : erase key fields = fields :=
  List.filter_eq_self.mpr fun f hf => by simpa using h f hf

/-- A field that is taken out and set again was only set. -/
theorem Sorted.insert_erase (h : Sorted fields) (key : String) (v : Value) :
    Fields.insert key v (Fields.erase key fields) = Fields.insert key v fields := by
  induction fields with
  | nil => rfl
  | cons f rest ih =>
      obtain ⟨hhead, hrest⟩ := List.pairwise_cons.mp h
      rcases lt_trichotomy key f.1 with hlt | rfl | hgt
      · have hother : ∀ g ∈ f :: rest, g.1 ≠ key := by
          refine List.forall_mem_cons.mpr ⟨ne_of_gt hlt, fun g hg => ?_⟩
          exact ne_of_gt (hlt.trans (hhead g hg))
        rw [erase_of_forall_ne hother]
      · have hother : ∀ g ∈ rest, g.1 ≠ f.1 := fun g hg => ne_of_gt (hhead g hg)
        have herase : Fields.erase f.1 (f :: rest) = rest := by
          rw [Fields.erase, List.filter_cons_of_neg (by simp)]
          exact erase_of_forall_ne hother
        rw [herase, Fields.insert, if_neg (lt_irrefl _), if_pos rfl]
        cases rest with
        | nil => rfl
        | cons g rest => rw [Fields.insert, if_pos (hhead g List.mem_cons_self)]
      · have hpass : ∀ fields' : Fields,
            Fields.insert key v (f :: fields') = f :: Fields.insert key v fields' := by
          intro fields'
          rw [Fields.insert, if_neg (lt_asymm hgt), if_neg (ne_of_gt hgt)]
        rw [erase_cons_of_ne (ne_of_lt hgt), hpass, hpass, ih hrest]

/-- A field that is set to its value stays as it is. -/
theorem Sorted.insert_of_get? (h : Sorted fields) (hget : get? key fields = some v) :
    Fields.insert key v fields = fields := by
  induction fields with
  | nil => exact absurd hget nofun
  | cons f rest ih =>
      obtain ⟨k, w⟩ := f
      obtain ⟨hhead, hrest⟩ := List.pairwise_cons.mp h
      rw [get?] at hget
      rw [Fields.insert]
      split_ifs at hget with heq
      · obtain rfl := Option.some.inj hget
        rw [if_neg (heq ▸ lt_irrefl _), if_pos heq.symm, heq]
      · have hlt : k < key := hhead _ (mem_of_get? hget)
        rw [if_neg (lt_asymm hlt), if_neg (ne_of_gt hlt), ih hrest hget]

/-! ### Changed values -/

/-- The same keys with other values. -/
def mapValues (f : Value → Value) (fields : Fields) : Fields := fields.map fun x => (x.1, f x.2)

theorem mapValues_insert (f : Value → Value) (key : String) (v : Value) (fields : Fields) :
    mapValues f (insert key v fields) = insert key (f v) (mapValues f fields) := by
  induction fields with
  | nil => rfl
  | cons g rest ih =>
      obtain ⟨k, w⟩ := g
      have hcons : mapValues f ((k, w) :: rest) = (k, f w) :: mapValues f rest := rfl
      rw [hcons, insert, insert]
      split_ifs
      · rfl
      · rfl
      · rw [← ih]
        rfl

theorem mapValues_erase (f : Value → Value) (key : String) (fields : Fields) :
    mapValues f (erase key fields) = erase key (mapValues f fields) := by
  rw [mapValues, erase, erase, mapValues, List.filter_map]
  rfl

theorem Sorted.mapValues (h : Sorted fields) (f : Value → Value) :
    Sorted (Fields.mapValues f fields) :=
  List.pairwise_map.mpr h

end Fields

namespace Value

/-! ### Records that are read back -/

mutual

/-- A value as it is read back from a record. -/
def asRead : Value → Value
  | .arr items => .arr (itemsAsRead items)
  | .obj fields => .obj (Fields.ofList (fieldsAsRead fields))
  | v => v

/-- The items of an array as they are read back. -/
def itemsAsRead : List Value → List Value
  | [] => []
  | v :: vs => v.asRead :: itemsAsRead vs

/-- The values of fields as they are read back. -/
def fieldsAsRead : List (String × Value) → List (String × Value)
  | [] => []
  | (k, v) :: rest => (k, v.asRead) :: fieldsAsRead rest

end

theorem itemsAsRead_eq (items : List Value) : itemsAsRead items = items.map asRead := by
  induction items with
  | nil => rfl
  | cons v vs ih => rw [itemsAsRead, ih, List.map_cons]

theorem fieldsAsRead_eq (fields : Fields) : fieldsAsRead fields = fields.mapValues asRead := by
  induction fields with
  | nil => rfl
  | cons f rest ih =>
      rw [fieldsAsRead, ih]
      rfl

@[simp] theorem asRead_arr (items : List Value) : (arr items).asRead = .arr (items.map asRead) := by
  rw [asRead, itemsAsRead_eq]

theorem asRead_obj (fields : Fields) :
    (obj fields).asRead = .obj (Fields.ofList (fields.mapValues asRead)) := by
  rw [asRead, fieldsAsRead_eq]

theorem asRead_obj_of_sorted {fields : Fields} (h : fields.Sorted) :
    (obj fields).asRead = .obj (fields.mapValues asRead) := by
  rw [asRead_obj, (h.mapValues asRead).ofList]

/-- An ordered value is read back as it is. -/
theorem Ordered.asRead {v : Value} (h : v.Ordered) : v.asRead = v := by
  induction h with
  | arr _ ih =>
      rw [asRead_arr, List.map_congr_left ih, List.map_id']
  | @obj fields hsorted _ ih =>
      have hvalues : ∀ f ∈ fields, (f.1, f.2.asRead) = f := fun f hf => Prod.ext rfl (ih f hf)
      rw [asRead_obj_of_sorted hsorted, Fields.mapValues, List.map_congr_left hvalues,
        List.map_id']
  | _ => rfl

/-- A field that was moved behind the others is read back in its place. -/
theorem asRead_erase_append {fields : Fields} (h : fields.Sorted) (key : String) (v : Value) :
    (obj (fields.erase key ++ [(key, v)])).asRead = (obj (fields.insert key v)).asRead := by
  have hread := h.mapValues Value.asRead
  have happend : Fields.mapValues Value.asRead (fields.erase key ++ [(key, v)]) =
      (Fields.mapValues Value.asRead fields).erase key ++ [(key, v.asRead)] := by
    rw [← Fields.mapValues_erase]
    exact List.map_append
  rw [asRead_obj, happend, Fields.ofList_append_singleton, (hread.erase key).ofList,
    hread.insert_erase, asRead_obj_of_sorted (h.insert key v), Fields.mapValues_insert]

/-- Values that are read back alike are so under a key. -/
theorem asRead_insert_congr {fields : Fields} (h : fields.Sorted) (key : String) {v w : Value}
    (hv : v.asRead = w.asRead) :
    (obj (fields.insert key v)).asRead = (obj (fields.insert key w)).asRead := by
  rw [asRead_obj_of_sorted (h.insert key v), asRead_obj_of_sorted (h.insert key w),
    Fields.mapValues_insert, Fields.mapValues_insert, hv]

/-! ### Records without repeated keys -/

/-- In no mapping of a value a key stands twice. -/
inductive KeysOnce : Value → Prop
  | null : KeysOnce .null
  | bool {b : Bool} : KeysOnce (.bool b)
  | num {n : Number} : KeysOnce (.num n)
  | str {s : String} : KeysOnce (.str s)
  | arr {items : List Value} (hitems : ∀ v ∈ items, KeysOnce v) : KeysOnce (.arr items)
  | obj {fields : Fields} (hkeys : (fields.map (·.1)).Nodup)
    (hfields : ∀ f ∈ fields, KeysOnce f.2) : KeysOnce (.obj fields)

attribute [simp] KeysOnce.bool KeysOnce.num KeysOnce.str

@[simp] theorem keysOnce_nat (n : Nat) : (nat n).KeysOnce := .num

@[simp] theorem keysOnce_arr_iff {items : List Value} :
    (arr items).KeysOnce ↔ ∀ v ∈ items, v.KeysOnce :=
  ⟨fun | .arr hitems => hitems, .arr⟩

@[simp] theorem keysOnce_obj_iff {fields : Fields} :
    (obj fields).KeysOnce ↔ (fields.map (·.1)).Nodup ∧ ∀ f ∈ fields, f.2.KeysOnce :=
  ⟨fun | .obj hkeys hfields => ⟨hkeys, hfields⟩, fun h => .obj h.1 h.2⟩

theorem Ordered.keysOnce {v : Value} (h : v.Ordered) : v.KeysOnce := by
  induction h with
  | arr _ ih => exact .arr ih
  | obj hsorted _ ih => exact .obj hsorted.nodup_keys ih
  | null => exact .null
  | bool => exact .bool
  | num => exact .num
  | str => exact .str

theorem KeysOnce.erase {fields : Fields} (h : (Value.obj fields).KeysOnce) (key : String) :
    (Value.obj (fields.erase key)).KeysOnce := by
  obtain ⟨hkeys, hfields⟩ := keysOnce_obj_iff.mp h
  exact .obj (hkeys.sublist (List.filter_sublist.map _)) fun f hf =>
    hfields f (List.mem_of_mem_filter hf)

/-- A field with a new key can be added. -/
theorem KeysOnce.append {fields : Fields} (h : (Value.obj fields).KeysOnce) {key : String}
    {v : Value} (hkey : key ∉ fields.map (·.1)) (hv : v.KeysOnce) :
    (Value.obj (fields ++ [(key, v)])).KeysOnce := by
  obtain ⟨hkeys, hfields⟩ := keysOnce_obj_iff.mp h
  refine .obj ?_ fun f hf => ?_
  · rw [List.map_append]
    exact List.perm_append_comm.nodup_iff.mpr (List.nodup_cons.mpr ⟨hkey, hkeys⟩)
  · rcases List.mem_append.mp hf with hf | hf
    · exact hfields f hf
    · obtain rfl := List.mem_singleton.mp hf
      exact hv

end Value

end BlockDoc
