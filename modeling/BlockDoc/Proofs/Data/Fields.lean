import BlockDoc.Data.Value
import Mathlib.Data.String.Basic

/-!
The fields of mappings. An authored mapping is sorted by key, so a key stands
in it once: the value under a key can be taken out, and what is left are the
other fields. In an ordered value this holds of the mappings at every depth.
-/

namespace BlockDoc

namespace Fields

/-- The keys of the fields increase. -/
def Sorted (fields : Fields) : Prop := fields.Pairwise fun f g => f.1 < g.1

variable {key : String} {v : Value} {fields : Fields}

theorem mem_insert {f : String × Value} (hf : f ∈ insert key v fields) :
    f = (key, v) ∨ f ∈ fields := by
  induction fields with
  | nil => exact Or.inl (List.mem_singleton.mp hf)
  | cons g rest ih =>
      obtain ⟨k, w⟩ := g
      rw [insert] at hf
      split_ifs at hf with hlt heq
      · exact List.mem_cons.mp hf
      · exact (List.mem_cons.mp hf).imp_right (List.mem_cons_of_mem _)
      · rcases List.mem_cons.mp hf with rfl | hf
        · exact Or.inr List.mem_cons_self
        · exact (ih hf).imp_right (List.mem_cons_of_mem _)

theorem Sorted.insert (h : Sorted fields) (key : String) (v : Value) :
    Sorted (Fields.insert key v fields) := by
  induction fields with
  | nil => exact List.pairwise_singleton _ _
  | cons g rest ih =>
      obtain ⟨k, w⟩ := g
      obtain ⟨hhead, hrest⟩ := List.pairwise_cons.mp h
      rw [Fields.insert]
      split_ifs with hlt heq
      · refine List.pairwise_cons.mpr ⟨fun f hf => ?_, h⟩
        rcases List.mem_cons.mp hf with rfl | hf
        · exact hlt
        · exact String.lt_trans hlt (hhead f hf)
      · subst heq
        exact List.pairwise_cons.mpr ⟨hhead, hrest⟩
      · refine List.pairwise_cons.mpr ⟨fun f hf => ?_, ih hrest⟩
        rcases mem_insert hf with rfl | hf
        · exact lt_of_le_of_ne (not_lt.mp hlt) (Ne.symm heq)
        · exact hhead f hf

theorem foldl_insert {P : Fields → Prop} {added start : Fields} (hstart : P start)
    (hinsert : ∀ f ∈ added, ∀ acc, P acc → P (insert f.1 f.2 acc)) :
    P (added.foldl (fun acc f => insert f.1 f.2 acc) start) := by
  induction added generalizing start with
  | nil => exact hstart
  | cons f rest ih =>
      exact ih (hinsert f List.mem_cons_self start hstart)
        fun g hg => hinsert g (List.mem_cons_of_mem f hg)

theorem sorted_ofList (added : List (String × Value)) : Sorted (ofList added) :=
  foldl_insert List.Pairwise.nil fun f _ _ h => h.insert f.1 f.2

theorem mem_of_mem_ofList {added : List (String × Value)} :
    ∀ f ∈ ofList added, f ∈ added := by
  refine foldl_insert (P := fun acc => ∀ f ∈ acc, f ∈ added) (fun f hf => ?_) ?_
  · exact absurd hf List.not_mem_nil
  · intro g hg acc hacc f hf
    rcases mem_insert hf with rfl | hf
    · exact hg
    · exact hacc f hf

/-! ### Reading a field -/

@[simp] theorem get?_insert_self (key : String) (v : Value) (fields : Fields) :
    get? key (insert key v fields) = some v := by
  induction fields with
  | nil => exact if_pos rfl
  | cons g rest ih =>
      obtain ⟨k, w⟩ := g
      rw [insert]
      split_ifs with hlt heq
      · exact if_pos rfl
      · exact if_pos rfl
      · rw [get?, if_neg (Ne.symm heq), ih]

theorem get?_insert_of_ne {other : String} (h : other ≠ key) (v : Value) (fields : Fields) :
    get? key (insert other v fields) = get? key fields := by
  induction fields with
  | nil => exact if_neg h
  | cons g rest ih =>
      obtain ⟨k, w⟩ := g
      rw [insert]
      split_ifs with hlt heq
      · rw [get?, if_neg h]
      · rw [get?, get?, if_neg h, if_neg (heq ▸ h)]
      · rw [get?, get?, ih]

@[simp] theorem get?_erase_self (key : String) (fields : Fields) :
    get? key (erase key fields) = none := by
  induction fields with
  | nil => rfl
  | cons g rest ih =>
      obtain ⟨k, w⟩ := g
      by_cases hk : k = key
      · have herase : erase key ((k, w) :: rest) = erase key rest := by simp [erase, hk]
        rw [herase, ih]
      · have herase : erase key ((k, w) :: rest) = (k, w) :: erase key rest := by
          simp [erase, hk]
        rw [herase, get?, if_neg hk, ih]

/-! ### Taking a field out -/

theorem get?_erase_of_ne {other : String} (h : other ≠ key) (fields : Fields) :
    get? key (erase other fields) = get? key fields := by
  induction fields with
  | nil => rfl
  | cons field rest ih =>
      obtain ⟨k, v⟩ := field
      by_cases hk : k = other
      · have hne : k ≠ key := hk ▸ h
        have herase : erase other ((k, v) :: rest) = erase other rest := by simp [erase, hk]
        rw [herase, ih, get?, if_neg hne]
      · have herase : erase other ((k, v) :: rest) = (k, v) :: erase other rest := by
          simp [erase, hk]
        rw [herase, get?, get?, ih]

theorem mem_of_get? (h : get? key fields = some v) : (key, v) ∈ fields := by
  induction fields with
  | nil => exact absurd h nofun
  | cons g rest ih =>
      obtain ⟨k, w⟩ := g
      rw [get?] at h
      split_ifs at h with hk
      · obtain rfl := Option.some.inj h
        exact hk ▸ List.mem_cons_self
      · exact List.mem_cons_of_mem _ (ih h)

theorem erase_of_get?_none (h : get? key fields = none) : erase key fields = fields := by
  refine List.filter_eq_self.mpr fun f hf => ?_
  induction fields with
  | nil => exact absurd hf List.not_mem_nil
  | cons g rest ih =>
      obtain ⟨k, w⟩ := g
      rw [get?] at h
      split_ifs at h with hk
      rcases List.mem_cons.mp hf with rfl | hf
      · simpa using hk
      · exact ih h hf

/-- A field of a sorted mapping and the fields with other keys are all fields. -/
theorem Sorted.perm_erase (hsorted : Sorted fields) (h : get? key fields = some v) :
    fields.Perm ((key, v) :: erase key fields) := by
  induction fields with
  | nil => exact absurd h nofun
  | cons g rest ih =>
      obtain ⟨k, w⟩ := g
      obtain ⟨hhead, hrest⟩ := List.pairwise_cons.mp hsorted
      rw [get?] at h
      split_ifs at h with hk
      · obtain rfl := Option.some.inj h
        -- no later field has this key
        have hkept : erase key rest = rest := by
          refine List.filter_eq_self.mpr fun f hf => ?_
          have hlt : key < f.1 := hk ▸ hhead f hf
          have hne : f.1 ≠ key := Ne.symm (ne_of_lt hlt)
          simpa using hne
        have herase : erase key ((k, w) :: rest) = rest := by
          rw [← hkept]
          simp [erase, hk]
        rw [herase, hk]
      · have herase : erase key ((k, w) :: rest) = (k, w) :: erase key rest := by
          simp [erase, hk]
        rw [herase]
        exact ((ih hrest h).cons _).trans (List.Perm.swap _ _ _)

end Fields

/-- Every mapping in a value is sorted. -/
inductive Value.Ordered : Value → Prop
  | null : Ordered .null
  | bool {b : Bool} : Ordered (.bool b)
  | num {n : Number} : Ordered (.num n)
  | str {s : String} : Ordered (.str s)
  | arr {items : List Value} (hitems : ∀ v ∈ items, Ordered v) : Ordered (.arr items)
  | obj {fields : Fields} (hsorted : fields.Sorted) (hfields : ∀ f ∈ fields, Ordered f.2) :
    Ordered (.obj fields)

end BlockDoc
