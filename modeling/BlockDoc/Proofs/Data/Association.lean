import BlockDoc.Scope
import Mathlib.Data.List.Induction
import Mathlib.Data.List.Sort

/-!
Lists of keys and values. A list without repeated keys is a map: looking up a
key finds the one value that stands under it. Grouping pairs by their keys
gives a list that is sorted by key, and under each key the values in the order
in which they came.
-/

namespace BlockDoc

section Lookup

variable {α β : Type} [BEq α] [LawfulBEq α]

theorem lookup_eq_some_iff {l : List (α × β)} (h : (l.map (·.1)).Nodup) {key : α} {x : β} :
    l.lookup key = some x ↔ (key, x) ∈ l := by
  induction l with
  | nil => simp
  | cons entry l ih =>
      obtain ⟨k, y⟩ := entry
      rw [List.map_cons, List.nodup_cons] at h
      by_cases hk : key = k
      · subst hk
        have habsent : (key, x) ∉ l := fun hx => h.1 (List.mem_map.mpr ⟨_, hx, rfl⟩)
        simp [habsent, eq_comm]
      · have hne : (key == k) = false := beq_eq_false_iff_ne.mpr hk
        simp [List.lookup_cons, hne, hk, ih h.2]

theorem lookup_map_snd {γ : Type} (f : β → γ) (l : List (α × β)) (key : α) :
    (l.map (Prod.map id f)).lookup key = (l.lookup key).map f := by
  induction l with
  | nil => rfl
  | cons entry l ih =>
      obtain ⟨k, y⟩ := entry
      by_cases hk : key = k
      · subst hk
        simp
      · have hne : (key == k) = false := beq_eq_false_iff_ne.mpr hk
        simpa [List.lookup_cons, hne] using ih

end Lookup

/-- A list of lists to which one key alone contributes is the contribution of that key. -/
theorem flatMap_of_key {α β γ : Type} {l : List (α × β)} (h : (l.map (·.1)).Nodup) {key : α} {x : β}
    (hx : (key, x) ∈ l) {f : α × β → List γ} (hother : ∀ y ∈ l, y.1 ≠ key → f y = []) :
    l.flatMap f = f (key, x) := by
  induction l with
  | nil => exact absurd hx List.not_mem_nil
  | cons y l ih =>
      obtain ⟨hnot, hnodup⟩ := List.nodup_cons.mp h
      have hrest : ∀ z ∈ l, z.1 ≠ key → f z = [] :=
        fun z hz => hother z (List.mem_cons_of_mem y hz)
      rw [List.flatMap_cons]
      rcases List.mem_cons.mp hx with rfl | hx
      · have hnil : l.flatMap f = [] := by
          refine List.flatMap_eq_nil_iff.mpr fun z hz => hrest z hz ?_
          exact fun heq => hnot (List.mem_map.mpr ⟨z, hz, heq⟩)
        rw [hnil, List.append_nil]
      · have hne : y.1 ≠ key := fun heq => hnot (List.mem_map.mpr ⟨_, hx, heq.symm⟩)
        rw [hother y List.mem_cons_self hne, List.nil_append, ih hnodup hx hrest]

/-- What is found for each of some keys tells the keys, if different keys find
different things. -/
theorem filterMap_inj_of_mem {α β : Type} {f : α → Option β} {l l' : List α}
    (hsome : ∀ x ∈ l, (f x).isSome) (hsome' : ∀ x ∈ l', (f x).isSome)
    (hinj : ∀ x ∈ l, ∀ x' ∈ l', f x = f x' → x = x') (h : l.filterMap f = l'.filterMap f) :
    l = l' := by
  induction l generalizing l' with
  | nil =>
      cases l' with
      | nil => rfl
      | cons x' l' =>
          obtain ⟨y, hy⟩ := Option.isSome_iff_exists.mp (hsome' x' List.mem_cons_self)
          simp [hy] at h
  | cons x l ih =>
      obtain ⟨y, hy⟩ := Option.isSome_iff_exists.mp (hsome x List.mem_cons_self)
      cases l' with
      | nil => simp [hy] at h
      | cons x' l' =>
          obtain ⟨y', hy'⟩ := Option.isSome_iff_exists.mp (hsome' x' List.mem_cons_self)
          rw [List.filterMap_cons_some hy, List.filterMap_cons_some hy'] at h
          obtain ⟨rfl, htail⟩ := List.cons.inj h
          obtain rfl := hinj x List.mem_cons_self x' List.mem_cons_self (hy.trans hy'.symm)
          congr 1
          refine ih (fun z hz => hsome z (List.mem_cons_of_mem x hz))
            (fun z hz => hsome' z (List.mem_cons_of_mem x hz)) ?_ htail
          exact fun z hz z' hz' =>
            hinj z (List.mem_cons_of_mem x hz) z' (List.mem_cons_of_mem x hz')

/-! ### Groups -/

section Groups

variable {α β : Type}

/-- The values under a key, in order. -/
def valuesOf (key : String) (pairs : List (String × α)) : List α :=
  pairs.filterMap fun pair => if pair.1 = key then some pair.2 else none

@[simp] theorem valuesOf_nil (key : String) : valuesOf key ([] : List (String × α)) = [] := rfl

theorem valuesOf_cons (key : String) (pair : String × α) (pairs : List (String × α)) :
    valuesOf key (pair :: pairs) =
      if pair.1 = key then pair.2 :: valuesOf key pairs else valuesOf key pairs := by
  by_cases hkey : pair.1 = key <;> simp [valuesOf, hkey]

theorem valuesOf_append (key : String) (l l' : List (String × α)) :
    valuesOf key (l ++ l') = valuesOf key l ++ valuesOf key l' :=
  List.filterMap_append

theorem mem_valuesOf {key : String} {pairs : List (String × α)} {x : α} :
    x ∈ valuesOf key pairs ↔ (key, x) ∈ pairs := by
  constructor
  · intro h
    obtain ⟨⟨k, y⟩, hy, heq⟩ := List.mem_filterMap.mp h
    by_cases hk : k = key
    · subst hk
      obtain rfl : y = x := by simpa using heq
      exact hy
    · simp [hk] at heq
  · intro h
    exact List.mem_filterMap.mpr ⟨(key, x), h, by simp⟩

/-- Groups whose keys are sorted and none of which is empty. -/
structure WellGrouped (groups : List (String × List α)) : Prop where
  sorted : groups.Pairwise fun g h => g.1 < h.1
  nonempty : ∀ g ∈ groups, g.2 ≠ []

theorem WellGrouped.nodup {groups : List (String × List α)} (h : WellGrouped groups) :
    (groups.map (·.1)).Nodup := by
  refine List.pairwise_map.mpr (h.sorted.imp ?_)
  intro g g' hlt heq
  exact String.lt_irrefl _ (heq ▸ hlt)

theorem WellGrouped.tail {g : String × List α} {groups : List (String × List α)}
    (h : WellGrouped (g :: groups)) : WellGrouped groups :=
  ⟨h.sorted.of_cons, fun g' hg' => h.nonempty g' (List.mem_cons_of_mem g hg')⟩

theorem mem_addToGroup_fst {key : String} {x : α} {groups : List (String × List α)}
    {g : String × List α} (hg : g ∈ addToGroup key x groups) :
    g.1 = key ∨ ∃ g' ∈ groups, g'.1 = g.1 := by
  induction groups with
  | nil => exact Or.inl (by simp_all [addToGroup])
  | cons g' groups ih =>
      obtain ⟨k, xs⟩ := g'
      rw [addToGroup] at hg
      split_ifs at hg with hlt heq
      · rcases List.mem_cons.mp hg with rfl | hg
        · exact Or.inl rfl
        · exact Or.inr ⟨g, hg, rfl⟩
      · rcases List.mem_cons.mp hg with rfl | hg
        · exact Or.inl heq.symm
        · exact Or.inr ⟨g, List.mem_cons_of_mem _ hg, rfl⟩
      · rcases List.mem_cons.mp hg with rfl | hg
        · exact Or.inr ⟨(k, xs), List.mem_cons_self, rfl⟩
        · rcases ih hg with hkey | ⟨g'', hg'', h⟩
          · exact Or.inl hkey
          · exact Or.inr ⟨g'', List.mem_cons_of_mem _ hg'', h⟩

theorem wellGrouped_addToGroup (key : String) (x : α) {groups : List (String × List α)}
    (h : WellGrouped groups) : WellGrouped (addToGroup key x groups) := by
  induction groups with
  | nil => exact ⟨by simp [addToGroup], by simp [addToGroup]⟩
  | cons g groups ih =>
      obtain ⟨k, xs⟩ := g
      have hhead : ∀ g ∈ groups, k < g.1 := fun g hg => List.rel_of_pairwise_cons h.sorted hg
      rw [addToGroup]
      split_ifs with hlt heq
      · refine ⟨List.pairwise_cons.mpr ⟨?_, h.sorted⟩, ?_⟩
        · intro g hg
          rcases List.mem_cons.mp hg with rfl | hg
          · exact hlt
          · exact String.lt_trans hlt (hhead g hg)
        · intro g hg
          rcases List.mem_cons.mp hg with rfl | hg
          · simp
          · exact h.nonempty g hg
      · refine ⟨List.pairwise_cons.mpr ⟨hhead, h.sorted.of_cons⟩, ?_⟩
        intro g hg
        rcases List.mem_cons.mp hg with rfl | hg
        · simp
        · exact h.tail.nonempty g hg
      · have hkey : k < key := by
          rcases String.le_total k key with hle | hle
          · exact Decidable.byContradiction fun hnot => heq (String.le_antisymm
              (String.not_lt.mp hnot) hle)
          · exact absurd (String.le_antisymm hle (String.not_lt.mp hlt)) heq
        refine ⟨List.pairwise_cons.mpr ⟨?_, (ih h.tail).sorted⟩, ?_⟩
        · intro g hg
          rcases mem_addToGroup_fst hg with hg | ⟨g', hg', hg⟩
          · exact hg ▸ hkey
          · exact hg ▸ hhead g' hg'
        · intro g hg
          rcases List.mem_cons.mp hg with rfl | hg
          · exact h.nonempty _ List.mem_cons_self
          · exact (ih h.tail).nonempty g hg

/-- The group of a key; a key without values has an empty one. -/
def groupOf (key : String) (groups : List (String × List α)) : List α :=
  (groups.lookup key).getD []

@[simp] theorem groupOf_nil (key : String) : groupOf key ([] : List (String × List α)) = [] := rfl

theorem groupOf_cons (key k : String) (xs : List α) (groups : List (String × List α)) :
    groupOf key ((k, xs) :: groups) = if key = k then xs else groupOf key groups := by
  by_cases hk : key = k
  · subst hk
    simp [groupOf]
  · have hne : (key == k) = false := beq_eq_false_iff_ne.mpr hk
    simp [groupOf, List.lookup_cons, hne, hk]

theorem groupOf_eq_nil {key : String} {groups : List (String × List α)}
    (h : ∀ g ∈ groups, key < g.1) : groupOf key groups = [] := by
  induction groups with
  | nil => rfl
  | cons g groups ih =>
      obtain ⟨k, xs⟩ := g
      have hne : key ≠ k := fun heq => String.lt_irrefl k (heq ▸ h (k, xs) List.mem_cons_self)
      rw [groupOf_cons, if_neg hne, ih fun g hg => h g (List.mem_cons_of_mem _ hg)]

/-- Adding a value changes the group of its key only. -/
theorem groupOf_addToGroup (key : String) (x : α) {groups : List (String × List α)}
    (h : WellGrouped groups) (k : String) :
    groupOf k (addToGroup key x groups) =
      groupOf k groups ++ if key = k then [x] else [] := by
  induction groups with
  | nil =>
      rw [addToGroup, groupOf_cons, groupOf_nil, List.nil_append]
      exact if_congr eq_comm rfl rfl
  | cons g groups ih =>
      obtain ⟨k', xs⟩ := g
      have hhead : ∀ g ∈ groups, k' < g.1 := fun g hg => List.rel_of_pairwise_cons h.sorted hg
      rw [addToGroup]
      split_ifs with hlt hk heq hk hk
      · -- the key is less than all keys of groups, so its group was empty
        subst hk
        have habsent : groupOf key ((k', xs) :: groups) = [] := by
          refine groupOf_eq_nil fun g hg => ?_
          rcases List.mem_cons.mp hg with rfl | hg
          · exact hlt
          · exact String.lt_trans hlt (hhead g hg)
        rw [habsent, groupOf_cons, if_pos rfl, List.nil_append]
      · rw [groupOf_cons, if_neg (Ne.symm hk), List.append_nil]
      · subst heq hk
        rw [groupOf_cons, groupOf_cons, if_pos rfl, if_pos rfl]
      · subst heq
        rw [groupOf_cons, groupOf_cons, if_neg (Ne.symm hk), if_neg (Ne.symm hk), List.append_nil]
      · subst hk
        rw [groupOf_cons, groupOf_cons, if_neg heq, if_neg heq, ih h.tail, if_pos rfl]
      · rw [groupOf_cons, groupOf_cons, ih h.tail, if_neg hk, List.append_nil, List.append_nil]

theorem groupByKey_concat (pairs : List (String × α)) (pair : String × α) :
    groupByKey (pairs ++ [pair]) = addToGroup pair.1 pair.2 (groupByKey pairs) := by
  rw [groupByKey, List.foldl_append]
  rfl

theorem wellGrouped_groupByKey (pairs : List (String × α)) : WellGrouped (groupByKey pairs) := by
  induction pairs using List.reverseRecOn with
  | nil => exact ⟨List.Pairwise.nil, fun g hg => absurd hg List.not_mem_nil⟩
  | append_singleton pairs pair ih =>
      rw [groupByKey_concat]
      exact wellGrouped_addToGroup _ _ ih

/-- Under each key stand the values that came with it, in their order. -/
theorem groupOf_groupByKey (key : String) (pairs : List (String × α)) :
    groupOf key (groupByKey pairs) = valuesOf key pairs := by
  induction pairs using List.reverseRecOn with
  | nil => rfl
  | append_singleton pairs pair ih =>
      rw [groupByKey_concat, groupOf_addToGroup _ _ (wellGrouped_groupByKey pairs), ih,
        valuesOf_append]
      congr 1
      rw [valuesOf_cons, valuesOf_nil]

theorem WellGrouped.mem_iff {groups : List (String × List α)} (h : WellGrouped groups)
    (g : String × List α) : g ∈ groups ↔ groupOf g.1 groups = g.2 ∧ g.2 ≠ [] := by
  rw [groupOf]
  constructor
  · intro hg
    rw [(lookup_eq_some_iff h.nodup).mpr hg]
    exact ⟨rfl, h.nonempty g hg⟩
  · rintro ⟨hgroup, hne⟩
    refine (lookup_eq_some_iff h.nodup).mp ?_
    cases hlookup : groups.lookup g.1 with
    | none =>
        rw [hlookup] at hgroup
        exact absurd hgroup.symm hne
    | some xs =>
        rw [hlookup] at hgroup
        exact congrArg some hgroup

/-- Groups are determined by the group of each key. -/
theorem WellGrouped.ext {groups groups' : List (String × List α)} (h : WellGrouped groups)
    (h' : WellGrouped groups') (heq : ∀ key, groupOf key groups = groupOf key groups') :
    groups = groups' := by
  have hirrefl : Std.Irrefl fun g g' : String × List α => g.1 < g'.1 :=
    ⟨fun g => String.lt_irrefl g.1⟩
  have hantisymm : Std.Antisymm fun g g' : String × List α => g.1 < g'.1 :=
    ⟨fun g g' hlt hgt => absurd (String.lt_trans hlt hgt) (String.lt_irrefl g.1)⟩
  refine h.sorted.eq_of_mem_iff h'.sorted fun g => ?_
  rw [h.mem_iff, h'.mem_iff, heq]

/-! ### Ungrouping -/

/-- The values of groups with their keys. -/
def ungroup (groups : List (String × List α)) : List (String × α) :=
  groups.flatMap fun g => g.2.map (Prod.mk g.1)

theorem ungroup_cons (g : String × List α) (groups : List (String × List α)) :
    ungroup (g :: groups) = g.2.map (Prod.mk g.1) ++ ungroup groups := rfl

theorem ungroup_filter (q : String → Bool) (groups : List (String × List α)) :
    ungroup (groups.filter fun g => q g.1) = (ungroup groups).filter fun pair => q pair.1 := by
  induction groups with
  | nil => rfl
  | cons g groups ih =>
      rw [List.filter_cons, ungroup_cons, List.filter_append, ← ih, List.filter_map]
      cases hq : q g.1 <;> simp [ungroup_cons, Function.comp_def, hq]

theorem ungroup_addToGroup_perm (key : String) (x : α) (groups : List (String × List α)) :
    (ungroup (addToGroup key x groups)).Perm ((key, x) :: ungroup groups) := by
  induction groups with
  | nil => rfl
  | cons g groups ih =>
      obtain ⟨k, xs⟩ := g
      rw [addToGroup]
      split_ifs with hlt heq
      · rfl
      · subst heq
        have hgroup : ((xs ++ [x]).map (Prod.mk key)).Perm ((key, x) :: xs.map (Prod.mk key)) := by
          rw [List.map_append]
          exact List.perm_append_singleton _ _
        exact hgroup.append_right (ungroup groups)
      · exact (ih.append_left (xs.map (Prod.mk k))).trans List.perm_middle

/-- Grouping keeps every pair once. -/
theorem ungroup_groupByKey_perm (pairs : List (String × α)) :
    (ungroup (groupByKey pairs)).Perm pairs := by
  induction pairs using List.reverseRecOn with
  | nil => rfl
  | append_singleton pairs pair ih =>
      rw [groupByKey_concat]
      exact (ungroup_addToGroup_perm pair.1 pair.2 _).trans
        ((ih.cons pair).trans (List.perm_append_singleton pair pairs).symm)

end Groups

end BlockDoc
