import BlockDoc.Proofs.Block.UniqueIds
import Mathlib.Data.List.Nodup
import Mathlib.Order.Bounds.Basic

/-!
The rule by which equal ids are told apart, without the counters that make it
fast: a later one of equal ids gets the least number that is free at its place.
A counter never skips a free number, because all numbers below it are taken and
what is taken stays so. The rule leaves no choice at any place, so it describes
the assigned ids completely.
-/

namespace BlockDoc

namespace Assignment

/-- The numbers below a counter are taken. -/
structure Counted (a : Assignment) : Prop where
  pos : ∀ id n, a.next.lookup id = some n → 1 ≤ n
  below : ∀ id n, a.next.lookup id = some n → ∀ m, 1 ≤ m → m < n → a.IsTaken (numbered id m)

/-- The numbers that are free for an id. -/
def freeNumbers (a : Assignment) (id : String) : Set Nat :=
  {n | 1 ≤ n ∧ ¬ a.IsTaken (numbered id n)}

namespace Counted

variable {a : Assignment}

/-- Before any id is assigned there are no counters. -/
theorem start (ids : List String) : Counted ⟨ids, [], []⟩ :=
  ⟨fun _ _ h => by simp at h, fun _ _ h => by simp at h⟩

/-- The number from which a search starts leaves no free number behind. -/
theorem search_start (h : a.Counted) (id : String) :
    1 ≤ (a.next.lookup id).getD 1 ∧
      ∀ m, 1 ≤ m → m < (a.next.lookup id).getD 1 → a.IsTaken (numbered id m) := by
  cases hnext : a.next.lookup id with
  | none => exact ⟨Nat.le_refl 1, fun m hm hlt => absurd hlt (Nat.not_lt.mpr hm)⟩
  | some n => exact ⟨h.pos id n hnext, h.below id n hnext⟩

/-- An id that was assigned before gets the least number that is free, and its counter moves behind
this number. -/
theorem assign_least (h : a.Counted) {id : String} (hid : id ∈ a.assigned) :
    ∃ n, a.assign id =
        { a with assigned := numbered id n :: a.assigned, next := (id, n + 1) :: a.next } ∧
      IsLeast (a.freeNumbers id) n := by
  obtain ⟨k, hassign, hbefore, hfree⟩ := a.assign_of_assigned id hid
  obtain ⟨hpos, hbelow⟩ := h.search_start id
  refine ⟨(a.next.lookup id).getD 1 + k, hassign, ⟨Nat.le_add_right_of_le hpos, hfree⟩, ?_⟩
  rintro m ⟨hm, hmfree⟩
  by_contra hlt
  refine hmfree ?_
  -- the numbers in front of the search, and those that it tried
  by_cases hstart : m < (a.next.lookup id).getD 1
  · exact hbelow m hm hstart
  · obtain ⟨j, rfl⟩ := Nat.exists_eq_add_of_le (Nat.not_lt.mp hstart)
    exact hbefore j (by omega)

/-- Assigning one more id frees none, and a counter may move behind numbers that are taken then. -/
theorem assign (h : a.Counted) (id : String) : (a.assign id).Counted := by
  obtain ⟨x, -, hx⟩ := a.assign_assigned id
  have hgrow : ∀ {id'}, a.IsTaken id' → (a.assign id).IsTaken id' := by
    intro id' htaken
    rw [IsTaken, a.assign_given id, hx]
    exact htaken.imp_right (List.mem_cons_of_mem x)
  by_cases hid : id ∈ a.assigned
  · obtain ⟨n, hassign, hleast⟩ := h.assign_least hid
    have hnext : ∀ id', (a.assign id).next.lookup id' =
        if id' = id then some (n + 1) else a.next.lookup id' := by
      intro id'
      rw [hassign, List.lookup_cons]
      by_cases heq : id' = id
      · simp [heq]
      · simp [heq, beq_eq_false_iff_ne.mpr heq]
    constructor
    · intro id' n' hn'
      rw [hnext] at hn'
      split_ifs at hn'
      · obtain rfl := Option.some.inj hn'
        exact Nat.le_add_left 1 n
      · exact h.pos id' n' hn'
    · intro id' n' hn' m hm hlt
      rw [hnext] at hn'
      split_ifs at hn' with heq
      · subst heq
        obtain rfl := Option.some.inj hn'
        rcases Nat.lt_or_eq_of_le (Nat.le_of_lt_succ hlt) with hmn | rfl
        · exact hgrow (not_not.mp fun hfree => Nat.not_le.mpr hmn (hleast.2 ⟨hm, hfree⟩))
        · rw [hassign]
          exact Or.inr List.mem_cons_self
      · exact hgrow (h.below id' n' hn' m hm hlt)
  · rw [a.assign_of_new id hid] at hgrow ⊢
    exact ⟨h.pos, fun id' n hn m hm hlt => hgrow (h.below id' n hn m hm hlt)⟩

theorem foldl_assign (h : a.Counted) (ids : List String) :
    (ids.foldl Assignment.assign a).Counted := by
  induction ids generalizing a with
  | nil => exact h
  | cons id ids ih => exact ih (h.assign id)

end Counted

end Assignment

/-! ### The rule -/

/-- The ids that stand for given ones when each of these stays as it is where it comes up first, and
gets the least number behind a hyphen with which it is neither given nor stands further in front
where it comes up again. -/
structure NumberedByRule (ids out : List String) : Prop where
  length : out.length = ids.length
  first : ∀ i id, ids[i]? = some id → id ∉ ids.take i → out[i]? = some id
  again : ∀ i id, ids[i]? = some id → id ∈ ids.take i →
    ∃ n, out[i]? = some (id ++ "-" ++ toString n) ∧
      IsLeast {n : Nat | 1 ≤ n ∧ id ++ "-" ++ toString n ∉ ids ∧
        id ++ "-" ++ toString n ∉ out.take i} n

namespace NumberedByRule

variable {ids out out' : List String}

/-- The rule leaves no choice: what stands in front of a place decides what stands there. -/
theorem unique (h : NumberedByRule ids out) (h' : NumberedByRule ids out') : out = out' := by
  have htake : ∀ i, out.take i = out'.take i := by
    intro i
    induction i with
    | zero => rfl
    | succ i ih =>
        rw [List.take_add_one, List.take_add_one, ih]
        congr 1
        cases hid : ids[i]? with
        | none =>
            have hi := List.getElem?_eq_none_iff.mp hid
            rw [List.getElem?_eq_none (h.length ▸ hi), List.getElem?_eq_none (h'.length ▸ hi)]
        | some id =>
            by_cases hfirst : id ∈ ids.take i
            · obtain ⟨n, hn, hleast⟩ := h.again i id hid hfirst
              obtain ⟨n', hn', hleast'⟩ := h'.again i id hid hfirst
              rw [ih] at hleast
              rw [hn, hn', hleast.unique hleast']
            · rw [h.first i id hid hfirst, h'.first i id hid hfirst]
  have hall := htake ids.length
  rwa [List.take_of_length_le h.length.le, List.take_of_length_le h'.length.le] at hall

/-- Distinct ids stand for themselves. -/
theorem of_nodup (h : ids.Nodup) : NumberedByRule ids ids := by
  refine ⟨rfl, fun i id hid _ => hid, fun i id hid hbefore => ?_⟩
  obtain ⟨hi, rfl⟩ := List.getElem?_eq_some_iff.mp hid
  obtain ⟨j, hj, heq⟩ := List.mem_take_iff_getElem.mp hbefore
  have hji : j = i := h.getElem_inj_iff.mp heq
  omega

end NumberedByRule

theorem numberedByRule_uniqueIds (ids : List String) : NumberedByRule ids (uniqueIds ids) := by
  refine ⟨uniqueIds_length ids, fun i id hid => (getElem?_uniqueIds hid).mpr, ?_⟩
  intro i id hid hbefore
  obtain ⟨a, ha⟩ : ∃ a, (ids.take i).foldl Assignment.assign ⟨ids, [], []⟩ = a := ⟨_, rfl⟩
  have hgiven : a.given = ids := by
    rw [← ha]
    exact Assignment.foldl_assign_given _ _
  have hassigned : id ∈ a.assigned := by
    rw [← ha, Assignment.mem_foldl_assign (List.take_subset i ids) (List.mem_of_getElem? hid)]
    exact Or.inl hbefore
  have hcounted : a.Counted := by
    rw [← ha]
    exact (Assignment.Counted.start ids).foldl_assign _
  obtain ⟨htake, hat⟩ := uniqueIds_at hid ha
  obtain ⟨n, hn, hleast⟩ := hcounted.assign_least hassigned
  have hfree : a.freeNumbers id = {n : Nat | 1 ≤ n ∧ id ++ "-" ++ toString n ∉ ids ∧
      id ++ "-" ++ toString n ∉ (uniqueIds ids).take i} := by
    ext m
    simp [Assignment.freeNumbers, Assignment.IsTaken, Assignment.numbered, hgiven, htake]
  exact ⟨n, hat _ (congrArg Assignment.assigned hn), hfree ▸ hleast⟩

/-- Telling ids apart gives exactly the ids of the rule, which are distinct; so telling them apart
once more changes nothing. -/
theorem uniqueIds_numbered_by_rule (ids : List String) :
    (∀ out, NumberedByRule ids out ↔ out = uniqueIds ids) ∧ (uniqueIds ids).Nodup ∧
      uniqueIds (uniqueIds ids) = uniqueIds ids := by
  refine ⟨fun out => ⟨fun h => h.unique (numberedByRule_uniqueIds ids), ?_⟩,
    uniqueIds_nodup ids, ?_⟩
  · rintro rfl
    exact numberedByRule_uniqueIds ids
  · exact (numberedByRule_uniqueIds (uniqueIds ids)).unique (.of_nodup (uniqueIds_nodup ids))

/-- The number 1 is given, so the second `a` gets the number 2. -/
example : uniqueIds ["a", "a", "a-1", "a"] = ["a", "a-2", "a-1", "a-3"] := by decide +kernel

end BlockDoc
