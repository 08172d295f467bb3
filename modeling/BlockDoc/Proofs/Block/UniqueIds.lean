import BlockDoc.Block.Id
import Std.Data.String.ToNat

/-!
Telling equal ids apart. The search for a free number is bounded, and the
bound is large enough because the numbered forms of an id all differ: more of
them are tried than ids are given or assigned. Hence every step assigns an id
that was not assigned before. Numbered ids are never given ones, so the first
of equal ids is the one that stays.
-/

namespace BlockDoc

namespace Assignment

theorem numbered_injective (id : String) {m n : Nat} (h : numbered id m = numbered id n) :
    m = n := by
  unfold numbered at h
  exact Nat.repr_injective ((String.append_right_inj _).mp h)

/-- Whether an id is given or assigned already. -/
def IsTaken (a : Assignment) (id : String) : Prop := id ∈ a.given ∨ id ∈ a.assigned

instance (a : Assignment) (id : String) : Decidable (a.IsTaken id) :=
  inferInstanceAs (Decidable (_ ∨ _))

theorem isTaken_iff (a : Assignment) (id : String) :
    (a.given.contains id || a.assigned.contains id) = true ↔ a.IsTaken id := by
  simp [IsTaken]

/-- The search answers with the number at which it stopped. All numbers before
it are taken, and the number itself is not, unless the search ran to its end. -/
theorem firstFree_eq (a : Assignment) (id : String) (fuel n : Nat) :
    ∃ k ≤ fuel, a.firstFree id fuel n = (numbered id (n + k), n + k + 1) ∧
      (∀ j < k, a.IsTaken (numbered id (n + j))) ∧
      (k < fuel → ¬ a.IsTaken (numbered id (n + k))) := by
  induction fuel generalizing n with
  | zero => exact ⟨0, Nat.le_refl 0, rfl, by simp, by simp⟩
  | succ fuel ih =>
      by_cases htaken : a.IsTaken (numbered id n)
      · obtain ⟨k, hk, hfree, hbefore, hstop⟩ := ih (n + 1)
        have hshift : ∀ j, n + 1 + j = n + (j + 1) := fun j => by omega
        refine ⟨k + 1, Nat.succ_le_succ hk, ?_, ?_, ?_⟩
        · rw [firstFree, if_pos ((a.isTaken_iff _).mpr htaken), hfree, hshift]
        · intro j hj
          cases j with
          | zero => exact htaken
          | succ j => exact hshift j ▸ hbefore j (Nat.lt_of_succ_lt_succ hj)
        · intro hlt
          exact hshift k ▸ hstop (Nat.lt_of_succ_lt_succ hlt)
      · refine ⟨0, Nat.zero_le _, ?_, by simp, fun _ => htaken⟩
        rw [firstFree, if_neg (mt (a.isTaken_iff _).mp htaken)]
        rfl

/-- Not all of many numbered forms of an id are taken. -/
theorem lt_of_all_taken (a : Assignment) (id : String) (n k : Nat)
    (h : ∀ j < k, a.IsTaken (numbered id (n + j))) :
    k ≤ a.given.length + a.assigned.length := by
  have hnodup : ((List.range k).map fun j => numbered id (n + j)).Nodup := by
    refine List.pairwise_map.mpr (List.nodup_range.imp ?_)
    intro i j hij heq
    exact hij (Nat.add_left_cancel (numbered_injective id heq))
  have hsubset : (List.range k).map (fun j => numbered id (n + j)) ⊆ a.given ++ a.assigned := by
    intro x hx
    obtain ⟨j, hj, rfl⟩ := List.mem_map.mp hx
    exact List.mem_append.mpr (h j (List.mem_range.mp hj))
  simpa using hnodup.length_le_of_subset hsubset

/-- The search that an assignment makes answers with the first number that is
not taken. -/
theorem firstFree_free (a : Assignment) (id : String) (n : Nat) :
    ∃ k, a.firstFree id (a.given.length + a.assigned.length + 1) n =
        (numbered id (n + k), n + k + 1) ∧
      (∀ j < k, a.IsTaken (numbered id (n + j))) ∧
      ¬ a.IsTaken (numbered id (n + k)) := by
  obtain ⟨k, -, hfree, hbefore, hstop⟩ :=
    a.firstFree_eq id (a.given.length + a.assigned.length + 1) n
  have hk := a.lt_of_all_taken id n k hbefore
  exact ⟨k, hfree, hbefore, hstop (by omega)⟩

theorem assign_of_new (a : Assignment) (id : String) (h : id ∉ a.assigned) :
    a.assign id = { a with assigned := id :: a.assigned } := by
  rw [assign, if_neg (by simpa using h)]

/-- An id that was assigned before gets the first number that is not taken,
counting from the number behind the last one it got. -/
theorem assign_of_assigned (a : Assignment) (id : String) (h : id ∈ a.assigned) :
    ∃ k, a.assign id =
        { a with
          assigned := numbered id ((a.next.lookup id).getD 1 + k) :: a.assigned
          next := (id, (a.next.lookup id).getD 1 + k + 1) :: a.next } ∧
      (∀ j < k, a.IsTaken (numbered id ((a.next.lookup id).getD 1 + j))) ∧
      ¬ a.IsTaken (numbered id ((a.next.lookup id).getD 1 + k)) := by
  obtain ⟨k, hfree, hbefore, hstop⟩ := a.firstFree_free id ((a.next.lookup id).getD 1)
  refine ⟨k, ?_, hbefore, hstop⟩
  simp only [assign, if_pos (List.contains_iff_mem.mpr h), hfree]

/-- One id more is assigned, and one that was not assigned before. -/
theorem assign_assigned (a : Assignment) (id : String) :
    ∃ x, x ∉ a.assigned ∧ (a.assign id).assigned = x :: a.assigned := by
  by_cases hid : id ∈ a.assigned
  · obtain ⟨k, hassign, -, hx⟩ := a.assign_of_assigned id hid
    exact ⟨_, fun h => hx (Or.inr h), by rw [hassign]⟩
  · exact ⟨id, hid, by rw [a.assign_of_new id hid]⟩

/-- Assigning ids one after the other keeps the assigned ones distinct and
assigns one for each. -/
theorem foldl_assign (ids : List String) (a : Assignment) (h : a.assigned.Nodup) :
    (ids.foldl assign a).assigned.Nodup ∧
      (ids.foldl assign a).assigned.length = ids.length + a.assigned.length := by
  induction ids generalizing a with
  | nil => exact ⟨h, by simp⟩
  | cons id ids ih =>
      obtain ⟨x, hx, hassigned⟩ := a.assign_assigned id
      have hnodup : (a.assign id).assigned.Nodup := by
        rw [hassigned]
        exact List.nodup_cons.mpr ⟨hx, h⟩
      obtain ⟨hall, hlength⟩ := ih (a.assign id) hnodup
      refine ⟨hall, ?_⟩
      rw [List.foldl_cons, hlength, hassigned, List.length_cons, List.length_cons]
      omega

theorem assign_given (a : Assignment) (id : String) : (a.assign id).given = a.given := by
  rw [assign]
  split <;> rfl

/-- A given id is assigned itself unless it was assigned before; then it is
assigned an id that was not given. -/
theorem assign_given_id {a : Assignment} {id : String} (hid : id ∈ a.given) :
    ∃ x, (a.assign id).assigned = x :: a.assigned ∧ (x = id ↔ id ∉ a.assigned) ∧
      (x ≠ id → x ∉ a.given) := by
  by_cases hassigned : id ∈ a.assigned
  · obtain ⟨k, hassign, -, hfree⟩ := a.assign_of_assigned id hassigned
    refine ⟨_, by rw [hassign], ⟨fun heq => ?_, fun h => absurd hassigned h⟩, fun _ hx => ?_⟩
    · exact absurd (Or.inl (heq.symm ▸ hid)) hfree
    · exact hfree (Or.inl hx)
  · exact ⟨id, by rw [a.assign_of_new id hassigned], by simp [hassigned], fun h => absurd rfl h⟩

/-- Of the given ids those are assigned that came up. -/
theorem mem_foldl_assign {ids : List String} {a : Assignment} (hids : ids ⊆ a.given) {id : String}
    (hid : id ∈ a.given) :
    id ∈ (ids.foldl assign a).assigned ↔ id ∈ ids ∨ id ∈ a.assigned := by
  induction ids generalizing a with
  | nil => simp
  | cons next ids ih =>
      obtain ⟨hnext, hrest⟩ := List.cons_subset.mp hids
      obtain ⟨x, hassigned, hx, hother⟩ := assign_given_id hnext
      have hgiven := a.assign_given next
      rw [List.foldl_cons, ih (hgiven ▸ hrest) (hgiven ▸ hid), hassigned]
      have hstep : id ∈ x :: a.assigned ↔ id = next ∨ id ∈ a.assigned := by
        by_cases heq : x = next
        · rw [heq, List.mem_cons]
        · have hne : id ≠ x := fun h => hother heq (h ▸ hid)
          have hold : next ∈ a.assigned := Decidable.of_not_not fun hnew => heq (hx.mpr hnew)
          rw [List.mem_cons, or_iff_right hne]
          exact ⟨Or.inr, fun h => h.elim (fun h => h ▸ hold) fun h => h⟩
      rw [hstep, List.mem_cons, or_left_comm, or_assoc]

theorem foldl_assign_given (ids : List String) (a : Assignment) :
    (ids.foldl assign a).given = a.given := by
  induction ids generalizing a with
  | nil => rfl
  | cons id ids ih => rw [List.foldl_cons, ih, assign_given]

/-- What is assigned stays, and later ids come in front of it. -/
theorem suffix_foldl_assign (ids : List String) (a : Assignment) :
    a.assigned <:+ (ids.foldl assign a).assigned := by
  induction ids generalizing a with
  | nil => exact List.suffix_rfl
  | cons id ids ih =>
      obtain ⟨x, -, hx⟩ := a.assign_assigned id
      exact (hx ▸ List.suffix_cons x a.assigned).trans (ih (a.assign id))

end Assignment

theorem uniqueIds_nodup (ids : List String) : (uniqueIds ids).Nodup := by
  have hassigned := (Assignment.foldl_assign ids ⟨ids, [], []⟩ List.nodup_nil).1
  exact List.pairwise_reverse.mpr (hassigned.imp Ne.symm)

theorem uniqueIds_length (ids : List String) : (uniqueIds ids).length = ids.length := by
  rw [uniqueIds, List.length_reverse,
    (Assignment.foldl_assign ids ⟨ids, [], []⟩ List.nodup_nil).2]
  rfl

/-- What holds of given ids and of the numbered forms of ids holds of all assigned ids. -/
theorem uniqueIds_induction {P : String → Prop} {ids : List String} (hgiven : ∀ id ∈ ids, P id)
    (hnumbered : ∀ id n, P id → P (Assignment.numbered id n)) : ∀ id ∈ uniqueIds ids, P id := by
  have hfold : ∀ (ids : List String) (a : Assignment), (∀ id ∈ ids, P id) →
      (∀ id ∈ a.assigned, P id) → ∀ id ∈ (ids.foldl Assignment.assign a).assigned, P id := by
    intro ids
    induction ids with
    | nil => exact fun a _ ha => ha
    | cons next ids ih =>
        intro a hids ha
        refine ih (a.assign next) (fun id hid => hids id (List.mem_cons_of_mem next hid)) ?_
        have hnext := hids next List.mem_cons_self
        intro id hid
        by_cases hassigned : next ∈ a.assigned
        · obtain ⟨k, hassign, -, -⟩ := a.assign_of_assigned next hassigned
          rw [hassign] at hid
          rcases List.mem_cons.mp hid with rfl | hid
          · exact hnumbered next _ hnext
          · exact ha id hid
        · rw [a.assign_of_new next hassigned] at hid
          rcases List.mem_cons.mp hid with rfl | hid
          · exact hnext
          · exact ha id hid
  intro id hid
  refine hfold ids ⟨ids, [], []⟩ hgiven (fun id hid => absurd hid List.not_mem_nil) id ?_
  exact List.mem_reverse.mp hid

/-- What stands at a place was assigned when the ids in front of it were, and stayed. -/
theorem uniqueIds_at {ids : List String} {i : Nat} {id : String} (h : ids[i]? = some id)
    {a : Assignment} (ha : (ids.take i).foldl Assignment.assign ⟨ids, [], []⟩ = a) :
    (uniqueIds ids).take i = a.assigned.reverse ∧
      ∀ x, (a.assign id).assigned = x :: a.assigned → (uniqueIds ids)[i]? = some x := by
  obtain ⟨hi, rfl⟩ := List.getElem?_eq_some_iff.mp h
  have hlength : a.assigned.reverse.length = i := by
    rw [List.length_reverse, ← ha,
      (Assignment.foldl_assign (ids.take i) ⟨ids, [], []⟩ List.nodup_nil).2, List.length_take]
    simp only [List.length_nil, Nat.add_zero]
    omega
  have hfold : ids.foldl Assignment.assign ⟨ids, [], []⟩ =
      (ids.drop (i + 1)).foldl Assignment.assign (a.assign ids[i]) := by
    rw [← List.foldl_cons, List.getElem_cons_drop, ← ha, ← List.foldl_append,
      List.take_append_drop]
  obtain ⟨later, hlater⟩ := Assignment.suffix_foldl_assign (ids.drop (i + 1)) (a.assign ids[i])
  have hunique : uniqueIds ids = (a.assign ids[i]).assigned.reverse ++ later.reverse := by
    rw [uniqueIds, hfold, ← hlater, List.reverse_append]
  obtain ⟨y, -, hy⟩ := a.assign_assigned ids[i]
  rw [hy, List.reverse_cons, List.append_assoc, List.singleton_append] at hunique
  refine ⟨?_, fun x hx => ?_⟩
  · rw [hunique, ← hlength, List.take_left]
  · obtain ⟨rfl, -⟩ := List.cons.inj (hy.symm.trans hx)
    rw [hunique, List.getElem?_append_right (Nat.le_of_eq hlength), hlength, Nat.sub_self]
    rfl

/-- An id stays as it is if and only if it did not come up before. -/
theorem getElem?_uniqueIds {ids : List String} {i : Nat} {id : String} (h : ids[i]? = some id) :
    (uniqueIds ids)[i]? = some id ↔ id ∉ ids.take i := by
  -- stop in front of the id, when the ids before it are assigned
  let a : Assignment := (ids.take i).foldl Assignment.assign ⟨ids, [], []⟩
  have hmem : id ∈ ids := List.mem_of_getElem? h
  have hgiven : a.given = ids := Assignment.foldl_assign_given _ _
  have hbefore : id ∈ a.assigned ↔ id ∈ ids.take i := by
    rw [Assignment.mem_foldl_assign (List.take_subset i ids) hmem]
    simp
  have hid : id ∈ a.given := by rwa [hgiven]
  obtain ⟨x, hassign, hx, -⟩ := Assignment.assign_given_id hid
  rw [(uniqueIds_at h (a := a) rfl).2 x hassign, Option.some.injEq, hx, hbefore]

end BlockDoc
