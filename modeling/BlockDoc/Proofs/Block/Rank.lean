import BlockDoc.Proofs.Block.FinalIds
import BlockDoc.Proofs.Block.LeastNumber

/-!
Ids of one length. The number that a repeated id gets is then the number of
equal ids in front of it: a numbered id is longer than a given one, so it is
neither given nor the numbered form of another id. Ids that are taken out of a
list or put into it leave the numbers of all other ids as they are, and so do
blocks that are taken out of a document, put into it or moved.
-/

namespace BlockDoc

/-- The form of the id of a block before equal ids are told apart: twelve
hexadecimal digits behind the sign of a block. -/
def IsProvisionalId (id : String) : Prop :=
  id.length = 14 ∧ "b-".toList <+: id.toList ∧
    ∀ c ∈ id.toList.drop 2, c ∈ "0123456789abcdefABCDEF".toList

instance (id : String) : Decidable (IsProvisionalId id) :=
  -- The digits of the id are looked at, not all characters.
  haveI : Decidable (∀ c ∈ id.toList.drop 2, c ∈ "0123456789abcdefABCDEF".toList) :=
    List.decidableBAll _ _
  inferInstanceAs (Decidable (_ ∧ _ ∧ _))

/-! ### Ranks -/

/-- An id with the number of equal ids in front of it; the first one has no number. -/
def ranked (id : String) : Nat → String
  | 0 => id
  | n + 1 => Assignment.numbered id (n + 1)

theorem ranked_of_pos (id : String) {n : Nat} (h : 1 ≤ n) :
    ranked id n = id ++ "-" ++ toString n := by
  cases n with
  | zero => exact absurd h (by decide)
  | succ n => rfl

/-- Ids with the numbers of equal ids in front of them, behind ids that were seen already. -/
def rankedFrom (seen : List String) : List String → List String
  | [] => []
  | id :: rest => ranked id (seen.count id) :: rankedFrom (id :: seen) rest

theorem rankedFrom_length (seen ids : List String) :
    (rankedFrom seen ids).length = ids.length := by
  induction ids generalizing seen with
  | nil => rfl
  | cons id rest ih => rw [rankedFrom, List.length_cons, ih, List.length_cons]

theorem getElem?_rankedFrom (seen ids : List String) (i : Nat) :
    (rankedFrom seen ids)[i]? =
      ids[i]?.map fun id => ranked id ((ids.take i).count id + seen.count id) := by
  induction ids generalizing seen i with
  | nil => rfl
  | cons id rest ih =>
      cases i with
      | zero => simp [rankedFrom]
      | succ i =>
          rw [rankedFrom, List.getElem?_cons_succ, List.getElem?_cons_succ, ih]
          cases hnext : rest[i]? with
          | none => rfl
          | some next =>
              have hcount : (rest.take i).count next + (id :: seen).count next =
                  ((id :: rest).take (i + 1)).count next + seen.count next := by
                rw [List.take_succ_cons, List.count_cons, List.count_cons]
                omega
              rw [Option.map_some, Option.map_some, hcount]

/-- What stands in a list counts the equal ids in front of it. -/
theorem getElem?_ranked {ids : List String} {i : Nat} {id : String} (h : ids[i]? = some id) :
    (rankedFrom [] ids)[i]? = some (ranked id ((ids.take i).count id)) := by
  rw [getElem?_rankedFrom, h]
  simp

/-- Every number below the rank of an id is the rank of an equal one in front of it. -/
theorem exists_rank {ids : List String} {id : String} {n i : Nat}
    (h : n < (ids.take i).count id) :
    ∃ j < i, ids[j]? = some id ∧ (ids.take j).count id = n := by
  induction i with
  | zero => simp at h
  | succ i ih =>
      by_cases hbefore : n < (ids.take i).count id
      · obtain ⟨j, hj, hfound⟩ := ih hbefore
        exact ⟨j, Nat.lt_succ_of_lt hj, hfound⟩
      · rw [List.take_add_one, List.count_append] at h
        cases hid : ids[i]? with
        | none =>
            rw [hid, Option.toList_none, List.count_nil] at h
            exact absurd h hbefore
        | some id' =>
            have heq : id' = id := by
              by_contra hne
              rw [hid, Option.toList_some, List.count_singleton, if_neg (by simpa using hne)] at h
              exact hbefore h
            subst heq
            refine ⟨i, Nat.lt_succ_self i, hid, ?_⟩
            rw [hid, Option.toList_some, List.count_singleton_self] at h
            omega

/-- The rank of an id is more than the ranks of equal ones in front of it. -/
theorem count_take_lt {ids : List String} {id : String} {i j : Nat} (hji : j < i)
    (hj : ids[j]? = some id) : (ids.take j).count id < (ids.take i).count id := by
  have hstep : (ids.take (j + 1)).count id = (ids.take j).count id + 1 := by
    rw [List.take_add_one, hj, Option.toList_some, List.count_append, List.count_singleton_self]
  have hle : (ids.take (j + 1)).count id ≤ (ids.take i).count id :=
    (List.take_prefix_take_left hji).sublist.count_le id
  omega

section OneLength

variable {length : Nat} {id id' : String} {ids : List String}

theorem length_lt_numbered (id : String) (n : Nat) :
    id.length < (Assignment.numbered id n).length := by
  rw [Assignment.numbered, String.length_append, String.length_append]
  have hhyphen : "-".length = 1 := rfl
  omega

/-- Numbered ids of one length are equal only if the ids and the numbers are. -/
theorem numbered_inj (hlength : id.length = id'.length) {m n : Nat}
    (h : Assignment.numbered id m = Assignment.numbered id' n) : id = id' ∧ m = n := by
  have hchars := congrArg String.toList h
  simp only [Assignment.numbered, String.toList_append, List.append_assoc] at hchars
  have hid : id = id' := String.toList_inj.mp (List.append_inj hchars hlength).1
  subst hid
  exact ⟨rfl, Assignment.numbered_injective id h⟩

theorem ranked_eq_numbered (hlength : id.length = id'.length) {m n : Nat}
    (h : ranked id m = Assignment.numbered id' n) : id = id' ∧ m = n := by
  cases m with
  | zero =>
      have hlt := length_lt_numbered id' n
      rw [← h, ranked] at hlt
      omega
  | succ m => exact numbered_inj hlength h

/-- Ids of one length get the ranks as their numbers. -/
theorem numberedByRule_rankedFrom (h : ∀ id ∈ ids, id.length = length) :
    NumberedByRule ids (rankedFrom [] ids) := by
  refine ⟨rankedFrom_length [] ids, fun i id hid hfirst => ?_, fun i id hid hbefore => ?_⟩
  · rw [getElem?_ranked hid, List.count_eq_zero.mpr hfirst, ranked]
  · have hpos : 1 ≤ (ids.take i).count id := List.count_pos_iff.mpr hbefore
    have hlength : id.length = length := h id (List.mem_of_getElem? hid)
    refine ⟨(ids.take i).count id, ?_, ⟨hpos, fun hgiven => ?_, fun hfront => ?_⟩, ?_⟩
    · rw [getElem?_ranked hid, ranked_of_pos id hpos]
    · have hlt := length_lt_numbered id ((ids.take i).count id)
      rw [hlength] at hlt
      exact absurd (h _ hgiven) (Nat.ne_of_gt hlt)
    · -- the same number further in front would be the rank of an equal id there
      obtain ⟨j, hj⟩ := List.mem_iff_getElem?.mp hfront
      have hji : j < i := by
        have hlen := (List.getElem?_eq_some_iff.mp hj).1
        rw [List.length_take] at hlen
        omega
      rw [List.getElem?_take_of_lt hji, getElem?_rankedFrom] at hj
      obtain ⟨id', hid', heq⟩ := Option.map_eq_some_iff.mp hj
      have hlength' : id'.length = id.length := by
        rw [hlength, h id' (List.mem_of_getElem? hid')]
      obtain ⟨rfl, hcount⟩ := ranked_eq_numbered hlength' heq
      have hlt := count_take_lt hji hid'
      rw [List.count_nil] at hcount
      omega
    · rintro n ⟨hn, -, hfree⟩
      by_contra hlt
      obtain ⟨j, hji, hj, hrank⟩ := exists_rank (Nat.not_le.mp hlt)
      refine hfree (List.mem_iff_getElem?.mpr ⟨j, ?_⟩)
      rw [List.getElem?_take_of_lt hji, getElem?_ranked hj, hrank, ranked_of_pos id hn]

theorem uniqueIds_eq_rankedFrom (h : ∀ id ∈ ids, id.length = length) :
    uniqueIds ids = rankedFrom [] ids :=
  (numberedByRule_uniqueIds ids).unique (numberedByRule_rankedFrom h)

end OneLength

/-! ### Taking ids out -/

section TakingOut

variable {α : Type} (f : α → String) (p : String → Bool)

/-- Things whose ids have a property count nothing but each other. -/
theorem filter_zip_rankedFrom (seen : List String) (xs : List α) :
    (xs.zip (rankedFrom seen (xs.map f))).filter (fun x => p (f x.1)) =
      (xs.filter fun x => p (f x)).zip
        (rankedFrom (seen.filter p) ((xs.filter fun x => p (f x)).map f)) := by
  induction xs generalizing seen with
  | nil => rfl
  | cons x rest ih =>
      have hrest := ih (f x :: seen)
      rw [List.map_cons, rankedFrom, List.zip_cons_cons]
      by_cases hx : p (f x)
      · rw [List.filter_cons_of_pos hx] at hrest
        have hxs : (x :: rest).filter (fun x => p (f x)) = x :: rest.filter fun x => p (f x) :=
          List.filter_cons_of_pos hx
        rw [List.filter_cons_of_pos (by exact hx), hxs, hrest, List.map_cons, rankedFrom,
          List.zip_cons_cons, List.count_filter hx]
      · rw [List.filter_cons_of_neg hx] at hrest
        have hxs : (x :: rest).filter (fun x => p (f x)) = rest.filter fun x => p (f x) :=
          List.filter_cons_of_neg hx
        rw [List.filter_cons_of_neg (by exact hx), hxs, hrest]

/-- Things that two lists have in common get the same final ids if no other thing has an id of
theirs. -/
theorem filter_zip_uniqueIds {length : Nat} {xs xs' : List α}
    (h : ∀ x ∈ xs, (f x).length = length) (h' : ∀ x ∈ xs', (f x).length = length)
    (hsame : xs.filter (fun x => p (f x)) = xs'.filter fun x => p (f x)) :
    (xs.zip (uniqueIds (xs.map f))).filter (fun x => p (f x.1)) =
      (xs'.zip (uniqueIds (xs'.map f))).filter fun x => p (f x.1) := by
  rw [uniqueIds_eq_rankedFrom (List.forall_mem_map.mpr h),
    uniqueIds_eq_rankedFrom (List.forall_mem_map.mpr h'), filter_zip_rankedFrom,
    filter_zip_rankedFrom, hsame]

end TakingOut

/-! ### Edits of documents -/

/-- The blocks directly inside a block. -/
def Block.inside (b : Block) : List Block := b.sections.flatMap Section.blocks

theorem allBlocks_append (bs bs' : List Block) :
    allBlocks (bs ++ bs') = allBlocks bs ++ allBlocks bs' := by
  induction bs with
  | nil => rfl
  | cons b bs ih => rw [List.cons_append, allBlocks, allBlocks, ih, List.append_assoc]

theorem walkSections_eq_allBlocks (ss : List (Section Block)) :
    walkSections ss = allBlocks (ss.flatMap Section.blocks) := by
  induction ss with
  | nil => rfl
  | cons s rest ih => rw [walkSections_cons, List.flatMap_cons, allBlocks_append, ih]

theorem blockIds_cons (b : Block) (bs : List Block) :
    blockIds (b :: bs) = b.id :: (blockIds b.inside ++ blockIds bs) := by
  rw [blockIds, allBlocks, Block.walk_eq, walkSections_eq_allBlocks, List.cons_append,
    List.map_cons, List.map_append]
  rfl

/-- Two documents of which one comes from the other when blocks with certain ids, with everything
inside them, are put in, taken out or moved, at any depth. All other blocks keep their ids and
their order. -/
inductive Edited (moved : String → Bool) : List Block → List Block → Prop where
  | nil : Edited moved [] []
  | keep {b b' : Block} {bs bs' : List Block} (id : b.id = b'.id) (other : moved b.id = false)
    (inside : Edited moved b.inside b'.inside) (rest : Edited moved bs bs') :
    Edited moved (b :: bs) (b' :: bs')
  | remove {b : Block} {bs bs' : List Block} (ids : ∀ id ∈ blockIds [b], moved id = true)
    (rest : Edited moved bs bs') : Edited moved (b :: bs) bs'
  | insert {b : Block} {bs bs' : List Block} (ids : ∀ id ∈ blockIds [b], moved id = true)
    (rest : Edited moved bs bs') : Edited moved bs (b :: bs')

theorem filter_blockIds_of_moved {moved : String → Bool} {b : Block}
    (h : ∀ id ∈ blockIds [b], moved id = true) (bs : List Block) :
    (blockIds (b :: bs)).filter (!moved ·) = (blockIds bs).filter (!moved ·) := by
  have hsplit : blockIds (b :: bs) = blockIds [b] ++ blockIds bs := by
    rw [blockIds_cons, blockIds_cons]
    simp [blockIds, allBlocks]
  have hnone : (blockIds [b]).filter (!moved ·) = [] :=
    List.filter_eq_nil_iff.mpr fun id hid => by simp [h id hid]
  rw [hsplit, List.filter_append, hnone, List.nil_append]

theorem Edited.filter_blockIds {moved : String → Bool} {bs bs' : List Block}
    (h : Edited moved bs bs') :
    (blockIds bs).filter (!moved ·) = (blockIds bs').filter (!moved ·) := by
  induction h with
  | nil => rfl
  | keep id other _ _ hinside hrest =>
      rw [blockIds_cons, blockIds_cons, ← id]
      simp [other, hinside, hrest]
  | remove ids _ ih => rw [filter_blockIds_of_moved ids, ih]
  | insert ids _ ih => rw [filter_blockIds_of_moved ids, ih]

/-- The ids of the blocks that an edit leaves alone, before and after they are final. -/
def otherIds (moved : String → Bool) (bs : List Block) : List (String × String) :=
  ((blockIds bs).zip (blockIds (finalizeIds bs).1)).filter fun x => !moved x.1

/-- An edit changes the final ids of no other blocks. -/
theorem Edited.otherIds_eq {length : Nat} {moved : String → Bool} {bs bs' : List Block}
    (h : Edited moved bs bs') (hlength : ∀ id ∈ blockIds bs, id.length = length)
    (hlength' : ∀ id ∈ blockIds bs', id.length = length) :
    otherIds moved bs = otherIds moved bs' := by
  have hsame := filter_zip_uniqueIds id (!moved ·) hlength hlength' h.filter_blockIds
  rw [List.map_id, List.map_id] at hsame
  rw [otherIds, otherIds, blockIds_finalizeIds, blockIds_finalizeIds]
  exact hsame

/-- Each block of a document with ids of one length gets the number of equal ids in front of it, and
stays where it is. -/
theorem finalizeIds_ranked {length : Nat} {bs : List Block}
    (h : ∀ id ∈ blockIds bs, id.length = length) {i : Nat} {p : BlockPath} {b : Block}
    (hb : (locatedBlocks bs)[i]? = some (p, b)) :
    ∃ c, (locatedBlocks (finalizeIds bs).1)[i]? = some (p, c) ∧ c.withoutId = b.withoutId ∧
      c.id = ranked b.id (((blockIds bs).take i).count b.id) := by
  have hplace := congrArg (fun l => l[i]?) (locatedBlocks_finalizeIds bs)
  simp only [List.getElem?_map, hb, Option.map_some, Option.map_eq_some_iff] at hplace
  obtain ⟨⟨q, c⟩, hc, heq⟩ := hplace
  obtain ⟨rfl, hsame⟩ := Prod.mk.inj heq
  refine ⟨c, hc, hsame, ?_⟩
  have hbefore : (blockIds bs)[i]? = some b.id := by simp [← blockIds_eq, hb]
  have hfinal : (blockIds (finalizeIds bs).1)[i]? = some c.id := by simp [← blockIds_eq, hc]
  rw [blockIds_finalizeIds, uniqueIds_eq_rankedFrom h, getElem?_ranked hbefore] at hfinal
  exact (Option.some.inj hfinal).symm

end BlockDoc
