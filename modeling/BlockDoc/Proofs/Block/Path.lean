import BlockDoc.Block.Walk

/-!
Lists of things with the paths at which they stand. `below` moves such a list
under a path and `indexed` joins the lists of the members of a sequence, each
under the index of its member. Walks over blocks and the record of a
compilation are all built from these two.
-/

namespace BlockDoc

namespace BlockPath

variable {α β γ : Type}

/-- Things moved below a path. -/
def below (path : BlockPath) (l : List (BlockPath × β)) : List (BlockPath × β) :=
  l.map fun x => (path ++ x.1, x.2)

/-- The things in the members of a sequence, each below the index of its
member, the first of which has a given index. -/
def indexed (f : α → List (BlockPath × β)) (index : Nat) (l : List α) : List (BlockPath × β) :=
  (l.zipIdx index).flatMap fun x => below [x.2] (f x.1)

/-! ### Moving below a path -/

@[simp] theorem below_nil (path : BlockPath) : below path ([] : List (BlockPath × β)) = [] := rfl

@[simp] theorem below_cons (path : BlockPath) (x : BlockPath × β) (l : List (BlockPath × β)) :
    below path (x :: l) = (path ++ x.1, x.2) :: below path l := rfl

@[simp] theorem below_append (path : BlockPath) (l l' : List (BlockPath × β)) :
    below path (l ++ l') = below path l ++ below path l' :=
  List.map_append

@[simp] theorem empty_below (l : List (BlockPath × β)) : below [] l = l := by
  simp [below]

theorem below_below (p q : BlockPath) (l : List (BlockPath × β)) :
    below p (below q l) = below (p ++ q) l := by
  simp [below]

theorem map_below (f : β → γ) (path : BlockPath) (l : List (BlockPath × β)) :
    (below path l).map (Prod.map id f) = below path (l.map (Prod.map id f)) := by
  simp [below]

theorem mem_below {path p : BlockPath} {x : β} {l : List (BlockPath × β)} :
    (p, x) ∈ below path l ↔ ∃ rest, p = path ++ rest ∧ (rest, x) ∈ l := by
  constructor
  · intro h
    obtain ⟨⟨rest, y⟩, hy, heq⟩ := List.mem_map.mp h
    obtain ⟨rfl, rfl⟩ := Prod.mk.inj heq
    exact ⟨rest, rfl, hy⟩
  · rintro ⟨rest, rfl, h⟩
    exact List.mem_map.mpr ⟨(rest, x), h, rfl⟩

/-! ### The members of a sequence -/

@[simp] theorem indexed_nil (f : α → List (BlockPath × β)) (index : Nat) :
    indexed f index [] = [] := rfl

@[simp] theorem indexed_cons (f : α → List (BlockPath × β)) (index : Nat) (x : α) (l : List α) :
    indexed f index (x :: l) = below [index] (f x) ++ indexed f (index + 1) l := rfl

theorem indexed_congr {f g : α → List (BlockPath × β)} {l : List α} (h : ∀ x ∈ l, f x = g x)
    (index : Nat) : indexed f index l = indexed g index l := by
  induction l generalizing index with
  | nil => rfl
  | cons x l ih =>
      rw [indexed_cons, indexed_cons, h x List.mem_cons_self,
        ih fun y hy => h y (List.mem_cons_of_mem x hy)]

theorem indexed_eq_nil {f : α → List (BlockPath × β)} {l : List α} (h : ∀ x ∈ l, f x = [])
    (index : Nat) : indexed f index l = [] := by
  induction l generalizing index with
  | nil => rfl
  | cons x l ih =>
      rw [indexed_cons, h x List.mem_cons_self, ih fun y hy => h y (List.mem_cons_of_mem x hy)]
      rfl

theorem indexed_map (f : β → List (BlockPath × γ)) (g : α → β) (index : Nat) (l : List α) :
    indexed f index (l.map g) = indexed (fun x => f (g x)) index l := by
  induction l generalizing index with
  | nil => rfl
  | cons x l ih => rw [List.map_cons, indexed_cons, indexed_cons, ih]

theorem map_indexed (g : β → γ) (f : α → List (BlockPath × β)) (index : Nat) (l : List α) :
    (indexed f index l).map (Prod.map id g) =
      indexed (fun x => (f x).map (Prod.map id g)) index l := by
  induction l generalizing index with
  | nil => rfl
  | cons x l ih => rw [indexed_cons, indexed_cons, List.map_append, map_below, ih]

theorem mem_indexed {f : α → List (BlockPath × β)} {index : Nat} {l : List α} {p : BlockPath}
    {y : β} :
    (p, y) ∈ indexed f index l ↔
      ∃ i x rest, p = (index + i) :: rest ∧ l[i]? = some x ∧ (rest, y) ∈ f x := by
  induction l generalizing index with
  | nil => simp
  | cons a l ih =>
      rw [indexed_cons, List.mem_append, mem_below, ih]
      constructor
      · rintro (⟨rest, rfl, h⟩ | ⟨i, x, rest, rfl, hx, h⟩)
        · exact ⟨0, a, rest, rfl, rfl, h⟩
        · exact ⟨i + 1, x, rest, by rw [Nat.add_right_comm, Nat.add_assoc], hx, h⟩
      · rintro ⟨i, x, rest, rfl, hx, h⟩
        cases i with
        | zero =>
            obtain rfl : a = x := by simpa using hx
            exact Or.inl ⟨rest, rfl, h⟩
        | succ i =>
            exact Or.inr ⟨i, x, rest, by rw [Nat.add_right_comm, Nat.add_assoc], by simpa using hx, h⟩

/-! ### Rearrangements -/

theorem below_perm (path : BlockPath) {l l' : List (BlockPath × β)} (h : l.Perm l') :
    (below path l).Perm (below path l') :=
  h.map _

theorem indexed_perm {f g : α → List (BlockPath × β)} (l : List α)
    (h : ∀ x, (f x).Perm (g x)) (index : Nat) : (indexed f index l).Perm (indexed g index l) := by
  induction l generalizing index with
  | nil => exact List.Perm.nil
  | cons x l ih => exact (below_perm [index] (h x)).append (ih (index + 1))

/-- Two things at each member, first one of all members and then the other. -/
theorem indexed_append_perm (f g : α → List (BlockPath × β)) (index : Nat) (l : List α) :
    (indexed f index l ++ indexed g index l).Perm
      (indexed (fun x => f x ++ g x) index l) := by
  induction l generalizing index with
  | nil => exact List.Perm.nil
  | cons x l ih =>
      rw [indexed_cons, indexed_cons, indexed_cons, below_append, List.append_assoc,
        List.append_assoc]
      refine List.Perm.append_left _ ?_
      refine List.Perm.trans ?_ ((ih (index + 1)).append_left _)
      rw [← List.append_assoc, ← List.append_assoc]
      exact List.perm_append_comm.append_right _

/-- A relation between paths holds all along a sequence if it holds inside each
member and between the things of any two members. -/
theorem pairwise_indexed {R : BlockPath → BlockPath → Prop} {f : α → List (BlockPath × β)}
    {l : List α} (h : ∀ x ∈ l, ∀ i, (below [i] (f x)).Pairwise fun p q => R p.1 q.1)
    (hacross : ∀ x ∈ l, ∀ y ∈ l, ∀ p ∈ f x, ∀ q ∈ f y, ∀ i j, i < j → R (i :: p.1) (j :: q.1))
    (index : Nat) : (indexed f index l).Pairwise fun p q => R p.1 q.1 := by
  induction l generalizing index with
  | nil => exact List.Pairwise.nil
  | cons a l ih =>
      rw [indexed_cons]
      refine List.pairwise_append.mpr ⟨h a List.mem_cons_self index, ih ?_ ?_ (index + 1), ?_⟩
      · exact fun x hx => h x (List.mem_cons_of_mem a hx)
      · exact fun x hx y hy => hacross x (List.mem_cons_of_mem a hx) y (List.mem_cons_of_mem a hy)
      · rintro ⟨p, x⟩ hp ⟨q, y⟩ hq
        obtain ⟨rest, rfl, hrest⟩ := mem_below.mp hp
        obtain ⟨i, b, rest', rfl, hb, hrest'⟩ := mem_indexed.mp hq
        exact hacross a List.mem_cons_self b (List.mem_cons_of_mem a (List.mem_of_getElem? hb))
          (rest, x) hrest (rest', y) hrest' index (index + 1 + i) (by omega)

/-! ### The order of paths

Paths are ordered like words: a block comes before what lies inside it, and
that before the next block. -/

/-- Every path is before the ones behind it in the list. -/
def Increasing (l : List (BlockPath × β)) : Prop :=
  l.Pairwise fun x y => x.1 < y.1

theorem increasing_below (path : BlockPath) {l : List (BlockPath × β)} (h : Increasing l) :
    Increasing (below path l) :=
  List.pairwise_map.mpr (h.imp fun hxy => List.append_left_lt hxy)

theorem increasing_indexed {f : α → List (BlockPath × β)} {l : List α}
    (h : ∀ x ∈ l, Increasing (f x)) (index : Nat) : Increasing (indexed f index l) := by
  refine pairwise_indexed (fun x hx i => increasing_below [i] (h x hx)) ?_ index
  intro x _ y _ p _ q _ i j hij
  exact List.Lex.rel hij

theorem increasing_cons_indexed (x : β) {f : α → List (BlockPath × β)} {l : List α}
    (h : ∀ x ∈ l, Increasing (f x)) (index : Nat) :
    Increasing (([], x) :: indexed f index l) := by
  refine List.pairwise_cons.mpr ⟨?_, increasing_indexed h index⟩
  rintro ⟨q, y⟩ hq
  obtain ⟨i, -, rest, rfl, -⟩ := mem_indexed.mp hq
  exact List.nil_lt_cons _ _

/-- No two things of an increasing list stand at the same path. -/
theorem Increasing.nodup {l : List (BlockPath × β)} (h : Increasing l) :
    (l.map (·.1)).Nodup := by
  refine List.pairwise_map.mpr (h.imp ?_)
  intro x y hxy heq
  exact List.lt_irrefl _ (heq ▸ hxy)

/-- In an increasing list a thing stands behind the things with lesser paths. -/
theorem Increasing.mem_take_iff {l : List (BlockPath × β)} (h : Increasing l) {i : Nat}
    {p q : BlockPath} {x y : β} (hx : l[i]? = some (p, x)) :
    (q, y) ∈ l.take i ↔ (q, y) ∈ l ∧ q < p := by
  obtain ⟨hi, hget⟩ := List.getElem?_eq_some_iff.mp hx
  have hsplit : l.take i ++ (p, x) :: l.drop (i + 1) = l := by
    rw [← hget, List.getElem_cons_drop, List.take_append_drop]
  rw [Increasing, ← hsplit] at h
  obtain ⟨-, hbehind, hbefore⟩ := List.pairwise_append.mp h
  constructor
  · intro hy
    exact ⟨List.mem_of_mem_take hy, hbefore _ hy _ List.mem_cons_self⟩
  · rintro ⟨hy, hlt⟩
    rw [← hsplit] at hy
    rcases List.mem_append.mp hy with hy | hy
    · exact hy
    · rcases List.mem_cons.mp hy with heq | hy
      · obtain ⟨rfl, -⟩ := Prod.mk.inj heq
        exact absurd hlt (List.lt_irrefl _)
      · exact absurd hlt (List.lt_asymm ((List.pairwise_cons.mp hbehind).1 _ hy))

end BlockPath

end BlockDoc
