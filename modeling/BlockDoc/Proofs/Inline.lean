import BlockDoc.FrontMatter
import BlockDoc.Translation
import Mathlib.Data.List.Basic

/-!
The links of a line of text. All elements are walked through, each in front of
those inside it, and the description of an image counts as inside it. The links
are found among the elements that stand in no description, in the order of the
walk. So all links are found exactly if no description holds one.
-/

namespace BlockDoc.Inline

/-! ### Walks -/

/-- The elements directly inside an element. Inside an image stands its description. -/
def children : Inline → List Inline
  | strong xs | emphasis xs | delete xs | link _ _ xs | image _ _ xs => xs
  | _ => []

def isImage : Inline → Bool
  | image _ _ _ => true
  | _ => false

/-- The link that an element is, with its plain text. -/
def link? : Inline → Option (String × String)
  | link url _ xs => some (url, plainText xs)
  | _ => none

mutual

/-- An element and, if it is entered, the elements inside it. -/
def walkOf (enters : Inline → Bool) (x : Inline) : List Inline :=
  x :: match x with
    | strong xs | emphasis xs | delete xs | link _ _ xs | image _ _ xs =>
      if enters x then walk enters xs else []
    | _ => []

/-- The elements of a line of text at all depths, each in front of those inside it. -/
def walk (enters : Inline → Bool) : List Inline → List Inline
  | [] => []
  | x :: xs => walkOf enters x ++ walk enters xs

end

/-- All elements. -/
def nodes (xs : List Inline) : List Inline := walk (fun _ => true) xs

/-- The elements that stand in no description of an image. -/
def shown (xs : List Inline) : List Inline := walk (fun x => !x.isImage) xs

theorem walkOf_eq (enters : Inline → Bool) (x : Inline) :
    walkOf enters x = x :: if enters x then walk enters x.children else [] := by
  cases x <;> simp [walkOf, children, walk]

mutual

theorem inlines_induction {motive : List Inline → Prop} (nil : motive [])
    (cons : ∀ x xs, motive x.children → motive xs → motive (x :: xs)) :
    ∀ xs, motive xs
  | [] => nil
  | x :: xs => cons x xs (children_induction nil cons x) (inlines_induction nil cons xs)

theorem children_induction {motive : List Inline → Prop} (nil : motive [])
    (cons : ∀ x xs, motive x.children → motive xs → motive (x :: xs)) :
    ∀ x : Inline, motive x.children
  | strong xs | emphasis xs | delete xs | link _ _ xs | image _ _ xs =>
    inlines_induction nil cons xs
  | text _ | code _ | html _ | softBreak | hardBreak => nil

end

theorem nodes_cons (x : Inline) (xs : List Inline) :
    nodes (x :: xs) = x :: (nodes x.children ++ nodes xs) := by
  rw [nodes, walk, walkOf_eq, if_pos rfl, List.cons_append, nodes, nodes]

theorem shown_cons (x : Inline) (xs : List Inline) :
    shown (x :: xs) = x :: ((if x.isImage then [] else shown x.children) ++ shown xs) := by
  rw [shown, walk, walkOf_eq, List.cons_append, shown, shown]
  cases x.isImage <;> rfl

theorem nodes_children_subset {x : Inline} {xs : List Inline} (h : x ∈ nodes xs) :
    nodes x.children ⊆ nodes xs := by
  induction xs using inlines_induction with
  | nil => exact absurd h List.not_mem_nil
  | cons y xs hchildren hxs =>
      rw [nodes_cons] at h ⊢
      rcases List.mem_cons.mp h with rfl | h
      · exact fun z hz => List.mem_cons_of_mem _ (List.mem_append_left _ hz)
      · rcases List.mem_append.mp h with h | h
        · exact fun z hz => List.mem_cons_of_mem _ (List.mem_append_left _ (hchildren h hz))
        · exact fun z hz => List.mem_cons_of_mem _ (List.mem_append_right _ (hxs h hz))

/-! ### Links -/

theorem links_cons (x : Inline) (xs : List Inline) :
    links (x :: xs) =
      x.link?.toList ++ (if x.isImage then [] else links x.children) ++ links xs := by
  rw [links]
  cases x <;> simp [linksOf, link?, isImage, children, links]

theorem filterMap_link?_cons (x : Inline) (xs : List Inline) :
    (x :: xs).filterMap link? = x.link?.toList ++ xs.filterMap link? := by
  rw [List.filterMap_cons]
  cases x.link? <;> rfl

/-- Of all elements the links, each with its plain text. -/
def allLinks (xs : List Inline) : List (String × String) := (nodes xs).filterMap link?

theorem allLinks_cons (x : Inline) (xs : List Inline) :
    allLinks (x :: xs) = x.link?.toList ++ allLinks x.children ++ allLinks xs := by
  rw [allLinks, nodes_cons, filterMap_link?_cons, List.filterMap_append, List.append_assoc]
  rfl

/-- The links that are found stand in no description, and come in the order of the walk. -/
theorem links_eq_filterMap_shown (xs : List Inline) : links xs = (shown xs).filterMap link? := by
  induction xs using inlines_induction with
  | nil => rfl
  | cons x xs hchildren hxs =>
      rw [links_cons, shown_cons, filterMap_link?_cons, List.filterMap_append, ← hxs,
        List.append_assoc]
      congr 2
      split_ifs
      · rfl
      · exact hchildren

theorem links_sublist_allLinks (xs : List Inline) : (links xs).Sublist (allLinks xs) := by
  induction xs using inlines_induction with
  | nil => exact List.Sublist.refl _
  | cons x xs hchildren hxs =>
      rw [links_cons, allLinks_cons]
      refine ((List.Sublist.refl _).append ?_).append hxs
      split_ifs
      · exact List.nil_sublist _
      · exact hchildren

theorem links_cons_eq_allLinks_iff (x : Inline) (xs : List Inline) :
    links (x :: xs) = allLinks (x :: xs) ↔
      (if x.isImage then [] else links x.children) = allLinks x.children ∧
        links xs = allLinks xs := by
  have hinside : (if x.isImage then [] else links x.children).Sublist (allLinks x.children) := by
    split_ifs
    · exact List.nil_sublist _
    · exact links_sublist_allLinks x.children
  have hbehind := links_sublist_allLinks xs
  rw [links_cons, allLinks_cons, List.append_assoc, List.append_assoc, List.append_cancel_left_eq]
  constructor
  · intro h
    have hlength := congrArg List.length h
    have hle := hinside.length_le
    have hle' := hbehind.length_le
    simp only [List.length_append] at hlength
    exact ⟨hinside.eq_of_length (by omega), hbehind.eq_of_length (by omega)⟩
  · rintro ⟨h, h'⟩
    rw [h, h']

/-- A description holds no link if the description it stands in holds none. -/
theorem allLinks_children_eq_nil {x : Inline} {xs : List Inline} (h : x ∈ nodes xs)
    (hxs : allLinks xs = []) : allLinks x.children = [] := by
  rw [allLinks, List.filterMap_eq_nil_iff] at hxs ⊢
  exact fun y hy => hxs y (nodes_children_subset h hy)

theorem links_eq_allLinks_iff (xs : List Inline) :
    links xs = allLinks xs ↔ ∀ x ∈ nodes xs, x.isImage → allLinks x.children = [] := by
  induction xs using inlines_induction with
  | nil => simp [links, allLinks, nodes, walk]
  | cons x xs hchildren hxs =>
      rw [links_cons_eq_allLinks_iff, nodes_cons, List.forall_mem_cons, List.forall_mem_append,
        ← hxs, ← and_assoc]
      refine and_congr_left' ?_
      cases himage : x.isImage with
      | true =>
          rw [if_pos rfl]
          constructor
          · exact fun h => ⟨fun _ => h.symm, fun y hy _ => allLinks_children_eq_nil hy h.symm⟩
          · exact fun h => (h.1 rfl).symm
      | false =>
          rw [if_neg Bool.false_ne_true, hchildren]
          simp

/-- The links that are found are those outside the descriptions of images, in the order of the walk.
They are all links exactly if no image at any depth has a link in its description. -/
theorem links_visited_iff (xs : List Inline) :
    links xs = (shown xs).filterMap link? ∧
      (links xs = (nodes xs).filterMap link? ↔
        ∀ url title alt, image url title alt ∈ nodes xs → ∀ y ∈ nodes alt, y.link? = none) := by
  refine ⟨links_eq_filterMap_shown xs, (links_eq_allLinks_iff xs).trans ?_⟩
  constructor
  · intro h url title alt himage
    exact List.filterMap_eq_nil_iff.mp (h _ himage rfl)
  · intro h x hx himage
    cases x with
    | image url title alt => exact List.filterMap_eq_nil_iff.mpr (h url title alt hx)
    | _ => exact absurd himage Bool.false_ne_true

/-- A line with a link in the description of an image. -/
def describedLink : List Inline :=
  [text "a ", image "i.png" "" [link "#glyph:x" "" [text "b"]]]

/-- The link in the description is not found, though its text belongs to the plain text; nor is it
where the line is read from a text. -/
theorem describedLink_links :
    plainText describedLink = "a b" ∧ links describedLink = [] ∧
      (nodes describedLink).filterMap link? = [("#glyph:x", "b")] ∧
      ((Node.parse "a ![[b](#glyph:x)](i.png)\n").map quoteText).map
        (fun xs => (plainText xs, links xs, (nodes xs).filterMap link?)) =
        [("a b", [], [("#glyph:x", "b")])] := by
  decide +kernel

end BlockDoc.Inline
