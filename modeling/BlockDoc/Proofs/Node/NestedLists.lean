import BlockDoc.Proofs.Node.Items
import Mathlib.Algebra.Order.Group.Multiset
import Mathlib.Data.List.Flatten
import Mathlib.Tactic.Abel

/-!
Lists within items. A list item in the tree has one place for a list below it,
and each list that stands in the item is put there, so the last one takes the
place of the others. The items of the others are lost, and their links with
them; of what is written within the nesting limit nothing else is lost. The
account of the written items is a permutation: those that are kept, and for each
kept item those that were overwritten in it.
-/

namespace BlockDoc.Node

open Markdown (Event)

/-! ### Written items -/

/-- All items within trees. -/
def writtenItems (place : Place) (room : Nat) (ts : List EventTree) : List WrittenItem :=
  itemsWithin (fun _ _ _ => true) place room ts

/-- The items within the lists in an item behind which another list stands. -/
def overwrittenItems (room : Nat) : List EventTree → List WrittenItem
  | [] => []
  | .element (.list _) _ children _ :: ts =>
    (if ts.any EventTree.isList then writtenItems .list (room - 1) children else []) ++
      overwrittenItems room ts
  | _ :: ts => overwrittenItems room ts

/-- The items within the lists of this item behind which another list of the item stands. -/
def WrittenItem.overwritten (w : WrittenItem) : List WrittenItem :=
  overwrittenItems w.room w.children

theorem ite_nil_sublist {α : Type} {c : Prop} [Decidable c] {xs ys : List α}
    (h : xs.Sublist ys) : (if c then xs else []).Sublist ys := by
  split
  · exact h
  · exact ys.nil_sublist

theorem keptItems_sublist (place : Place) (room : Nat) (ts : List EventTree) :
    (keptItems place room ts).Sublist (writtenItems place room ts) := by
  induction ts using trees_induction generalizing place room with
  | nil => exact List.Sublist.refl []
  | single e alone span ts ih => exact ih place room
  | element tag span children stop ts hchildren hts =>
      refine List.Sublist.append ?_ (hts place room)
      obtain hnone | ⟨inner, -, -, hinner⟩ | ⟨-, hitem⟩ | ⟨-, hthrough⟩ :=
        itemsWithin_element place tag span stop children
      · rw [hnone, hnone]
      · rw [hinner, hinner]
        exact ite_nil_sublist (hchildren inner (room - 1))
      · rw [hitem, hitem]
        exact (hchildren .item room).cons_cons _
      · rw [hthrough, hthrough]
        exact hchildren .list room

/-- Written items are those that are kept, those that are overwritten in a kept item, and others
that are lost. -/
def Accounts (written kept lost : List WrittenItem) : Prop :=
  written.Perm (kept ++ (kept.flatMap WrittenItem.overwritten ++ lost))

namespace Accounts

variable {written written' kept kept' lost lost' : List WrittenItem}

theorem nil : Accounts [] [] [] := List.Perm.refl []

theorem allLost : Accounts lost [] lost := List.Perm.refl lost

theorem append (h : Accounts written kept lost) (h' : Accounts written' kept' lost') :
    Accounts (written ++ written') (kept ++ kept') (lost ++ lost') := by
  unfold Accounts at h h' ⊢
  rw [← Multiset.coe_eq_coe] at h h' ⊢
  simp only [← Multiset.coe_add, List.flatMap_append] at h h' ⊢
  rw [h, h']
  abel

theorem append_kept (h : Accounts written kept []) (h' : Accounts written' kept' lost') :
    Accounts (written ++ written') (kept ++ kept') lost' :=
  h.append h'

/-- A kept item accounts for what is lost in it. -/
theorem cons {w : WrittenItem} (h : Accounts written kept w.overwritten) :
    Accounts (w :: written) (w :: kept) [] := by
  unfold Accounts at h ⊢
  rw [List.append_nil, List.flatMap_cons, List.cons_append]
  exact (h.trans (List.perm_append_comm.append_left kept)).cons w

end Accounts

/-- The items that are lost in an item itself. -/
def lostItems : Place → Nat → List EventTree → List WrittenItem
  | .item, room, ts => overwrittenItems room ts
  | _, _, _ => []

theorem lostItems_eq_nil {place : Place} (h : place ≠ .item) (room : Nat) (ts : List EventTree) :
    lostItems place room ts = [] := by
  cases place with
  | item => exact absurd rfl h
  | _ => rfl

theorem exists_room {children ts : List EventTree} {room : Nat}
    (h : max (treesNesting children + 1) (treesNesting ts) ≤ room) :
    ∃ room', room = room' + 1 ∧ treesNesting children ≤ room' :=
  ⟨room - 1, by omega, by omega⟩

/-- A list within an item is kept or overwritten. -/
theorem accounts_itemList {children ts : List EventTree} {room : Nat}
    (hchildren : Accounts (writtenItems .list room children) (keptItems .list room children) [])
    (hbehind : Accounts (writtenItems .item (room + 1) ts) (keptItems .item (room + 1) ts)
      (lostItems .item (room + 1) ts)) (first : Option Nat) (span stop : Span) :
    Accounts (writtenItems .item (room + 1) (.element (.list first) span children stop :: ts))
      (keptItems .item (room + 1) (.element (.list first) span children stop :: ts))
      (lostItems .item (room + 1) (.element (.list first) span children stop :: ts)) := by
  rw [keptItems_cons, itemsWithin_item_list, lostItems, overwrittenItems]
  cases hany : ts.any EventTree.isList with
  | true =>
      rw [keeps_item_of_list_behind hany, if_neg Bool.false_ne_true, if_pos rfl]
      exact Accounts.allLost.append hbehind
  | false =>
      have hkeeps : keeps .item (room + 1) ts = true := by simp [keeps, hany]
      rw [hkeeps, if_pos rfl, if_neg Bool.false_ne_true]
      exact hchildren.append_kept hbehind

theorem accounts_items (place : Place) (ts : List EventTree) {room : Nat}
    (h : treesNesting ts ≤ room) :
    Accounts (writtenItems place room ts) (keptItems place room ts) (lostItems place room ts) := by
  induction ts using trees_induction generalizing place room with
  | nil => cases place <;> exact .nil
  | single e alone span ts ih =>
      have hts := ih place ((Nat.le_max_right 0 _).trans h)
      cases place <;> exact hts
  | element tag span children stop ts hwithin hbehind =>
      rw [treesNesting, EventTree.nesting] at h
      have hts := hbehind place ((Nat.le_max_right _ _).trans h)
      have hroom : treesNesting children ≤ room := by omega
      -- In an item a list may be overwritten by one behind it; elsewhere nothing is lost.
      by_cases hplace : place = .item
      · subst hplace
        cases tag with
        | list first =>
            obtain ⟨room, rfl, hless⟩ := exists_room h
            exact accounts_itemList (hwithin .list hless) hts first span stop
        | _ => exact hts
      · rw [lostItems_eq_nil hplace] at hts ⊢
        refine .append_kept ?_ hts
        obtain hnone | ⟨inner, hplace', hcounts, hinner⟩ | ⟨-, hitem⟩ | ⟨-, hthrough⟩ :=
          itemsWithin_element place tag span stop children
        · rw [hnone, hnone]
          exact .nil
        · rw [if_pos hcounts] at h
          obtain ⟨room, rfl, hless⟩ := exists_room h
          rw [hinner, hinner, keeps_succ_of_ne_item hplace, if_pos rfl, if_pos rfl]
          rw [← lostItems_eq_nil hplace' room children]
          exact hwithin inner hless
        · rw [hitem, hitem]
          exact (hwithin .item hroom).cons
        · rw [hthrough, hthrough]
          exact hwithin .list hroom

/-! ### Lists in front of the last one -/

/-- A list holds items exactly when some are read of it. -/
theorem writtenItems_list_eq_nil_iff (ts : List EventTree) (room : Nat) :
    writtenItems .list room ts = [] ↔ readItems room ts = [] := by
  induction ts using trees_induction with
  | nil => exact iff_of_true rfl rfl
  | single e alone span ts ih => exact ih
  | element tag span children stop ts hchildren hts =>
      rw [writtenItems, itemsWithin, readItems, List.append_eq_nil_iff, List.append_eq_nil_iff]
      refine and_congr ?_ hts
      cases tag with
      | item => exact iff_of_false (List.cons_ne_nil _ _) (List.cons_ne_nil _ _)
      | _ => exact hchildren

/-- Nothing is overwritten in an item exactly when the lists in front of the last one are empty. -/
theorem overwrittenItems_eq_nil_iff (ts : List EventTree) {room : Nat}
    (h : treesNesting ts ≤ room) :
    overwrittenItems room ts = [] ↔ ∀ items ∈ (readLists room ts).dropLast, items = [] := by
  induction ts using trees_induction with
  | nil => simp [overwrittenItems, readLists]
  | single e alone span ts ih => exact ih ((Nat.le_max_right 0 _).trans h)
  | element tag span children stop ts _ ih =>
      rw [treesNesting, EventTree.nesting] at h
      have hrest := ih ((Nat.le_max_right _ _).trans h)
      cases tag with
      | list first =>
          obtain ⟨room, rfl, -⟩ := exists_room h
          rw [overwrittenItems, readLists, if_neg (Nat.succ_ne_zero room), Nat.add_sub_cancel]
          cases hany : ts.any EventTree.isList with
          | true =>
              have hne : readLists (room + 1) ts ≠ [] := by simp [readLists_eq_nil_iff, hany]
              rw [if_pos rfl, List.append_eq_nil_iff, writtenItems_list_eq_nil_iff, hrest,
                List.dropLast_cons_of_ne_nil hne, List.forall_mem_cons]
          | false =>
              rw [if_neg Bool.false_ne_true, List.nil_append, hrest,
                (readLists_eq_nil_iff (room + 1) ts).mpr hany]
              rfl
      | _ => exact hrest

/-- Where the nesting of trees fits into the room, that of the items in them does. -/
theorem nesting_le_room {looks : Place → Nat → List EventTree → Bool} (place : Place)
    (ts : List EventTree) {room : Nat} (h : treesNesting ts ≤ room) :
    ∀ w ∈ itemsWithin looks place room ts, treesNesting w.children ≤ w.room := by
  have hnil : ∀ w ∈ ([] : List WrittenItem), treesNesting w.children ≤ w.room := fun w hw =>
    absurd hw List.not_mem_nil
  induction ts using trees_induction generalizing place room with
  | nil => exact hnil
  | single e alone span ts ih => exact ih place ((Nat.le_max_right 0 _).trans h)
  | element tag span children stop ts hwithin hts =>
      rw [treesNesting, EventTree.nesting] at h
      refine List.forall_mem_append.mpr ⟨?_, hts place ((Nat.le_max_right _ _).trans h)⟩
      have hroom : treesNesting children ≤ room := by omega
      obtain hnone | ⟨inner, -, hcounts, hinner⟩ | ⟨-, hitem⟩ | ⟨-, hthrough⟩ :=
        itemsWithin_element place tag span stop children
      · rw [hnone]
        exact hnil
      · rw [if_pos hcounts] at h
        obtain ⟨room, rfl, hless⟩ := exists_room h
        rw [hinner]
        exact fun w hw => hwithin inner hless w ((ite_nil_sublist (.refl _)).subset hw)
      · rw [hitem]
        exact List.forall_mem_cons.mpr ⟨hroom, hwithin .item hroom⟩
      · rw [hthrough]
        exact hwithin .list hroom

/-! ### What the tree keeps -/

/-- What is collected of the kept items is all that is collected of the written ones exactly when
nothing is collected of an overwritten item. -/
theorem Accounts.flatMap_eq_iff {α : Type} {written kept : List WrittenItem}
    (h : Accounts written kept []) (hsub : kept.Sublist written) (f : WrittenItem → List α) :
    kept.flatMap f = written.flatMap f ↔ ∀ w ∈ kept, ∀ lost ∈ w.overwritten, f lost = [] := by
  have hlength := (h.flatMap_right f).length_eq
  rw [List.append_nil, List.flatMap_append, List.length_append] at hlength
  have hall : (kept.flatMap WrittenItem.overwritten).flatMap f = [] ↔
      ∀ w ∈ kept, ∀ lost ∈ w.overwritten, f lost = [] := by
    rw [List.flatMap_eq_nil_iff]
    constructor
    · exact fun hnil w hw lost hlost => hnil lost (List.mem_flatMap.mpr ⟨w, hw, hlost⟩)
    · intro hnil lost hlost
      obtain ⟨w, hw, hlost⟩ := List.mem_flatMap.mp hlost
      exact hnil w hw lost hlost
  -- What is kept is a sublist of what is written, so lengths decide whether both are equal.
  rw [← hall, ← List.length_eq_zero_iff]
  constructor
  · intro heq
    rw [heq] at hlength
    omega
  · intro hzero
    exact (hsub.flatMap f).eq_of_length (by omega)

/-- The last of several lists is all of them together exactly when the others are empty. -/
theorem getLast_eq_flatten_iff {α : Type} (xss : List (List α)) :
    xss.getLast?.getD [] = xss.flatten ↔ ∀ xs ∈ xss.dropLast, xs = [] := by
  rcases List.eq_nil_or_concat xss with rfl | ⟨init, last, rfl⟩
  · exact iff_of_true rfl fun xs hxs => absurd hxs List.not_mem_nil
  · rw [List.concat_eq_append, List.getLast?_concat, Option.getD_some, List.flatten_append,
      List.flatten_singleton, List.dropLast_concat, List.self_eq_append_left,
      List.flatten_eq_nil_iff]

/-- What a tree keeps of the lists that are written: of the lists in one item the last. -/
structure KeepsLastLists (nodes : List Node) (kept written : List WrittenItem) : Prop where
  items : itemsOfLists nodes = kept.map WrittenItem.item
  /-- The last list in an item gives all its items, in order, and the others give none. -/
  last : ∀ w ∈ kept, w.item.listItems = w.lists.getLast?.getD []
  each_iff : ∀ w ∈ kept, w.item.listItems = w.lists.flatten ↔
    ∀ items ∈ w.lists.dropLast, items = []
  inOrder : kept.Sublist written
  lost : written.Perm (kept ++ kept.flatMap WrittenItem.overwritten)
  all_iff : itemsOfLists nodes = written.map WrittenItem.item ↔
    ∀ w ∈ kept, ∀ items ∈ w.lists.dropLast, items = []
  links_iff : linksOfLists nodes = written.flatMap WrittenItem.links ↔
    ∀ w ∈ kept, ∀ lost ∈ w.overwritten, lost.links = []

/-- The tree of well-nested events keeps of the lists that stand in one item the last, and all
items are in the tree exactly when the lists in front of the last one are empty. -/
theorem nested_lists_kept_iff (text : List Char) {ts : List EventTree}
    (hfits : treesFit .blocks ts = true) (hnesting : treesNesting ts ≤ maxNesting) :
    KeepsLastLists (ofEvents text (treesEvents ts)) (keptItems .blocks maxNesting ts)
      (writtenItems .blocks maxNesting ts) := by
  have hitems := itemsOfLists_ofEvents text hfits
  have hlast : ∀ w : WrittenItem, w.item.listItems = w.lists.getLast?.getD [] := fun w =>
    listItems_readItem w.children w.room (.mk none [] none)
  have hsub := keptItems_sublist .blocks maxNesting ts
  have haccounts : Accounts (writtenItems .blocks maxNesting ts) _ [] :=
    accounts_items .blocks ts hnesting
  refine ⟨hitems, fun w _ => hlast w, fun w _ => ?_, hsub, ?_, ?_, ?_⟩
  · rw [hlast, getLast_eq_flatten_iff]
  · simpa [Accounts] using haccounts
  · rw [hitems, List.map_eq_flatMap, List.map_eq_flatMap, haccounts.flatMap_eq_iff hsub]
    refine forall₂_congr fun w hw => ?_
    have hroom := nesting_le_room .blocks ts hnesting w hw
    rw [WrittenItem.lists, ← overwrittenItems_eq_nil_iff w.children hroom, WrittenItem.overwritten,
      List.eq_nil_iff_forall_not_mem]
    exact forall₂_congr fun lost _ => iff_false_intro (List.cons_ne_nil _ _)
  · rw [linksOfLists_eq_flatMap, hitems, List.flatMap_map]
    exact haccounts.flatMap_eq_iff hsub WrittenItem.links

/-- A list item with two lists; the first holds a link. -/
def twoListsText : List Char := "- a\n  - [b](#glyph:x)\n  * c\n".toList

def twoLists : List EventTree :=
  [.element (.list none) ⟨0, 28, by decide⟩ [.element .item ⟨0, 28, by decide⟩ [
    .text "a" ⟨2, 4, by decide⟩,
    .element (.list none) ⟨6, 24, by decide⟩ [.element .item ⟨6, 22, by decide⟩ [
      .element (.link "#glyph:x" "") ⟨8, 22, by decide⟩
        [.text "b" ⟨8, 22, by decide⟩] ⟨8, 22, by decide⟩]
      ⟨6, 22, by decide⟩] ⟨6, 24, by decide⟩,
    .element (.list none) ⟨24, 28, by decide⟩ [.element .item ⟨24, 28, by decide⟩ [
      .text "c" ⟨26, 28, by decide⟩] ⟨24, 28, by decide⟩] ⟨24, 28, by decide⟩]
    ⟨0, 28, by decide⟩] ⟨0, 28, by decide⟩]

theorem nested_lists_kept_of_twoLists :
    treesFit .blocks twoLists = true ∧ treesNesting twoLists ≤ maxNesting ∧
      KeepsLastLists (ofEvents twoListsText (treesEvents twoLists))
        (keptItems .blocks maxNesting twoLists) (writtenItems .blocks maxNesting twoLists) := by
  have hfits : treesFit .blocks twoLists = true := by decide
  have hnesting : treesNesting twoLists ≤ maxNesting := by decide
  exact ⟨hfits, hnesting, nested_lists_kept_iff twoListsText hfits hnesting⟩

/-- The first of the two lists gives none of its items, and its link is in no list of the tree. -/
theorem twoLists_first_lost :
    treesEvents twoLists = Event.ofText twoListsText ∧ treesFit .blocks twoLists = true ∧
      treesNesting twoLists ≤ maxNesting ∧
      (∃ w ∈ keptItems .blocks maxNesting twoLists, w.item.listItems ≠ w.lists.flatten) ∧
      (itemsOfLists (ofEvents twoListsText (treesEvents twoLists))).map
        (fun x => Inline.plainText x.text) = ["a", "c"] ∧
      (writtenItems .blocks maxNesting twoLists).map
        (fun w => Inline.plainText w.item.text) = ["a", "b", "c"] ∧
      linksOfLists (ofEvents twoListsText (treesEvents twoLists)) = [] ∧
      (writtenItems .blocks maxNesting twoLists).flatMap WrittenItem.links =
        [("#glyph:x", "b")] := by
  refine ⟨by decide +kernel, by decide, by decide, ?_, by decide +kernel, by decide +kernel,
    by decide +kernel, by decide +kernel⟩
  refine ⟨_, List.mem_cons_self, fun h => ?_⟩
  exact absurd (congrArg List.length h) (by decide)

end BlockDoc.Node
