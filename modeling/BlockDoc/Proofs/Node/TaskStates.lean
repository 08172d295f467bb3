import BlockDoc.Proofs.Node.Items

/-!
The states of tasks. The mark of a task stands directly in its item if the item
is tight, and in a paragraph of the item if it is loose. An item takes the state
of the last mark that stands directly in it; where text is read a mark is
ignored, so the state of a loose item is lost. Marks of other items never count.
-/

namespace BlockDoc.Node

open Markdown (Event Located)

def markState? : Event → Option Bool
  | .task state => some state
  | _ => none

def EventTree.markState? : EventTree → Option Bool
  | .single e _ _ => Node.markState? e
  | .element .. => none

/-- The states of the marks that stand directly in an item. -/
def directMarks (ts : List EventTree) : List Bool := ts.filterMap EventTree.markState?

/-- The states of the marks of an item: directly in the item, or in one of its paragraphs. -/
def ownMarks : List EventTree → List Bool
  | [] => []
  | .single e _ _ :: ts => (markState? e).toList ++ ownMarks ts
  | .element .paragraph _ children _ :: ts =>
    (treesEvents children).filterMap (fun e => markState? e.1) ++ ownMarks ts
  | .element .. :: ts => ownMarks ts

theorem directMarks_single (e : Event) (alone : standsAlone e = true) (span : Span)
    (ts : List EventTree) :
    directMarks (.single e alone span :: ts) = (markState? e).toList ++ directMarks ts := by
  cases e <;> rfl

/-- One tree changes the state of an item if it is a mark. -/
theorem checked_readItem_tree (t : EventTree) (room : Nat) (x : Item) :
    (t.readItem room x).checked = t.markState?.or x.checked := by
  obtain ⟨checked, xs, l⟩ := x
  cases t with
  | single e alone span => cases e <;> rfl
  | element tag span children stop =>
      cases tag with
      | list first => cases room <;> rfl
      | _ => rfl

/-- The state that is read of an item is that of the last mark that stands directly in it. -/
theorem checked_readItem (ts : List EventTree) (room : Nat) (x : Item) :
    (readItem room x ts).checked = (directMarks ts).getLast?.or x.checked := by
  induction ts generalizing x with
  | nil => rfl
  | cons t ts ih =>
      rw [readItem, ih, checked_readItem_tree, directMarks, directMarks, ← Option.or_assoc]
      congr 1
      cases hmark : t.markState? with
      | none => rw [List.filterMap_cons_none hmark, Option.or_none]
      | some state =>
          rw [List.filterMap_cons_some hmark, List.getLast?_cons]
          cases (ts.filterMap EventTree.markState?).getLast? <;> rfl

theorem directMarks_subset_ownMarks (ts : List EventTree) : directMarks ts ⊆ ownMarks ts := by
  induction ts with
  | nil => exact List.Subset.refl []
  | cons t ts ih =>
      cases t with
      | single e alone span =>
          rw [directMarks_single, ownMarks, List.append_subset]
          exact ⟨List.subset_append_left _ _, List.Subset.trans ih (List.subset_append_right _ _)⟩
      | element tag span children stop =>
          cases tag with
          | paragraph => exact List.Subset.trans ih (List.subset_append_right _ _)
          | _ => exact ih

/-- The last direct mark is all marks of an item exactly when each of them has the state of a
direct mark and all have the same state. -/
theorem getLast_directMarks_iff (ts : List EventTree) :
    (∀ state ∈ ownMarks ts, (directMarks ts).getLast? = some state) ↔
      ownMarks ts ⊆ directMarks ts ∧
        ∀ state ∈ ownMarks ts, ∀ state' ∈ ownMarks ts, state = state' := by
  constructor
  · intro h
    refine ⟨fun state hstate => List.mem_of_getLast? (h state hstate), ?_⟩
    intro state hstate state' hstate'
    exact Option.some.inj ((h state hstate).symm.trans (h state' hstate'))
  · rintro ⟨hdirect, hsame⟩ state hstate
    have hne : directMarks ts ≠ [] := List.ne_nil_of_mem (hdirect hstate)
    have hlast := List.getLast?_eq_some_getLast hne
    have hmem := directMarks_subset_ownMarks ts (List.getLast_mem hne)
    rw [hlast, hsame _ hmem state hstate]

/-- Each item in the lists of the tree of well-nested events has the state of the last mark that
stands directly in it. So no state is lost, for an item, exactly when each of its marks has the
state of a direct mark and all have the same state. -/
theorem task_states_kept_iff (text : List Char) {ts : List EventTree}
    (hfits : treesFit .blocks ts = true) :
    itemsOfLists (ofEvents text (treesEvents ts)) =
        (keptItems .blocks maxNesting ts).map WrittenItem.item ∧
      ∀ w ∈ keptItems .blocks maxNesting ts,
        w.item.checked = (directMarks w.children).getLast? ∧
          (ownMarks w.children = [] → w.item.checked = none) ∧
          ((∀ state ∈ ownMarks w.children, w.item.checked = some state) ↔
            ownMarks w.children ⊆ directMarks w.children ∧
              ∀ state ∈ ownMarks w.children, ∀ state' ∈ ownMarks w.children, state = state') := by
  refine ⟨itemsOfLists_ofEvents text hfits, fun w _ => ?_⟩
  have hchecked : w.item.checked = (directMarks w.children).getLast? := by
    rw [WrittenItem.item, checked_readItem]
    exact Option.or_none
  refine ⟨hchecked, fun hnone => ?_, ?_⟩
  · have hdirect := directMarks_subset_ownMarks w.children
    rw [hnone, List.subset_nil] at hdirect
    rw [hchecked, hdirect, List.getLast?_nil]
  · rw [hchecked]
    exact getLast_directMarks_iff w.children

/-- Two tasks of a loose list, both done. -/
def looseTasksText : List Char := "- [x] a\n\n- [x] b\n".toList

def looseTasks : List EventTree :=
  [.element (.list none) ⟨0, 17, by decide⟩ [
    .element .item ⟨0, 9, by decide⟩ [.element .paragraph ⟨6, 8, by decide⟩ [
      .single (.task true) rfl ⟨6, 8, by decide⟩, .text "a" ⟨6, 8, by decide⟩]
      ⟨6, 8, by decide⟩] ⟨0, 9, by decide⟩,
    .element .item ⟨9, 17, by decide⟩ [.element .paragraph ⟨15, 17, by decide⟩ [
      .single (.task true) rfl ⟨15, 17, by decide⟩, .text "b" ⟨15, 17, by decide⟩]
      ⟨15, 17, by decide⟩] ⟨9, 17, by decide⟩] ⟨0, 17, by decide⟩]

theorem task_states_of_looseTasks :
    treesFit .blocks looseTasks = true ∧
      itemsOfLists (ofEvents looseTasksText (treesEvents looseTasks)) =
          (keptItems .blocks maxNesting looseTasks).map WrittenItem.item ∧
        ∀ w ∈ keptItems .blocks maxNesting looseTasks,
          w.item.checked = (directMarks w.children).getLast? ∧
            (ownMarks w.children = [] → w.item.checked = none) ∧
            ((∀ state ∈ ownMarks w.children, w.item.checked = some state) ↔
              ownMarks w.children ⊆ directMarks w.children ∧
                ∀ state ∈ ownMarks w.children, ∀ state' ∈ ownMarks w.children, state = state') := by
  have hfits : treesFit .blocks looseTasks = true := by decide
  exact ⟨hfits, task_states_kept_iff looseTasksText hfits⟩

/-- Each of the two items has a mark of its own, and neither has a state in the tree. -/
theorem looseTasks_states_lost :
    treesEvents looseTasks = Event.ofText looseTasksText ∧ treesFit .blocks looseTasks = true ∧
      (keptItems .blocks maxNesting looseTasks).map (fun w => ownMarks w.children) =
        [[true], [true]] ∧
      (itemsOfLists (ofEvents looseTasksText (treesEvents looseTasks))).map Item.checked =
        [none, none] := by
  exact ⟨by decide +kernel, by decide, by decide, by decide +kernel⟩

end BlockDoc.Node
