import BlockDoc.Proofs.Node.ReadBlocks

/-!
The items in the lists of a tree, and the items as they are written. An item in
the tree has one list below it; of the lists that stand in a written item it is
the last one. So the items in the tree, each in front of those below it, are the
written items that are reached through last lists alone, as long as there is
room for the quotes and lists around them.
-/

namespace BlockDoc

/-! ### Items in a tree -/

mutual

/-- The items of a list, an item before the items below it. -/
def ItemList.allItems : ItemList → List Item
  | .mk _ _ items => allItemsOf items

/-- An item and the items below it. -/
def Item.allItems : Item → List Item
  | .mk checked children sublist =>
    .mk checked children sublist :: match sublist with
      | some l => l.allItems
      | none => []

def allItemsOf : List Item → List Item
  | [] => []
  | x :: xs => x.allItems ++ allItemsOf xs

end

namespace Item

/-- The state of the task, if the item is one. -/
def checked : Item → Option Bool
  | .mk c _ _ => c

def text : Item → List Inline
  | .mk _ xs _ => xs

def sublist : Item → Option ItemList
  | .mk _ _ l => l

/-- The links in the text of an item. -/
def ownLinks (x : Item) : List (String × String) := Inline.links x.text

end Item

def ItemList.items : ItemList → List Item
  | .mk _ _ items => items

/-- The items of the list below an item. -/
def Item.listItems (x : Item) : List Item := (x.sublist.map ItemList.items).getD []

theorem Item.allItems_eq_cons (x : Item) : x.allItems = x :: allItemsOf x.listItems := by
  match x with
  | .mk checked children none => rfl
  | .mk checked children (some (.mk ordered start items)) => rfl

theorem allItemsOf_append (xs ys : List Item) :
    allItemsOf (xs ++ ys) = allItemsOf xs ++ allItemsOf ys := by
  induction xs with
  | nil => rfl
  | cons x xs ih => rw [List.cons_append, allItemsOf, allItemsOf, ih, List.append_assoc]

mutual

/-- The links in a list are those of its items. -/
theorem ItemList.links_eq_flatMap (l : ItemList) : l.links = l.allItems.flatMap Item.ownLinks := by
  obtain ⟨ordered, start, items⟩ := l
  exact itemLinks_eq_flatMap items

theorem Item.links_eq_flatMap (x : Item) : x.links = x.allItems.flatMap Item.ownLinks := by
  match x with
  | .mk checked children none =>
      rw [Item.links, Item.allItems, List.flatMap_cons, Item.ownLinks]
      rfl
  | .mk checked children (some l) =>
      rw [Item.links, Item.allItems, List.flatMap_cons, Item.ownLinks, l.links_eq_flatMap]
      rfl

theorem itemLinks_eq_flatMap (xs : List Item) :
    itemLinks xs = (allItemsOf xs).flatMap Item.ownLinks := by
  match xs with
  | [] => rfl
  | x :: xs =>
      rw [itemLinks, allItemsOf, List.flatMap_append, x.links_eq_flatMap, itemLinks_eq_flatMap xs]

end

namespace Node

open Markdown (Event Tag TagEnd)

mutual

/-- The lists of a block, through quotes. -/
def lists : Node → List ItemList
  | .mk _ (.list l) => [l]
  | .mk _ (.quote children) => listsOf children
  | .mk _ _ => []

def listsOf : List Node → List ItemList
  | [] => []
  | n :: ns => n.lists ++ listsOf ns

end

/-- The items in the lists of blocks, in order. -/
def itemsOfLists (nodes : List Node) : List Item := (listsOf nodes).flatMap ItemList.allItems

/-- The links in the lists of blocks, in order. -/
def linksOfLists (nodes : List Node) : List (String × String) :=
  (listsOf nodes).flatMap ItemList.links

theorem linksOfLists_eq_flatMap (nodes : List Node) :
    linksOfLists nodes = (itemsOfLists nodes).flatMap Item.ownLinks := by
  rw [linksOfLists, itemsOfLists, List.flatMap_assoc]
  exact congrArg (fun f => (listsOf nodes).flatMap f) (funext ItemList.links_eq_flatMap)

theorem listsOf_append (ns ns' : List Node) : listsOf (ns ++ ns') = listsOf ns ++ listsOf ns' := by
  induction ns with
  | nil => rfl
  | cons n ns ih => rw [List.cons_append, listsOf, listsOf, ih, List.append_assoc]

theorem itemsOfLists_append (ns ns' : List Node) :
    itemsOfLists (ns ++ ns') = itemsOfLists ns ++ itemsOfLists ns' := by
  rw [itemsOfLists, listsOf_append, List.flatMap_append, ← itemsOfLists, ← itemsOfLists]

/-! ### Items as they are written -/

/-- An item as it is written, and the room that is left in it. -/
structure WrittenItem where
  room : Nat
  children : List EventTree

/-- What is read of the item. -/
def WrittenItem.item (w : WrittenItem) : Item := readItem w.room (.mk none [] none) w.children

/-- The links in the text of the item. -/
def WrittenItem.links (w : WrittenItem) : List (String × String) := w.item.ownLinks

def EventTree.isList : EventTree → Bool
  | .element (.list _) .. => true
  | _ => false

theorem isList_element_iff {tag : Tag} {span stop : Span} {children : List EventTree} :
    (EventTree.element tag span children stop).isList = true ↔ ∃ first, tag = .list first := by
  cases tag <;> simp [EventTree.isList]

mutual

/-- The items within a tree, an item before the items within it. Which quotes and lists are looked
into may depend on the place, the room, and the trees behind. -/
def EventTree.itemsWithin (looks : Place → Nat → List EventTree → Bool) (place : Place)
    (room : Nat) (behind : List EventTree) : EventTree → List WrittenItem
  | .single .. => []
  | .element tag _ children _ =>
    match place, tag with
    | .blocks, .quote =>
      if looks .blocks room behind then itemsWithin looks .blocks (room - 1) children else []
    | .blocks, .list _ =>
      if looks .blocks room behind then itemsWithin looks .list (room - 1) children else []
    | .list, .item => ⟨room, children⟩ :: itemsWithin looks .item room children
    | .list, _ => itemsWithin looks .list room children
    | .item, .list _ =>
      if looks .item room behind then itemsWithin looks .list (room - 1) children else []
    | _, _ => []

def itemsWithin (looks : Place → Nat → List EventTree → Bool) (place : Place) (room : Nat) :
    List EventTree → List WrittenItem
  | [] => []
  | t :: ts => t.itemsWithin looks place room ts ++ itemsWithin looks place room ts

end

/-- What an element holds of the items within it: none; if it is looked into, those at a place with
less room; or, in a list, those of an item or of what is read through. -/
theorem itemsWithin_element (place : Place) (tag : Tag) (span stop : Span)
    (children : List EventTree) :
    (∀ looks room behind, (EventTree.element tag span children stop).itemsWithin looks place room
        behind = []) ∨
      (∃ inner, inner ≠ .item ∧ countsAsNesting tag = true ∧ ∀ looks room behind,
        (EventTree.element tag span children stop).itemsWithin looks place room behind =
          if looks place room behind then itemsWithin looks inner (room - 1) children else []) ∨
      (place = .list ∧ ∀ looks room behind,
        (EventTree.element tag span children stop).itemsWithin looks place room behind =
          ⟨room, children⟩ :: itemsWithin looks .item room children) ∨
      (place = .list ∧ ∀ looks room behind,
        (EventTree.element tag span children stop).itemsWithin looks place room behind =
          itemsWithin looks .list room children) := by
  cases place with
  | blocks =>
      cases tag with
      | quote => exact .inr (.inl ⟨.blocks, nofun, rfl, fun _ _ _ => rfl⟩)
      | list first => exact .inr (.inl ⟨.list, nofun, rfl, fun _ _ _ => rfl⟩)
      | _ => exact .inl fun _ _ _ => rfl
  | list =>
      cases tag with
      | item => exact .inr (.inr (.inl ⟨rfl, fun _ _ _ => rfl⟩))
      | _ => exact .inr (.inr (.inr ⟨rfl, fun _ _ _ => rfl⟩))
  | item =>
      cases tag with
      | list first => exact .inr (.inl ⟨.list, nofun, rfl, fun _ _ _ => rfl⟩)
      | _ => exact .inl fun _ _ _ => rfl
  | text | lines | table | skipped => exact .inl fun _ _ _ => rfl

/-- Whether a quote or a list is kept: there is room for it, and in an item no list stands behind
it. -/
def keeps : Place → Nat → List EventTree → Bool
  | _, 0, _ => false
  | .item, _, behind => !behind.any EventTree.isList
  | _, _, _ => true

theorem keeps_succ_of_ne_item {place : Place} (h : place ≠ .item) (room : Nat)
    (behind : List EventTree) : keeps place (room + 1) behind = true := by
  cases place with
  | item => exact absurd rfl h
  | _ => rfl

def keptItems (place : Place) (room : Nat) (ts : List EventTree) : List WrittenItem :=
  itemsWithin keeps place room ts

theorem keptItems_cons (place : Place) (room : Nat) (t : EventTree) (ts : List EventTree) :
    keptItems place room (t :: ts) =
      t.itemsWithin keeps place room ts ++ keptItems place room ts := rfl

/-- The items of each list that stands in an item. -/
def readLists (room : Nat) : List EventTree → List (List Item)
  | [] => []
  | .element (.list _) _ children _ :: ts =>
    (if room = 0 then [] else readItems (room - 1) children) :: readLists room ts
  | _ :: ts => readLists room ts

/-- The items of each list that stands in the item. -/
def WrittenItem.lists (w : WrittenItem) : List (List Item) := readLists w.room w.children

/-! ### The items that are kept -/

/-- In an item there are no items but in lists. -/
theorem itemsWithin_item_of_not_isList {t : EventTree} (h : t.isList = false)
    (looks : Place → Nat → List EventTree → Bool) (room : Nat) (behind : List EventTree) :
    t.itemsWithin looks .item room behind = [] := by
  cases t with
  | single => rfl
  | element tag span children stop =>
      cases tag with
      | list first => exact absurd h Bool.true_eq_false.mp
      | _ => rfl

theorem itemsWithin_item_list (first : Option Nat) (span stop : Span) (children : List EventTree)
    (looks : Place → Nat → List EventTree → Bool) (room : Nat) (behind : List EventTree) :
    (EventTree.element (.list first) span children stop).itemsWithin looks .item room behind =
      if looks .item room behind then itemsWithin looks .list (room - 1) children else [] := rfl

theorem keeps_item_of_list_behind {ts : List EventTree} (h : ts.any EventTree.isList = true)
    (room : Nat) : keeps .item room ts = false := by
  cases room <;> simp [keeps, h]

theorem itemsWithin_item_eq_nil {ts : List EventTree} (h : ts.any EventTree.isList = false)
    (looks : Place → Nat → List EventTree → Bool) (room : Nat) :
    itemsWithin looks .item room ts = [] := by
  induction ts with
  | nil => rfl
  | cons t ts ih =>
      obtain ⟨ht, hts⟩ := Bool.or_eq_false_iff.mp (List.any_cons.symm.trans h)
      rw [itemsWithin, itemsWithin_item_of_not_isList ht, ih hts, List.append_nil]

theorem exists_list {t : EventTree} (h : t.isList = true) :
    ∃ first span children stop, t = .element (.list first) span children stop := by
  cases t with
  | single => exact absurd h Bool.false_ne_true
  | element tag span children stop =>
      obtain ⟨first, rfl⟩ := isList_element_iff.mp h
      exact ⟨first, span, children, stop, rfl⟩

theorem readLists_cons_of_not_isList {t : EventTree} (h : t.isList = false) (room : Nat)
    (ts : List EventTree) : readLists room (t :: ts) = readLists room ts := by
  cases t with
  | single => rfl
  | element tag span children stop =>
      cases tag with
      | list first => exact absurd h Bool.true_eq_false.mp
      | _ => rfl

theorem readLists_eq_nil_iff (room : Nat) (ts : List EventTree) :
    readLists room ts = [] ↔ ts.any EventTree.isList = false := by
  induction ts with
  | nil => exact iff_of_true rfl rfl
  | cons t ts ih =>
      cases ht : t.isList with
      | false => rw [readLists_cons_of_not_isList ht, ih, List.any_cons, ht, Bool.false_or]
      | true =>
          obtain ⟨first, span, children, stop, rfl⟩ := exists_list ht
          simp [readLists, EventTree.isList]

/-- What is no list leaves the list below an item as it is. -/
theorem sublist_readItem_of_not_isList {t : EventTree} (h : t.isList = false) (room : Nat)
    (x : Item) : (t.readItem room x).sublist = x.sublist := by
  obtain ⟨checked, xs, l⟩ := x
  cases t with
  | single e alone span => cases e <;> rfl
  | element tag span children stop =>
      cases tag with
      | list first => exact absurd h Bool.true_eq_false.mp
      | _ => rfl

/-- Of the lists that stand in an item the last one is the list below the item. -/
theorem listItems_readItem (ts : List EventTree) (room : Nat) (x : Item) :
    (readItem room x ts).listItems = (readLists room ts).getLast?.getD x.listItems := by
  induction ts generalizing x with
  | nil => rfl
  | cons t ts ih =>
      rw [readItem, ih]
      cases ht : t.isList with
      | false =>
          rw [readLists_cons_of_not_isList ht, Item.listItems, sublist_readItem_of_not_isList ht]
          rfl
      | true =>
          obtain ⟨first, span, children, stop, rfl⟩ := exists_list ht
          obtain ⟨checked, xs, l⟩ := x
          have hitems : ((EventTree.element (.list first) span children stop).readItem room
              (.mk checked xs l)).listItems =
                if room = 0 then [] else readItems (room - 1) children := by
            cases room <;> rfl
          rw [hitems, readLists, List.getLast?_cons, Option.getD_some]

/-- A list within an item, and the trees behind it. -/
theorem allItemsOf_lastList_cons {children ts : List EventTree} {room : Nat}
    (hchildren : allItemsOf (readItems (room - 1) children) =
      (keptItems .list (room - 1) children).map WrittenItem.item)
    (hts : allItemsOf ((readLists room ts).getLast?.getD []) =
      (keptItems .item room ts).map WrittenItem.item) (first : Option Nat) (span stop : Span) :
    allItemsOf ((readLists room (.element (.list first) span children stop :: ts)).getLast?.getD
        []) = (keptItems .item room (.element (.list first) span children stop :: ts)).map
      WrittenItem.item := by
  rw [readLists, List.getLast?_cons, Option.getD_some, keptItems_cons, itemsWithin_item_list]
  cases hany : ts.any EventTree.isList with
  | true =>
      have hne : readLists room ts ≠ [] := by simp [readLists_eq_nil_iff, hany]
      rw [List.getLast?_eq_getLast_of_ne_nil hne, Option.getD_some] at hts ⊢
      rw [keeps_item_of_list_behind hany, if_neg Bool.false_ne_true, List.nil_append, hts]
  | false =>
      have hkept : keptItems .item room ts = [] := itemsWithin_item_eq_nil hany keeps room
      rw [(readLists_eq_nil_iff room ts).mpr hany, hkept, List.append_nil, List.getLast?_nil,
        Option.getD_none]
      cases room with
      | zero => rfl
      | succ room =>
          have hkeeps : keeps .item (room + 1) ts = true := by simp [keeps, hany]
          rw [hkeeps, if_pos rfl, if_neg (Nat.succ_ne_zero room)]
          exact hchildren

/-- The items that are kept in an item are those of its last list, and the items in a list that is
read are those that are kept in it. -/
theorem allItemsOf_eq_map_keptItems (ts : List EventTree) :
    (∀ room, allItemsOf ((readLists room ts).getLast?.getD []) =
      (keptItems .item room ts).map WrittenItem.item) ∧
    ∀ room, allItemsOf (readItems room ts) = (keptItems .list room ts).map WrittenItem.item := by
  -- Items hold lists and lists hold items, so both are shown at once.
  induction ts using trees_induction with
  | nil => exact ⟨fun room => rfl, fun room => rfl⟩
  | single e alone span ts ih => exact ih
  | element tag span children stop ts hchildren hts =>
      constructor
      · intro room
        cases tag with
        | list first =>
            exact allItemsOf_lastList_cons (hchildren.2 _) (hts.1 room) first span stop
        | _ => exact hts.1 room
      · intro room
        rw [readItems, allItemsOf_append, hts.2 room, keptItems_cons, List.map_append]
        congr 1
        cases tag with
        | item =>
            rw [EventTree.readItems, allItemsOf, allItemsOf, List.append_nil,
              Item.allItems_eq_cons, listItems_readItem]
            exact congrArg (_ :: ·) (hchildren.1 room)
        | _ => exact hchildren.2 room

/-- The items in the lists that are read are those that are kept. -/
theorem itemsOfLists_readNodes (text : List Char) (ts : List EventTree) (room : Nat) :
    itemsOfLists (readNodes text room ts) = (keptItems .blocks room ts).map WrittenItem.item := by
  induction ts using trees_induction generalizing room with
  | nil => rfl
  | single e alone span ts ih =>
      have hsingle : itemsOfLists ((EventTree.single e alone span).readNodes text room) = [] := by
        cases e <;> rfl
      rw [readNodes, itemsOfLists_append, hsingle, ih]
      rfl
  | element tag span children stop ts hchildren hts =>
      rw [readNodes, itemsOfLists_append, hts, keptItems_cons, List.map_append]
      congr 1
      cases tag with
      | list first =>
          cases room with
          | zero => rfl
          | succ room =>
              have hlist : itemsOfLists ((EventTree.element (.list first) span children
                  stop).readNodes text (room + 1)) = allItemsOf (readItems room children) :=
                List.append_nil _
              rw [hlist, (allItemsOf_eq_map_keptItems children).2 room]
              rfl
      | quote =>
          cases room with
          | zero => rfl
          | succ room =>
              have hquote : itemsOfLists ((EventTree.element .quote span children stop).readNodes
                  text (room + 1)) = itemsOfLists (readNodes text room children) :=
                congrArg (List.flatMap ItemList.allItems) (List.append_nil _)
              rw [hquote, hchildren]
              rfl
      | _ => rfl

/-- The items in the lists of the tree of well-nested events are those that are kept. -/
theorem itemsOfLists_ofEvents (text : List Char) {ts : List EventTree}
    (hfits : treesFit .blocks ts = true) :
    itemsOfLists (ofEvents text (treesEvents ts)) =
      (keptItems .blocks maxNesting ts).map WrittenItem.item := by
  rw [ofEvents_treesEvents text hfits, itemsOfLists_readNodes]

end Node

end BlockDoc
