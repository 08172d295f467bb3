import BlockDoc.Proofs.Node.ReadText
import BlockDoc.Proofs.Node.Rebuild

/-!
Runs of the builder over trees in tables, items, lists and where blocks are
expected. The builder takes one event after another and keeps the open parts on
a stack; over the events of trees whose elements fit it comes to the nodes that
are read by recursion on the trees.
-/

namespace BlockDoc.Node

open Markdown (CellAlignment Event Tag TagEnd)

section

variable {text : List Char} {done : List Node} {rest : List Unfinished}

/-! ### Tables -/

/-- The part of a table. -/
def TableSoFar.part (p : Range) (align : List CellAlignment) (t : TableSoFar) : Unfinished :=
  .table p align t.header t.rows.reverse t.row.reverse t.inHead

theorem step_tableStart {p : Range} {align : List CellAlignment} (t : TableSoFar) {tag : Tag}
    (htag : tag ≠ .tableCell) (span : Span) :
    Builder.step text ⟨done, t.part p align :: rest⟩ (.start tag, span) =
      ⟨done, (t.begin tag).part p align :: rest⟩ := by
  rw [Builder.step_eq, if_neg (by simp [Builder.ends])]
  cases tag <;> first | rfl | exact absurd rfl htag

theorem step_tableStop {p : Range} {align : List CellAlignment} (t : TableSoFar) {tag : Tag}
    (htag : tag.toEnd ≠ .table) (span : Span) :
    Builder.step text ⟨done, t.part p align :: rest⟩ (.stop tag.toEnd, span) =
      ⟨done, (t.close tag).part p align :: rest⟩ := by
  rw [Builder.step_eq, Builder.ends_other rfl htag, if_neg Bool.false_ne_true]
  cases tag with
  | tableHead =>
      simp [Builder.onEvent, Builder.onTable, Tag.toEnd, TableSoFar.part, TableSoFar.close]
  | tableRow =>
      cases hhead : t.inHead <;>
        simp [Builder.onEvent, Builder.onTable, Tag.toEnd, TableSoFar.part, TableSoFar.close, hhead]
  | table => exact absurd rfl htag
  | _ => rfl

theorem step_tableAlone {p : Range} {align : List CellAlignment} (t : TableSoFar) {e : Event}
    (h : standsAlone e = true) (span : Span) :
    Builder.step text ⟨done, t.part p align :: rest⟩ (e, span) =
      ⟨done, t.part p align :: rest⟩ := by
  rw [Builder.step_eq, Builder.ends_alone h, if_neg Bool.false_ne_true]
  cases e with
  | start tag | stop tag => exact absurd h Bool.false_ne_true
  | _ => rfl

theorem readTable_element {tag : Tag} (htag : tag ≠ .tableCell) (room : Nat) (t : TableSoFar)
    (span stop : Span) (children : List EventTree) :
    (EventTree.element tag span children stop).readTable room t =
      (readTable room (t.begin tag) children).close tag := by
  cases tag <;> first | rfl | exact absurd rfl htag

theorem run_table (ts : List EventTree) {p : Range} {align : List CellAlignment} (t : TableSoFar)
    {room : Nat} (hroom : nestingOf rest + room = maxNesting)
    (hfits : treesFit .table ts = true) :
    Builder.run text ⟨done, t.part p align :: rest⟩ ts =
      ⟨done, (readTable room t ts).part p align :: rest⟩ := by
  induction ts using trees_induction generalizing t with
  | nil => rfl
  | single e alone span ts ih =>
      rw [Builder.run_single, step_tableAlone t alone, ih t hfits]
      rfl
  | element tag span children stop ts ihchildren ihts =>
      obtain ⟨⟨inner, hinner, hchildren⟩, hts⟩ := fits_element_iff.mp hfits
      by_cases htag : tag = .tableCell
      · subst htag
        obtain rfl : .text .tableCell = inner := Option.some.inj hinner
        have hroom' : nestingOf (.cell [] :: t.part p align :: rest) + room = maxNesting := hroom
        have hstart : Builder.step text ⟨done, t.part p align :: rest⟩ (.start .tableCell, span) =
            ⟨done, .cell [] :: t.part p align :: rest⟩ := rfl
        have hadd : ∀ xs, Builder.addPart ((Unfinished.cell []).addInlines xs)
            ⟨done, t.part p align :: rest⟩ =
              ⟨done, { t with row := t.row ++ [xs] }.part p align :: rest⟩ := by
          simp [Unfinished.addInlines, Builder.addPart, TableSoFar.part]
        rw [Builder.run_element, hstart, run_text children rfl rfl hroom' hchildren,
          Builder.step_stop rfl, hadd, ihts _ hts]
        rfl
      · have htable : tag.toEnd ≠ .table := by
          cases tag with
          | table align => exact absurd hinner (Option.some_ne_none inner).symm
          | _ => nofun
        obtain rfl : .table = inner := by
          cases tag <;> first
            | exact Option.some.inj hinner
            | exact absurd rfl htag
            | exact absurd rfl htable
        rw [Builder.run_element, step_tableStart t htag, ihchildren _ hchildren,
          step_tableStop _ htable, ihts _ hts, readTable, readTable_element htag]

/-! ### Items and lists -/

/-- The part of an item of which some part is read. -/
def itemPart : Item → Unfinished
  | .mk checked xs l => .item checked xs.reverse l

theorem itemPart_addInlines (checked : Option Bool) (xs ys : List Inline) (l : Option ItemList) :
    (itemPart (.mk checked xs l)).addInlines ys = itemPart (.mk checked (xs ++ ys) l) := by
  simp [itemPart, Unfinished.addInlines]

/-- An event that stands alone in an item. -/
theorem step_itemAlone (x : Item) {e : Event} (alone : standsAlone e = true) (room : Nat)
    (span : Span) :
    Builder.step text ⟨done, itemPart x :: rest⟩ (e, span) =
      ⟨done, itemPart ((EventTree.single e alone span).readItem room x) :: rest⟩ := by
  obtain ⟨checked, xs, l⟩ := x
  have htext : Builder.onText e ⟨done, itemPart (.mk checked xs l) :: rest⟩ = _ :=
    onText_alone alone (itemPart (.mk checked xs l))
  rw [itemPart_addInlines] at htext
  rw [Builder.step_eq, Builder.ends_alone alone, if_neg Bool.false_ne_true]
  cases e with
  | start tag | stop tag => exact absurd alone Bool.false_ne_true
  | task state => rfl
  | _ => exact htext

/-- A paragraph of an item. -/
theorem run_itemParagraph (x : Item) {children : List EventTree} {room : Nat}
    (hroom : nestingOf rest + room = maxNesting)
    (hchildren : treesFit (.text .paragraph) children = true) (span stop : Span)
    (ts : List EventTree) :
    Builder.run text ⟨done, itemPart x :: rest⟩ (.element .paragraph span children stop :: ts) =
      Builder.run text ⟨done, itemPart
        ((EventTree.element .paragraph span children stop).readItem room x) :: rest⟩ ts := by
  obtain ⟨checked, xs, l⟩ := x
  -- The soft break behind earlier text is added when the paragraph begins.
  have hstart : Builder.step text ⟨done, itemPart (.mk checked xs l) :: rest⟩
      (.start .paragraph, span) = ⟨done, .itemText [] ::
        itemPart (.mk checked (xs ++ paragraphBreak xs) l) :: rest⟩ := by
    rw [Builder.step_eq, if_neg (by simp [Builder.ends])]
    cases xs <;> simp [itemPart, Builder.onEvent, Builder.onItem, Builder.enter,
      Builder.addInline, Unfinished.addInline, paragraphBreak]
  have hroom' : nestingOf (.itemText [] ::
      itemPart (.mk checked (xs ++ paragraphBreak xs) l) :: rest) + room = maxNesting := hroom
  have hadd : ∀ ys zs : List Inline, Builder.addPart ((Unfinished.itemText []).addInlines zs)
      ⟨done, itemPart (.mk checked ys l) :: rest⟩ =
        ⟨done, itemPart (.mk checked (ys ++ zs) l) :: rest⟩ := by
    simp [Unfinished.addInlines, Builder.addPart, itemPart]
  rw [Builder.run_element, hstart, run_text children rfl rfl hroom' hchildren,
    Builder.step_stop rfl, hadd]
  rfl

/-- A block within an item that is neither a paragraph nor a list is left out. -/
theorem run_itemBlock (x : Item) {tag : Tag} (hinline : ¬ tag.isInline = true)
    (hparagraph : tag ≠ .paragraph) (hlist : ∀ first, tag ≠ .list first)
    (children : List EventTree) (room : Nat) (span stop : Span) (ts : List EventTree) :
    Builder.run text ⟨done, itemPart x :: rest⟩ (.element tag span children stop :: ts) =
      Builder.run text ⟨done, itemPart
        ((EventTree.element tag span children stop).readItem room x) :: rest⟩ ts := by
  obtain ⟨checked, xs, l⟩ := x
  have hread : (EventTree.element tag span children stop).readItem room (.mk checked xs l) =
      .mk checked xs l := by
    cases tag with
    | paragraph => exact absurd rfl hparagraph
    | list first => exact absurd rfl (hlist first)
    | strong | emphasis | delete | link url title | image url title => exact absurd rfl hinline
    | _ => rfl
  have hstart : Builder.step text ⟨done, itemPart (.mk checked xs l) :: rest⟩
      (.start tag, span) = ⟨done, .skipped 1 none :: itemPart (.mk checked xs l) :: rest⟩ := by
    cases tag with
    | paragraph => exact absurd rfl hparagraph
    | list first => exact absurd rfl (hlist first)
    | strong | emphasis | delete | link url title | image url title => exact absurd rfl hinline
    | _ => rfl
  rw [Builder.run_element, hread, hstart, run_skipped children none Nat.one_pos,
    step_skipped_stop]
  rfl

/-- An element of text within an item. -/
theorem run_itemInline (x : Item) {tag : Tag} (htag : tag.isInline = true)
    {children : List EventTree} {room : Nat} (hroom : nestingOf rest + room = maxNesting)
    (hchildren : treesFit (.text tag.toEnd) children = true) (span stop : Span)
    (ts : List EventTree) :
    Builder.run text ⟨done, itemPart x :: rest⟩ (.element tag span children stop :: ts) =
      Builder.run text ⟨done, itemPart
        ((EventTree.element tag span children stop).readItem room x) :: rest⟩ ts := by
  obtain ⟨checked, xs, l⟩ := x
  have hread : (EventTree.element tag span children stop).readItem room (.mk checked xs l) =
      .mk checked (xs ++ (EventTree.element tag span children stop).readInlines room) l := by
    cases tag with
    | strong | emphasis | delete | link url title | image url title => rfl
    | _ => exact absurd htag Bool.false_ne_true
  have hroom' : nestingOf (itemPart (.mk checked xs l) :: rest) + room = maxNesting := hroom
  rw [run_inlineElement (u := itemPart (.mk checked xs l)) rfl htag hroom' fun room part hpart h =>
    run_text children hpart.takesTextOnly hpart.awaits h hchildren, itemPart_addInlines, hread]

/-- A list within an item where the nesting is full. -/
theorem run_itemFullList (x : Item) (first : Option Nat) (children : List EventTree)
    (hfull : nestingOf rest = maxNesting) (span stop : Span) (ts : List EventTree) :
    Builder.run text ⟨done, itemPart x :: rest⟩ (.element (.list first) span children stop :: ts) =
      Builder.run text ⟨done, itemPart
        ((EventTree.element (.list first) span children stop).readItem 0 x) :: rest⟩ ts := by
  obtain ⟨checked, xs, l⟩ := x
  have hstart : Builder.step text ⟨done, itemPart (.mk checked xs l) :: rest⟩
      (.start (.list first), span) =
        ⟨done, .skipped 1 none :: itemPart (.mk checked xs none) :: rest⟩ :=
    if_pos hfull.ge
  rw [Builder.run_element, hstart, run_skipped children none Nat.one_pos, step_skipped_stop]
  rfl

/-- A list that is no deeper than the nesting may be, when its items lead from the list that it
begins to this list with what is read of them added. -/
theorem run_listBody {children : List EventTree} {parts : List Unfinished} {first : Option Nat}
    {span : Span} {room : Nat}
    (hstart : Builder.step text ⟨done, parts⟩ (.start (.list first), span) =
      ⟨done, .list (Range.ofSpan text span) first [] :: parts⟩)
    (hchildren : Builder.run text ⟨done, .list (Range.ofSpan text span) first [] :: parts⟩
      children = ⟨done, .list (Range.ofSpan text span) first
        ((readItems room children).reverse ++ []) :: parts⟩) (stop : Span) (ts : List EventTree) :
    Builder.run text ⟨done, parts⟩ (.element (.list first) span children stop :: ts) =
      Builder.run text (Builder.addPart (.list (Range.ofSpan text span) first
        (readItems room children).reverse) ⟨done, parts⟩) ts := by
  rw [Builder.run_element, hstart, hchildren, Builder.step_stop rfl, List.append_nil]

/-- A list within an item where there is room for it. -/
theorem run_itemList (x : Item) (first : Option Nat) {children : List EventTree} {room : Nat}
    (hroom : nestingOf rest + (room + 1) = maxNesting)
    (hchildren : ∀ p, nestingOf (.list p first [] :: itemPart x :: rest) + room = maxNesting →
      Builder.run text ⟨done, .list p first [] :: itemPart x :: rest⟩ children =
        ⟨done, .list p first ((readItems room children).reverse ++ []) :: itemPart x :: rest⟩)
    (span stop : Span) (ts : List EventTree) :
    Builder.run text ⟨done, itemPart x :: rest⟩ (.element (.list first) span children stop :: ts) =
      Builder.run text ⟨done, itemPart ((EventTree.element (.list first) span children stop).readItem
        (room + 1) x) :: rest⟩ ts := by
  obtain ⟨checked, xs, l⟩ := x
  have hsub : nestingOf (itemPart (.mk checked xs l) :: rest) < maxNesting := by
    rw [itemPart, nestingOf_cons_of_not_nests rfl]
    omega
  have hroom' : ∀ p, nestingOf (.list p first [] :: itemPart (.mk checked xs l) :: rest) + room =
      maxNesting := by
    intro p
    rw [nestingOf_cons_of_nests rfl, itemPart, nestingOf_cons_of_not_nests rfl]
    omega
  have hstart : Builder.step text ⟨done, itemPart (.mk checked xs l) :: rest⟩
      (.start (.list first), span) = ⟨done, .list (Range.ofSpan text span) first [] ::
        itemPart (.mk checked xs l) :: rest⟩ :=
    if_neg (Nat.not_le.mpr hsub)
  have hadd : ∀ p items, Builder.addPart (.list p first (List.reverse items))
      ⟨done, itemPart (.mk checked xs l) :: rest⟩ =
        ⟨done, itemPart (.mk checked xs (some (.mk first.isSome first items))) :: rest⟩ := by
    simp [Builder.addPart, itemPart]
  rw [run_listBody hstart (hchildren _ (hroom' _)), hadd]
  rfl

/-- Trees lead from an item of which some part is read to this item with the trees read. -/
def LeadsInItem (text : List Char) (ts : List EventTree) : Prop :=
  ∀ (x : Item) (done : List Node) (rest : List Unfinished) (room : Nat),
    nestingOf rest + room = maxNesting → treesFit .item ts = true →
      Builder.run text ⟨done, itemPart x :: rest⟩ ts =
        ⟨done, itemPart (readItem room x ts) :: rest⟩

/-- Trees lead from a list to this list with what is read of the trees added. -/
def LeadsInList (text : List Char) (ts : List EventTree) : Prop :=
  ∀ (p : Range) (first : Option Nat) (acc : List Item) (done : List Node)
    (rest : List Unfinished) (room : Nat),
    nestingOf (.list p first acc :: rest) + room = maxNesting → treesFit .list ts = true →
      Builder.run text ⟨done, .list p first acc :: rest⟩ ts =
        ⟨done, .list p first ((readItems room ts).reverse ++ acc) :: rest⟩

theorem LeadsInItem.element {children ts : List EventTree} (hlists : LeadsInList text children)
    (hbehind : LeadsInItem text ts) (tag : Tag) (span stop : Span) :
    LeadsInItem text (.element tag span children stop :: ts) := by
  intro x done rest room hroom hfits
  obtain ⟨⟨inner, hinner, hchildren⟩, hts⟩ := fits_element_iff.mp hfits
  by_cases htag : tag.isInline = true
  · obtain rfl : .text tag.toEnd = inner := by
      cases tag <;> first | exact Option.some.inj hinner | exact absurd htag Bool.false_ne_true
    rw [run_itemInline x htag hroom hchildren, hbehind _ _ _ _ hroom hts]
    rfl
  by_cases hparagraph : tag = .paragraph
  · obtain rfl := hparagraph
    obtain rfl : .text .paragraph = inner := Option.some.inj hinner
    rw [run_itemParagraph x hroom hchildren, hbehind _ _ _ _ hroom hts]
    rfl
  by_cases hlist : ∃ first, tag = .list first
  · obtain ⟨first, rfl⟩ := hlist
    obtain rfl : .list = inner := Option.some.inj hinner
    cases room with
    | zero =>
        rw [run_itemFullList _ first children hroom, hbehind _ _ _ _ hroom hts]
        rfl
    | succ room =>
        rw [run_itemList x first hroom fun p hroom => hlists p first [] _ _ _ hroom hchildren,
          hbehind _ _ _ _ hroom hts]
        rfl
  · rw [run_itemBlock x htag hparagraph (fun first h => hlist ⟨first, h⟩) children room,
      hbehind _ _ _ _ hroom hts]
    rfl

theorem step_listAlone {e : Event} (alone : standsAlone e = true) (p : Range)
    (first : Option Nat) (acc : List Item) (span : Span) :
    Builder.step text ⟨done, .list p first acc :: rest⟩ (e, span) =
      ⟨done, .list p first acc :: rest⟩ := by
  rw [Builder.step_eq, Builder.ends_alone alone, if_neg Bool.false_ne_true]
  refine if_neg ?_
  rintro rfl
  exact absurd alone Bool.false_ne_true

/-- An item of a list. -/
theorem LeadsInList.item {children ts : List EventTree} (hitem : LeadsInItem text children)
    (hbehind : LeadsInList text ts) (span stop : Span) :
    LeadsInList text (.element .item span children stop :: ts) := by
  intro p first acc done rest room hroom hfits
  obtain ⟨⟨inner, hinner, hchildren⟩, hts⟩ := fits_element_iff.mp hfits
  obtain rfl : .item = inner := Option.some.inj hinner
  have hstart : Builder.step text ⟨done, .list p first acc :: rest⟩ (.start .item, span) =
      ⟨done, itemPart (.mk none [] none) :: .list p first acc :: rest⟩ := rfl
  have hadd : ∀ x, Builder.addPart (itemPart x) ⟨done, .list p first acc :: rest⟩ =
      ⟨done, .list p first (x :: acc) :: rest⟩ := by
    rintro ⟨checked, xs, l⟩
    simp [itemPart, Builder.addPart]
  have hend : ∀ x, (itemPart x).awaits = some (Tag.toEnd .item) := by
    rintro ⟨checked, xs, l⟩
    rfl
  have hroom' : ∀ acc, nestingOf (.list p first acc :: rest) + room = maxNesting := fun _ => hroom
  rw [Builder.run_element, hstart, hitem _ _ _ _ hroom hchildren, Builder.step_stop (hend _), hadd,
    hbehind _ _ _ _ _ _ (hroom' _) hts]
  simp [readItems, EventTree.readItems]

/-- What is no item is read through in a list. -/
theorem LeadsInList.through {children ts : List EventTree} (hwithin : LeadsInList text children)
    (hbehind : LeadsInList text ts) {tag : Tag} (hitem : tag ≠ .item) (span stop : Span) :
    LeadsInList text (.element tag span children stop :: ts) := by
  intro p first acc done rest room hroom hfits
  obtain ⟨⟨inner, hinner, hchildren⟩, hts⟩ := fits_element_iff.mp hfits
  have hlist : tag.toEnd ≠ .list := by
    cases tag with
    | list first => exact absurd hinner (Option.some_ne_none inner).symm
    | _ => nofun
  obtain rfl : .list = inner := by
    cases tag <;> first
      | exact Option.some.inj hinner
      | exact absurd rfl hitem
      | exact absurd rfl hlist
  have hstart : Builder.step text ⟨done, .list p first acc :: rest⟩ (.start tag, span) =
      ⟨done, .list p first acc :: rest⟩ := by
    rw [Builder.step_eq, if_neg (by simp [Builder.ends])]
    exact if_neg fun h => hitem (by injection h)
  have hstop : ∀ acc, Builder.step text ⟨done, .list p first acc :: rest⟩
      (.stop tag.toEnd, stop) = ⟨done, .list p first acc :: rest⟩ := by
    intro acc
    rw [Builder.step_eq, Builder.ends_other rfl hlist, if_neg Bool.false_ne_true]
    rfl
  have hroom' : ∀ acc, nestingOf (.list p first acc :: rest) + room = maxNesting := fun _ => hroom
  rw [Builder.run_element, hstart, hwithin _ _ _ _ _ _ hroom hchildren, hstop,
    hbehind _ _ _ _ _ _ (hroom' _) hts, readItems, readItems_through hitem, List.reverse_append,
    List.append_assoc]

theorem leadsInItem_and_leadsInList (text : List Char) (ts : List EventTree) :
    LeadsInItem text ts ∧ LeadsInList text ts := by
  induction ts using trees_induction with
  | nil => exact ⟨fun x done rest room _ _ => rfl, fun p first acc done rest room _ _ => rfl⟩
  | single e alone span ts ih =>
      obtain ⟨hitem, hlist⟩ := ih
      constructor
      · intro x done rest room hroom hfits
        rw [Builder.run_single, step_itemAlone x alone room, hitem _ _ _ _ hroom hfits]
        rfl
      · intro p first acc done rest room hroom hfits
        rw [Builder.run_single, step_listAlone alone, hlist _ _ _ _ _ _ hroom hfits]
        rfl
  | element tag span children stop ts hchildren hts =>
      refine ⟨.element hchildren.2 hts.1 tag span stop, ?_⟩
      by_cases hitem : tag = .item
      · obtain rfl := hitem
        exact .item hchildren.1 hts.2 span stop
      · exact .through hchildren.2 hts.2 hitem span stop

/-- Trees in a list lead from the list to this list with their items added. -/
theorem run_items (ts : List EventTree) : LeadsInList text ts :=
  (leadsInItem_and_leadsInList text ts).2

/-! ### Blocks -/

/-- A block of text, from the part that it begins to its node. -/
theorem run_textBlock {parts : List Unfinished} {tag : Tag} {part : Unfinished} {span : Span}
    {children : List EventTree} {room : Nat} {n : Node}
    (hstart : Builder.step text ⟨done, parts⟩ (.start tag, span) = ⟨done, part :: parts⟩)
    (htext : part.takesTextOnly = true) (hnests : part.nests = false)
    (hend : part.awaits = some tag.toEnd) (hroom : nestingOf parts + room = maxNesting)
    (hchildren : treesFit (.text tag.toEnd) children = true)
    (hadd : Builder.addPart (part.addInlines (readInlines room children)) ⟨done, parts⟩ =
      Builder.addNode n ⟨done, parts⟩) (stop : Span) (ts : List EventTree) :
    Builder.run text ⟨done, parts⟩ (.element tag span children stop :: ts) =
      Builder.run text (Builder.addNode n ⟨done, parts⟩) ts := by
  have hroom' : nestingOf (part :: parts) + room = maxNesting := by
    rwa [nestingOf_cons_of_not_nests hnests]
  rw [Builder.run_element, hstart, run_text children htext hend hroom' hchildren,
    Builder.step_stop ((part.awaits_addInlines _).trans hend), hadd]

/-- A block of lines, from the part that it begins to its node. -/
theorem run_linesBlock {parts : List Unfinished} {tag : Tag} {part : Unfinished} {span : Span}
    {children : List EventTree} {n : Node}
    (hstart : Builder.step text ⟨done, parts⟩ (.start tag, span) = ⟨done, part :: parts⟩)
    (hlines : part.takesLines = true) (hend : part.awaits = some tag.toEnd)
    (hchildren : treesFit (.lines tag.toEnd) children = true)
    (hadd : Builder.addPart (part.addLines (readLines children)) ⟨done, parts⟩ =
      Builder.addNode n ⟨done, parts⟩) (stop : Span) (ts : List EventTree) :
    Builder.run text ⟨done, parts⟩ (.element tag span children stop :: ts) =
      Builder.run text (Builder.addNode n ⟨done, parts⟩) ts := by
  rw [Builder.run_element, hstart, run_lines children hlines hend hchildren,
    Builder.step_stop ((part.awaits_addLines _).trans hend), hadd]

/-- A block that is left out gives the node that stands for it. -/
theorem run_unsupported {parts : List Unfinished} {tag : Tag} {span : Span} {n : Node}
    (hstart : Builder.step text ⟨done, parts⟩ (.start tag, span) =
      ⟨done, .skipped 1 (some n) :: parts⟩) (children : List EventTree) (stop : Span)
    (ts : List EventTree) :
    Builder.run text ⟨done, parts⟩ (.element tag span children stop :: ts) =
      Builder.run text (Builder.addNode n ⟨done, parts⟩) ts := by
  rw [Builder.run_element, hstart, run_skipped children _ Nat.one_pos, step_skipped_stop]
  rfl

section

variable {parts : List Unfinished} (h : takesBlocks parts = true) {room : Nat}
  {children : List EventTree} (span stop : Span) (ts : List EventTree)

include h

theorem run_heading (hroom : nestingOf parts + room = maxNesting) (depth : Nat)
    (anchor : Option String) (hchildren : treesFit (.text .heading) children = true) :
    Builder.run text ⟨done, parts⟩ (.element (.heading depth anchor) span children stop :: ts) =
      Builder.run text (Builder.addNode (.mk (Range.ofSpan text span)
        (.heading depth anchor (readInlines room children))) ⟨done, parts⟩) ts := by
  have hstart : Builder.step text ⟨done, parts⟩ (.start (.heading depth anchor), span) =
      ⟨done, .heading (Range.ofSpan text span) depth anchor [] :: parts⟩ :=
    step_start_block h _ span
  exact run_textBlock hstart rfl rfl rfl hroom hchildren
    (by simp [Unfinished.addInlines, Builder.addPart]) stop ts

theorem run_paragraph (hroom : nestingOf parts + room = maxNesting)
    (hchildren : treesFit (.text .paragraph) children = true) :
    Builder.run text ⟨done, parts⟩ (.element .paragraph span children stop :: ts) =
      Builder.run text (Builder.addNode (.mk (Range.ofSpan text span)
        (.paragraph (readInlines room children))) ⟨done, parts⟩) ts := by
  have hstart : Builder.step text ⟨done, parts⟩ (.start .paragraph, span) =
      ⟨done, .paragraph (Range.ofSpan text span) [] :: parts⟩ :=
    step_start_block h _ span
  exact run_textBlock hstart rfl rfl rfl hroom hchildren
    (by simp [Unfinished.addInlines, Builder.addPart]) stop ts

theorem run_code (info : Option String) (hchildren : treesFit (.lines .code) children = true) :
    Builder.run text ⟨done, parts⟩ (.element (.code info) span children stop :: ts) =
      Builder.run text (Builder.addNode (.mk (Range.ofSpan text span)
        (.code ((info.map Builder.splitInfo).getD (none, none)).1
          ((info.map Builder.splitInfo).getD (none, none)).2
          (String.join (readLines children)))) ⟨done, parts⟩) ts := by
  have hstart : Builder.step text ⟨done, parts⟩ (.start (.code info), span) =
      ⟨done, .code (Range.ofSpan text span) ((info.map Builder.splitInfo).getD (none, none)).1
        ((info.map Builder.splitInfo).getD (none, none)).2 [] :: parts⟩ :=
    step_start_block h _ span
  exact run_linesBlock hstart rfl rfl hchildren
    (by simp [Unfinished.addLines, Builder.addPart, Unfinished.joined]) stop ts

theorem run_html (hchildren : treesFit (.lines .html) children = true) :
    Builder.run text ⟨done, parts⟩ (.element .html span children stop :: ts) =
      Builder.run text (Builder.addNode (.mk (Range.ofSpan text span)
        (.html (String.join (readLines children)))) ⟨done, parts⟩) ts := by
  have hstart : Builder.step text ⟨done, parts⟩ (.start .html, span) =
      ⟨done, .html (Range.ofSpan text span) [] :: parts⟩ :=
    step_start_block h _ span
  exact run_linesBlock hstart rfl rfl hchildren
    (by simp [Unfinished.addLines, Builder.addPart, Unfinished.joined]) stop ts

theorem run_tableBlock (hroom : nestingOf parts + room = maxNesting) (align : List CellAlignment)
    (hchildren : treesFit .table children = true) :
    Builder.run text ⟨done, parts⟩ (.element (.table align) span children stop :: ts) =
      Builder.run text (Builder.addNode (.mk (Range.ofSpan text span)
        (.table ⟨align, (readTable room .empty children).header,
          (readTable room .empty children).rows⟩)) ⟨done, parts⟩) ts := by
  have hstart : Builder.step text ⟨done, parts⟩ (.start (.table align), span) =
      ⟨done, TableSoFar.empty.part (Range.ofSpan text span) align :: parts⟩ :=
    step_start_block h _ span
  have hadd : ∀ t : TableSoFar, Builder.addPart (t.part (Range.ofSpan text span) align)
      ⟨done, parts⟩ = Builder.addNode (.mk (Range.ofSpan text span)
        (.table ⟨align, t.header, t.rows⟩)) ⟨done, parts⟩ := by
    simp [Builder.addPart, TableSoFar.part]
  rw [Builder.run_element, hstart, run_table children _ hroom hchildren, Builder.step_stop rfl,
    hadd]

theorem run_list (hroom : nestingOf parts + (room + 1) = maxNesting) (first : Option Nat)
    (hchildren : treesFit .list children = true) :
    Builder.run text ⟨done, parts⟩ (.element (.list first) span children stop :: ts) =
      Builder.run text (Builder.addNode (.mk (Range.ofSpan text span)
        (.list (.mk first.isSome first (readItems room children)))) ⟨done, parts⟩) ts := by
  have hstart : Builder.step text ⟨done, parts⟩ (.start (.list first), span) =
      ⟨done, .list (Range.ofSpan text span) first [] :: parts⟩ := by
    rw [step_start_block h, Builder.onBlocks, if_neg (not_full hroom.le)]
    rfl
  have hroom' : nestingOf (.list (Range.ofSpan text span) first [] :: parts) + room =
      maxNesting := by
    rw [nestingOf_cons_of_nests rfl]
    omega
  rw [run_listBody hstart (run_items children _ first [] _ _ _ hroom' hchildren), Builder.addPart,
    List.reverse_reverse]
  obtain rfl | ⟨p, children', rest, rfl⟩ := takesBlocks_cases h <;> rfl

theorem run_quote (hroom : nestingOf parts + (room + 1) = maxNesting)
    (hchildren : ∀ p, nestingOf (.quote p [] :: parts) + room = maxNesting →
      Builder.run text ⟨done, .quote p [] :: parts⟩ children =
        addNodes (readNodes text room children) ⟨done, .quote p [] :: parts⟩) :
    Builder.run text ⟨done, parts⟩ (.element .quote span children stop :: ts) =
      Builder.run text (Builder.addNode (.mk (Range.ofSpan text span)
        (.quote (readNodes text room children))) ⟨done, parts⟩) ts := by
  have hstart : Builder.step text ⟨done, parts⟩ (.start .quote, span) =
      ⟨done, .quote (Range.ofSpan text span) [] :: parts⟩ := by
    rw [step_start_block h, Builder.onBlocks, if_neg (not_full hroom.le)]
    rfl
  have hroom' : nestingOf (.quote (Range.ofSpan text span) [] :: parts) + room = maxNesting := by
    rw [nestingOf_cons_of_nests rfl]
    omega
  rw [Builder.run_element, hstart, hchildren _ hroom', addNodes_quote, List.append_nil,
    Builder.step_stop rfl, Builder.addPart, List.reverse_reverse]

/-- A quote or a list where the nesting is full. -/
theorem run_full (hfull : nestingOf parts = maxNesting) {tag : Tag} {name : String}
    (htag : tag = .quote ∧ name = "blockquote" ∨ (∃ first, tag = .list first) ∧ name = "list") :
    Builder.run text ⟨done, parts⟩ (.element tag span children stop :: ts) =
      Builder.run text (Builder.addNode (.mk (Range.ofSpan text span) (.unsupported name))
        ⟨done, parts⟩) ts := by
  have hnesting : maxNesting ≤ Builder.nesting ⟨done, parts⟩ := hfull.ge
  refine run_unsupported ?_ children stop ts
  obtain ⟨rfl, rfl⟩ | ⟨⟨first, rfl⟩, rfl⟩ := htag
  all_goals
    rw [step_start_block h, Builder.onBlocks, if_pos hnesting]
    rfl

end

/-- Blocks are added, in order, where the builder takes blocks. -/
theorem run_nodes (ts : List EventTree) {done : List Node} {parts : List Unfinished} {room : Nat}
    (h : takesBlocks parts = true) (hroom : nestingOf parts + room = maxNesting)
    (hfits : treesFit .blocks ts = true) :
    Builder.run text ⟨done, parts⟩ ts = addNodes (readNodes text room ts) ⟨done, parts⟩ := by
  have hnext : ∀ {done : List Node} {parts : List Unfinished} {room : Nat},
      takesBlocks parts = true → nestingOf parts + room = maxNesting → ∀ n,
        takesBlocks (Builder.addNode n ⟨done, parts⟩).parts = true ∧
          nestingOf (Builder.addNode n ⟨done, parts⟩).parts + room = maxNesting := by
    intro done parts room h hroom n
    obtain ⟨htakes, hnesting⟩ := takesBlocks_addNode h n
    exact ⟨htakes, by rw [hnesting, hroom]⟩
  induction ts using trees_induction generalizing done parts room with
  | nil => rfl
  | single e alone span ts ih =>
      rw [Builder.run_single, step_block h (Builder.ends_alone alone)]
      cases e with
      | start tag | stop tag => exact absurd alone Bool.false_ne_true
      | rule =>
          exact ih (hnext h hroom _).1 (hnext h hroom _).2 hfits
      | _ => exact ih h hroom hfits
  | element tag span children stop ts ihchildren ihts =>
      obtain ⟨⟨inner, hinner, hchildren⟩, hts⟩ := fits_element_iff.mp hfits
      have hbehind : ∀ n, Builder.run text (Builder.addNode n ⟨done, parts⟩) ts =
          addNodes (n :: readNodes text room ts) ⟨done, parts⟩ := fun n =>
        ihts (hnext h hroom n).1 (hnext h hroom n).2 hts
      cases tag with
      | heading depth anchor =>
          obtain rfl : .text .heading = inner := Option.some.inj hinner
          rw [run_heading h span stop ts hroom depth anchor hchildren, hbehind]
          rfl
      | paragraph =>
          obtain rfl : .text .paragraph = inner := Option.some.inj hinner
          rw [run_paragraph h span stop ts hroom hchildren, hbehind]
          rfl
      | code info =>
          obtain rfl : .lines .code = inner := Option.some.inj hinner
          rw [run_code h span stop ts info hchildren, hbehind]
          rfl
      | html =>
          obtain rfl : .lines .html = inner := Option.some.inj hinner
          rw [run_html h span stop ts hchildren, hbehind]
          rfl
      | table align =>
          obtain rfl : .table = inner := Option.some.inj hinner
          rw [run_tableBlock h span stop ts hroom align hchildren, hbehind]
          rfl
      | list first =>
          obtain rfl : .list = inner := Option.some.inj hinner
          cases room with
          | zero =>
              rw [run_full h span stop ts hroom (Or.inr ⟨⟨first, rfl⟩, rfl⟩), hbehind]
              rfl
          | succ room =>
              rw [run_list h span stop ts hroom first hchildren, hbehind]
              rfl
      | quote =>
          obtain rfl : .blocks = inner := Option.some.inj hinner
          cases room with
          | zero =>
              rw [run_full h span stop ts hroom (Or.inl ⟨rfl, rfl⟩), hbehind]
              rfl
          | succ room =>
              rw [run_quote h span stop ts hroom fun p hroom =>
                ihchildren rfl hroom hchildren, hbehind]
              rfl
      | item | tableHead | tableRow | tableCell | strong | emphasis | delete | link url title
      | image url title | other name =>
          rw [run_unsupported (step_start_block h _ span), hbehind]
          rfl

end

/-- The builder makes of well-nested events whose elements fit what is read of their trees. -/
theorem ofEvents_treesEvents (text : List Char) {ts : List EventTree}
    (hfits : treesFit .blocks ts = true) :
    ofEvents text (treesEvents ts) = readNodes text maxNesting ts := by
  have hrun : Builder.run text .start ts = addNodes (readNodes text maxNesting ts) ⟨[], []⟩ :=
    run_nodes ts rfl (Nat.zero_add maxNesting) hfits
  rw [addNodes_outermost, List.append_nil] at hrun
  rw [ofEvents, ← Builder.run, hrun]
  simp [Builder.finish, Builder.leaveAll]

end BlockDoc.Node
