import BlockDoc.Proofs.Node.Collect

/-!
The builder and the collectors. The builder takes one event after another and
keeps the open parts on a stack. From a part of which something is collected it
comes, over any further events, to the same nodes as from the complete part over
the events that the collector of this part leaves. At the end of the events the
open parts are closed; so it does not matter whether the end of a part is there.
-/

namespace BlockDoc.Node

open Markdown (CellAlignment Event Located Tag TagEnd)

namespace Builder

/-! ### Closing parts at the end -/

@[simp] theorem length_addNode (n : Node) (b : Builder) :
    (b.addNode n).parts.length = b.parts.length := by
  unfold addNode
  split
  · rename_i hparts
    simp [hparts]
  · rfl

@[simp] theorem length_addInline (x : Inline) (b : Builder) :
    (b.addInline x).parts.length = b.parts.length := by
  unfold addInline
  split
  · rename_i hparts
    simp [hparts]
  · rfl

@[simp] theorem length_addPart (u : Unfinished) (b : Builder) :
    (b.addPart u).parts.length = b.parts.length := by
  cases u with
  | cell | list | item | itemText =>
      simp only [addPart]
      split
      · rename_i hparts
        simp [hparts]
      · simp
  | skipped waiting result => cases result <;> simp [addPart]
  | _ => simp [addPart]

/-- At the end the innermost part is closed first. -/
theorem finish_open (u : Unfinished) (done : List Node) (rest : List Unfinished) :
    finish ⟨done, u :: rest⟩ = finish (addPart u ⟨done, rest⟩) := by
  rw [finish, finish, length_addPart]
  rfl

/-- The nodes that a builder comes to over events. -/
def outcome (text : List Char) (b : Builder) (es : List Located) : List Node :=
  (es.foldl (step text) b).finish

theorem outcome_nil (text : List Char) (b : Builder) : outcome text b [] = b.finish := rfl

theorem outcome_cons (text : List Char) (b : Builder) (e : Located) (es : List Located) :
    outcome text b (e :: es) = outcome text (step text b e) es := rfl

end Builder

open Builder

variable {text : List Char}

/-! ### Elements as a whole, and lines -/

section

variable {done : List Node} {rest : List Unfinished}

theorem step_flat_last {e : Event} {waiting : Nat} (h : waitingAfter waiting e = 0)
    (texts : List String) (span : Span) :
    step text ⟨done, .flat waiting texts :: rest⟩ (e, span) =
      addInline (.text (Unfinished.joined ((flatText e).reverse ++ texts))) ⟨done, rest⟩ := by
  rw [step_eq, if_neg (by cases e <;> simp [ends, Unfinished.awaits])]
  have hreverse : (flatText e).reverse = flatText e := by cases e <;> rfl
  rw [hreverse]
  exact if_pos h

theorem step_skipped_last {e : Event} {waiting : Nat} (h : waitingAfter waiting e = 0)
    (result : Option Node) (span : Span) :
    step text ⟨done, .skipped waiting result :: rest⟩ (e, span) =
      addPart (.skipped 0 result) ⟨done, rest⟩ := by
  rw [step_eq, if_neg (by cases e <;> simp [ends, Unfinished.awaits])]
  cases result <;> exact if_pos h

/-- An element of text that lies too deep. -/
theorem outcome_flat (es : List Located) (waiting : Nat) (texts : List String) :
    outcome text ⟨done, .flat waiting texts :: rest⟩ es =
      outcome text (addInline
        (.text (Unfinished.joined ((collectElement waiting es).value.reverse ++ texts)))
        ⟨done, rest⟩) (collectElement waiting es).rest := by
  induction es generalizing waiting texts with
  | nil => exact finish_open _ done rest
  | cons e es ih =>
      obtain ⟨e, span⟩ := e
      rw [outcome_cons, collectElement]
      split_ifs with hlast
      · rw [step_flat_last hlast]
        rfl
      · rw [step_flat e span texts (Nat.pos_of_ne_zero hlast), ih, ← List.append_assoc,
          ← List.reverse_append]
        rfl

/-- A block that is left out. -/
theorem outcome_skipped (es : List Located) (waiting : Nat) (result : Option Node) :
    outcome text ⟨done, .skipped waiting result :: rest⟩ es =
      outcome text (addPart (.skipped 0 result) ⟨done, rest⟩) (collectElement waiting es).rest := by
  induction es generalizing waiting with
  | nil =>
      rw [outcome_nil, finish_open]
      cases result <;> rfl
  | cons e es ih =>
      obtain ⟨e, span⟩ := e
      rw [outcome_cons, collectElement]
      split_ifs with hlast
      · rw [step_skipped_last hlast]
        rfl
      · rw [step_skipped e span result (Nat.pos_of_ne_zero hlast), ih]
        rfl

theorem ends_of_ne {u : Unfinished} {tagEnd : TagEnd} (hend : u.awaits = some tagEnd) {e : Event}
    (h : ¬ e = .stop tagEnd) : ends ⟨done, u :: rest⟩ e = false := by
  cases e with
  | stop tag => exact ends_other hend fun heq => h (congrArg Event.stop heq)
  | _ => rfl

/-- Lines up to the end of their part. -/
theorem outcome_collectLines (es : List Located) {u : Unfinished} {tagEnd : TagEnd}
    (hu : u.takesLines = true) (hend : u.awaits = some tagEnd) :
    outcome text ⟨done, u :: rest⟩ es =
      outcome text (addPart (u.addLines (collectLines tagEnd es).value) ⟨done, rest⟩)
        (collectLines tagEnd es).rest := by
  induction es generalizing u with
  | nil =>
      rw [outcome_nil, finish_open, collectLines, Taken.nothing, u.addLines_nil, outcome_nil]
  | cons e es ih =>
      obtain ⟨e, span⟩ := e
      rw [outcome_cons, collectLines]
      split_ifs with hlast
      · rw [hlast, step_stop hend]
        exact congrArg (fun v => outcome text (addPart v ⟨done, rest⟩) es) u.addLines_nil.symm
      · rw [step_lines hu (ends_of_ne hend hlast),
          ih (by simpa using hu) (by simpa using hend), ← u.addLines_append]
        rfl

end

/-! ### Text -/

mutual

/-- Text up to the end of its part. -/
theorem outcome_collectInlines (es : List Located) {done : List Node} {u : Unfinished}
    {rest : List Unfinished} {tagEnd : TagEnd} (hu : u.takesTextOnly = true)
    (hend : u.awaits = some tagEnd) :
    outcome text ⟨done, u :: rest⟩ es =
      outcome text (addPart
        (u.addInlines (collectInlines (nestingOf (u :: rest)) tagEnd es).value) ⟨done, rest⟩)
        (collectInlines (nestingOf (u :: rest)) tagEnd es).rest := by
  match es with
  | [] =>
      rw [outcome_nil, finish_open, collectInlines, Taken.nothing, u.addInlines_nil, outcome_nil]
  | (e, span) :: es =>
      rw [outcome_cons, collectInlines]
      split_ifs with hlast
      · rw [hlast, step_stop hend]
        exact congrArg (fun v => outcome text (addPart v ⟨done, rest⟩) es) u.addInlines_nil.symm
      · rw [step_text hu (ends_of_ne hend hlast),
          outcome_collectInline e es, outcome_collectInlines _ (by simpa using hu)
            (by simpa using hend), nestingOf_addInlines, ← u.addInlines_append]
        rfl
termination_by 2 * es.length
decreasing_by
  · simp only [List.length_cons]; omega
  · exact Taken.two_mul_length_rest_lt _

/-- One event where text is expected, with the events that belong to it. -/
theorem outcome_collectInline (e : Event) (es : List Located) {done : List Node} {u : Unfinished}
    {rest : List Unfinished} :
    outcome text (onText e ⟨done, u :: rest⟩) es =
      outcome text ⟨done, u.addInlines (collectInline (nestingOf (u :: rest)) e es).value :: rest⟩
        (collectInline (nestingOf (u :: rest)) e es).rest := by
  cases e with
  | start tag =>
      rw [collectInline]
      split_ifs with hinline hfull
      · obtain ⟨part, hpart⟩ := exists_isPartOf hinline
        have hnesting : maxNesting ≤ nesting ⟨done, u :: rest⟩ := hfull
        simp only [onText, hpart.begins, if_pos hnesting, enter]
        rw [outcome_flat, List.append_nil, Unfinished.joined, List.reverse_reverse]
        exact congrArg (fun v => outcome text ⟨done, v :: rest⟩ _) (u.addInlines_singleton _).symm
      · obtain ⟨part, hpart⟩ := exists_isPartOf hinline
        have hnesting : ¬ maxNesting ≤ nesting ⟨done, u :: rest⟩ := hfull
        simp only [onText, hpart.begins, if_neg hnesting, enter]
        rw [outcome_collectInlines es hpart.takesTextOnly hpart.awaits, hpart.added,
          nestingOf_cons_of_nests hpart.nests]
        rfl
      · have hnone : inlinePart? tag = none := by
          cases tag <;> first | rfl | exact absurd rfl hinline
        rw [onText, hnone]
        exact congrArg (fun v => outcome text ⟨done, v :: rest⟩ es) u.addInlines_nil.symm
  | stop tag =>
      rw [collectInline]
      · exact congrArg (fun v => outcome text ⟨done, v :: rest⟩ es) u.addInlines_nil.symm
      · exact nofun
  | _ =>
      rw [onText_alone rfl, collectInline]
      · rfl
      · exact nofun
termination_by 2 * es.length + 1
decreasing_by all_goals omega

end

/-! ### Tables -/

/-- An event in a table that neither ends it nor begins a cell. -/
theorem step_tableEvent {done : List Node} {rest : List Unfinished} {p : Range}
    {align : List CellAlignment} (t : TableSoFar) {e : Event} (hend : ¬ e = .stop .table)
    (hcell : ¬ e = .start .tableCell) (span : Span) :
    step text ⟨done, t.part p align :: rest⟩ (e, span) =
      ⟨done, (t.onEvent e).part p align :: rest⟩ := by
  cases e with
  | start tag => exact step_tableStart t (fun heq => hcell (congrArg Event.start heq)) span
  | stop tag =>
      rw [step_eq, ends_of_ne (u := t.part p align) rfl hend, if_neg Bool.false_ne_true]
      cases tag with
      | tableHead =>
          simp [onEvent, onTable, TableSoFar.part, TableSoFar.onEvent, TableSoFar.close]
      | tableRow =>
          cases hhead : t.inHead <;>
            simp [onEvent, onTable, TableSoFar.part, TableSoFar.onEvent, TableSoFar.close, hhead]
      | _ => rfl
  | _ => exact step_tableAlone t rfl span

theorem outcome_collectTable (es : List Located) {done : List Node} {rest : List Unfinished}
    (p : Range) (align : List CellAlignment) (t : TableSoFar) :
    outcome text ⟨done, t.part p align :: rest⟩ es =
      outcome text (addPart ((collectTable (nestingOf rest) t es).value.part p align) ⟨done, rest⟩)
        (collectTable (nestingOf rest) t es).rest := by
  match es with
  | [] =>
      rw [outcome_nil, finish_open, collectTable, Taken.nothing, outcome_nil]
  | (e, span) :: es =>
      rw [outcome_cons, collectTable]
      split_ifs with hlast hcell
      · rw [hlast, step_stop rfl]
        rfl
      · have hstart : step text ⟨done, t.part p align :: rest⟩ (.start .tableCell, span) =
            ⟨done, .cell [] :: t.part p align :: rest⟩ := rfl
        have hadd : ∀ xs, addPart ((Unfinished.cell []).addInlines xs)
            ⟨done, t.part p align :: rest⟩ =
              ⟨done, { t with row := t.row ++ [xs] }.part p align :: rest⟩ := by
          simp [Unfinished.addInlines, addPart, TableSoFar.part]
        have hnesting : nestingOf (.cell [] :: t.part p align :: rest) = nestingOf rest := rfl
        rw [hcell, hstart, outcome_collectInlines es rfl rfl, hadd, hnesting, outcome_collectTable]
        rfl
      · rw [step_tableEvent t hlast hcell, outcome_collectTable]
        rfl
termination_by es.length
decreasing_by
  · exact Taken.length_rest_lt _
  · exact Nat.lt_succ_self _

/-! ### Items and lists -/

/-- An event that does not end an item is taken by the item. -/
theorem step_item {done : List Node} {rest : List Unfinished} {checked : Option Bool}
    {xs : List Inline} {l : Option ItemList} {e : Event} (hend : ¬ e = .stop .item) (span : Span) :
    step text ⟨done, itemPart (.mk checked xs l) :: rest⟩ (e, span) =
      onItem text e span checked xs.reverse l rest ⟨done, itemPart (.mk checked xs l) :: rest⟩ := by
  rw [step_eq, ends_of_ne (u := itemPart (.mk checked xs l)) rfl hend, if_neg Bool.false_ne_true]
  rfl

/-- A paragraph begins in an item, behind a soft break if the item has text. -/
theorem onItem_paragraph (done : List Node) (rest : List Unfinished) (checked : Option Bool)
    (xs : List Inline) (l : Option ItemList) (span : Span) :
    onItem text (.start .paragraph) span checked xs.reverse l rest
        ⟨done, itemPart (.mk checked xs l) :: rest⟩ =
      ⟨done, .itemText [] :: itemPart (.mk checked (xs ++ paragraphBreak xs) l) :: rest⟩ := by
  cases xs <;> simp [itemPart, onItem, enter, addInline, Unfinished.addInline, paragraphBreak]

mutual

theorem outcome_collectList (es : List Located) {done : List Node} {rest : List Unfinished}
    (p : Range) (first : Option Nat) (acc : List Item) :
    outcome text ⟨done, .list p first acc :: rest⟩ es =
      outcome text (addPart (.list p first
        ((collectList (nestingOf rest + 1) es).value.reverse ++ acc)) ⟨done, rest⟩)
        (collectList (nestingOf rest + 1) es).rest := by
  match es with
  | [] =>
      rw [outcome_nil, finish_open, collectList, Taken.nothing, outcome_nil]
      rfl
  | (e, span) :: es =>
      rw [outcome_cons, collectList]
      split_ifs with hlast hitem
      · rw [hlast, step_stop rfl]
        rfl
      · have hstart : step text ⟨done, .list p first acc :: rest⟩ (.start .item, span) =
            ⟨done, itemPart (.mk none [] none) :: .list p first acc :: rest⟩ := rfl
        have hnesting : nestingOf (.list p first acc :: rest) = nestingOf rest + 1 :=
          nestingOf_cons_of_nests rfl rest
        have hadd : ∀ x : Item, addPart (itemPart x) ⟨done, .list p first acc :: rest⟩ =
            ⟨done, .list p first (x :: acc) :: rest⟩ := by
          rintro ⟨checked, xs, l⟩
          simp [addPart, itemPart]
        rw [hitem, hstart, outcome_collectItem es _, hnesting, hadd, outcome_collectList]
        simp [Taken.behind, Taken.append, Taken.map]
      · have hother : step text ⟨done, .list p first acc :: rest⟩ (e, span) =
            ⟨done, .list p first acc :: rest⟩ := by
          rw [step_eq, ends_of_ne (u := .list p first acc) rfl hlast, if_neg Bool.false_ne_true]
          exact if_neg hitem
        rw [hother, outcome_collectList]
        rfl
termination_by 2 * es.length
decreasing_by
  · simp only [List.length_cons]; omega
  · exact Taken.two_mul_length_rest_lt _
  · simp only [List.length_cons]; omega

theorem outcome_collectItem (es : List Located) (x : Item) {done : List Node}
    {rest : List Unfinished} :
    outcome text ⟨done, itemPart x :: rest⟩ es =
      outcome text (addPart (itemPart (collectItem (nestingOf rest) x es).value) ⟨done, rest⟩)
        (collectItem (nestingOf rest) x es).rest := by
  match es with
  | [] =>
      rw [outcome_nil, finish_open, collectItem, Taken.nothing, outcome_nil]
  | (e, span) :: es =>
      obtain ⟨checked, xs, l⟩ := x
      rw [outcome_cons, collectItem]
      split_ifs with hlast
      · rw [hlast, step_stop rfl]
        rfl
      · rw [step_item hlast, outcome_collectInItem e span checked xs l es, outcome_collectItem]
        rfl
termination_by 2 * es.length
decreasing_by
  · simp only [List.length_cons]; omega
  · exact Taken.two_mul_length_rest_lt _

theorem outcome_collectInItem (e : Event) (span : Span) (checked : Option Bool)
    (xs : List Inline) (l : Option ItemList) (es : List Located) {done : List Node}
    {rest : List Unfinished} :
    outcome text (onItem text e span checked xs.reverse l rest
        ⟨done, itemPart (.mk checked xs l) :: rest⟩) es =
      outcome text ⟨done,
        itemPart (collectInItem (nestingOf rest) e (.mk checked xs l) es).value :: rest⟩
        (collectInItem (nestingOf rest) e (.mk checked xs l) es).rest := by
  have hnesting : ∀ u : Unfinished, u.nests = false → nestingOf (u :: rest) = nestingOf rest :=
    fun u hu => nestingOf_cons_of_not_nests hu rest
  have htext : outcome text (onText e ⟨done, itemPart (.mk checked xs l) :: rest⟩) es =
      outcome text ⟨done, itemPart (.mk checked
        (xs ++ (collectInline (nestingOf rest) e es).value) l) :: rest⟩
        (collectInline (nestingOf rest) e es).rest := by
    rw [outcome_collectInline, hnesting _ rfl, itemPart_addInlines]
  have hskip : ∀ l, outcome text ⟨done, .skipped 1 none :: itemPart (.mk checked xs l) :: rest⟩ es =
      outcome text ⟨done, itemPart (.mk checked xs l) :: rest⟩ (collectElement 1 es).rest :=
    fun l => outcome_skipped es 1 none
  cases e with
  | task state =>
      rw [collectInItem]
      rfl
  | start tag =>
      cases tag with
      | paragraph =>
          have hadd : ∀ ys zs : List Inline, addPart ((Unfinished.itemText []).addInlines zs)
              ⟨done, itemPart (.mk checked ys l) :: rest⟩ =
                ⟨done, itemPart (.mk checked (ys ++ zs) l) :: rest⟩ := by
            simp [Unfinished.addInlines, addPart, itemPart]
          rw [onItem_paragraph, outcome_collectInlines es rfl rfl, hadd, collectInItem,
            nestingOf_cons_of_not_nests rfl, hnesting _ rfl]
          rfl
      | list first =>
          rw [collectInItem]
          split_ifs with hfull
          · have hstart : onItem text (.start (.list first)) span checked xs.reverse l rest
                ⟨done, itemPart (.mk checked xs l) :: rest⟩ =
                  ⟨done, .skipped 1 none :: itemPart (.mk checked xs none) :: rest⟩ := if_pos hfull
            rw [hstart, hskip]
            rfl
          · have hstart : onItem text (.start (.list first)) span checked xs.reverse l rest
                ⟨done, itemPart (.mk checked xs l) :: rest⟩ =
                  ⟨done, .list (Range.ofSpan text span) first [] ::
                    itemPart (.mk checked xs l) :: rest⟩ := if_neg hfull
            have hadd : ∀ p items, addPart (.list p first (List.reverse items))
                ⟨done, itemPart (.mk checked xs l) :: rest⟩ =
                  ⟨done, itemPart (.mk checked xs
                    (some (.mk first.isSome first items))) :: rest⟩ := by
              simp [addPart, itemPart]
            rw [hstart, outcome_collectList, List.append_nil, hnesting _ rfl, hadd]
            rfl
      | strong | emphasis | delete | link url title | image url title =>
          rw [collectInItem_inline]
          · exact htext
          · rfl
      | _ =>
          rw [collectInItem_block]
          · exact hskip l
          · exact Bool.false_ne_true
          · exact nofun
          · exact nofun
  | _ =>
      rw [collectInItem_other]
      · exact htext
      · exact nofun
      · exact nofun
termination_by 2 * es.length + 1

end

/-! ### Blocks -/

/-- A block of text. -/
theorem outcome_textBlock {done : List Node} {parts : List Unfinished} {u : Unfinished}
    {tagEnd : TagEnd} {n : List Inline → Node} (htext : u.takesTextOnly = true)
    (hnests : u.nests = false) (hend : u.awaits = some tagEnd)
    (hadd : ∀ xs, addPart (u.addInlines xs) ⟨done, parts⟩ = addNode (n xs) ⟨done, parts⟩)
    (es : List Located) :
    outcome text ⟨done, u :: parts⟩ es =
      outcome text (addNode (n (collectInlines (nestingOf parts) tagEnd es).value) ⟨done, parts⟩)
        (collectInlines (nestingOf parts) tagEnd es).rest := by
  rw [outcome_collectInlines es htext hend, hadd, nestingOf_cons_of_not_nests hnests]

/-- A block of lines. -/
theorem outcome_linesBlock {done : List Node} {parts : List Unfinished} {u : Unfinished}
    {tagEnd : TagEnd} {n : List String → Node} (hlines : u.takesLines = true)
    (hend : u.awaits = some tagEnd)
    (hadd : ∀ lines, addPart (u.addLines lines) ⟨done, parts⟩ = addNode (n lines) ⟨done, parts⟩)
    (es : List Located) :
    outcome text ⟨done, u :: parts⟩ es =
      outcome text (addNode (n (collectLines tagEnd es).value) ⟨done, parts⟩)
        (collectLines tagEnd es).rest := by
  rw [outcome_collectLines es hlines hend, hadd]

/-- Where blocks are expected, a list that is complete becomes a node. -/
theorem addPart_list {done : List Node} {parts : List Unfinished} (h : takesBlocks parts = true)
    (p : Range) (first : Option Nat) (items : List Item) :
    addPart (.list p first items.reverse) ⟨done, parts⟩ =
      addNode (.mk p (.list (.mk first.isSome first items))) ⟨done, parts⟩ := by
  rw [addPart, List.reverse_reverse]
  obtain rfl | ⟨p, children, rest, rfl⟩ := takesBlocks_cases h <;> rfl

mutual

/-- Blocks in a quote. -/
theorem outcome_collectBlocks (es : List Located) {done : List Node} {rest : List Unfinished}
    (p : Range) (children : List Node) :
    outcome text ⟨done, .quote p children :: rest⟩ es =
      outcome text (addPart (.quote p
        ((collectBlocks text (nestingOf rest + 1) (some .quote) es).value.reverse ++ children))
        ⟨done, rest⟩) (collectBlocks text (nestingOf rest + 1) (some .quote) es).rest := by
  match es with
  | [] =>
      rw [outcome_nil, finish_open, collectBlocks, Taken.nothing, outcome_nil]
      rfl
  | (e, span) :: es =>
      rw [outcome_cons, collectBlocks]
      split_ifs with hlast
      · obtain rfl : e = .stop .quote := by simpa using hlast
        rw [step_stop rfl]
        rfl
      · have hother : ¬ e = .stop .quote := by simpa using hlast
        have hnesting : nestingOf (.quote p children :: rest) = nestingOf rest + 1 :=
          nestingOf_cons_of_nests rfl rest
        rw [step_block rfl (ends_of_ne rfl hother), outcome_collectBlock e span es rfl, hnesting,
          addNodes_quote, outcome_collectBlocks, ← List.append_assoc, ← List.reverse_append]
        rfl
termination_by 2 * es.length
decreasing_by
  · simp only [List.length_cons]; omega
  · exact Taken.two_mul_length_rest_lt _

theorem outcome_collectBlock (e : Event) (span : Span) (es : List Located) {done : List Node}
    {parts : List Unfinished} (h : takesBlocks parts = true) :
    outcome text (onBlocks text e span ⟨done, parts⟩) es =
      outcome text (addNodes (collectBlock text (nestingOf parts) e span es).value ⟨done, parts⟩)
        (collectBlock text (nestingOf parts) e span es).rest := by
  cases e with
  | start tag =>
      cases tag with
      | heading level anchor =>
          rw [collectBlock]
          exact outcome_textBlock (u := .heading (Range.ofSpan text span) level anchor [])
            (n := fun xs => .mk _ (.heading level anchor xs)) rfl rfl rfl
            (by simp [Unfinished.addInlines, addPart]) es
      | paragraph =>
          rw [collectBlock]
          exact outcome_textBlock (u := .paragraph (Range.ofSpan text span) [])
            (n := fun xs => .mk _ (.paragraph xs)) rfl rfl rfl
            (by simp [Unfinished.addInlines, addPart]) es
      | code info =>
          rw [collectBlock]
          exact outcome_linesBlock
            (u := .code (Range.ofSpan text span) ((info.map splitInfo).getD (none, none)).1
              ((info.map splitInfo).getD (none, none)).2 [])
            (n := fun lines => .mk (Range.ofSpan text span)
              (.code ((info.map splitInfo).getD (none, none)).1
                ((info.map splitInfo).getD (none, none)).2 (String.join lines)))
            rfl rfl (by simp [Unfinished.addLines, addPart, Unfinished.joined]) es
      | html =>
          rw [collectBlock]
          exact outcome_linesBlock (u := .html (Range.ofSpan text span) [])
            (n := fun lines => .mk _ (.html (String.join lines))) rfl rfl
            (by simp [Unfinished.addLines, addPart, Unfinished.joined]) es
      | table align =>
          have hstart : onBlocks text (.start (.table align)) span ⟨done, parts⟩ =
              ⟨done, TableSoFar.empty.part (Range.ofSpan text span) align :: parts⟩ := rfl
          have hadd : ∀ t : TableSoFar, addPart (t.part (Range.ofSpan text span) align)
              ⟨done, parts⟩ = addNode (.mk (Range.ofSpan text span)
                (.table ⟨align, t.header, t.rows⟩)) ⟨done, parts⟩ := by
            simp [addPart, TableSoFar.part]
          rw [collectBlock, hstart, outcome_collectTable, hadd]
          rfl
      | list first =>
          rw [collectBlock]
          split_ifs with hfull
          · have hstart : onBlocks text (.start (.list first)) span ⟨done, parts⟩ =
                ⟨done, .skipped 1 (some (.mk (Range.ofSpan text span) (.unsupported "list"))) ::
                  parts⟩ := congrArg (fun u => Builder.mk done (u :: parts)) (if_pos hfull)
            rw [hstart, outcome_skipped]
            rfl
          · have hstart : onBlocks text (.start (.list first)) span ⟨done, parts⟩ =
                ⟨done, .list (Range.ofSpan text span) first [] :: parts⟩ :=
              congrArg (fun u => Builder.mk done (u :: parts)) (if_neg hfull)
            rw [hstart, outcome_collectList, List.append_nil, addPart_list h]
            rfl
      | quote =>
          rw [collectBlock]
          split_ifs with hfull
          · have hstart : onBlocks text (.start .quote) span ⟨done, parts⟩ =
                ⟨done, .skipped 1
                  (some (.mk (Range.ofSpan text span) (.unsupported "blockquote"))) :: parts⟩ :=
              congrArg (fun u => Builder.mk done (u :: parts)) (if_pos hfull)
            rw [hstart, outcome_skipped]
            rfl
          · have hstart : onBlocks text (.start .quote) span ⟨done, parts⟩ =
                ⟨done, .quote (Range.ofSpan text span) [] :: parts⟩ :=
              congrArg (fun u => Builder.mk done (u :: parts)) (if_neg hfull)
            rw [hstart, outcome_collectBlocks, List.append_nil, addPart, List.reverse_reverse]
            rfl
      | _ =>
          rw [collectBlock]
          · exact outcome_skipped es 1 _
          all_goals exact nofun
  | rule =>
      rw [collectBlock]
      rfl
  | _ =>
      rw [collectBlock]
      · rfl
      all_goals exact nofun
termination_by 2 * es.length + 1

end

/-- The blocks of the outermost level take all events. -/
theorem rest_collectBlocks (text : List Char) (depth : Nat) (es : List Located) :
    (collectBlocks text depth none es).rest = [] := by
  match es with
  | [] =>
      rw [collectBlocks]
      rfl
  | (e, span) :: es =>
      rw [collectBlocks, if_neg (by simp)]
      exact rest_collectBlocks text depth (collectBlock text depth e span es).rest
termination_by es.length
decreasing_by exact Taken.length_rest_lt _

/-- The builder makes of events the nodes of recursive descent. -/
theorem outcome_outermost (es : List Located) (done : List Node) :
    outcome text ⟨done, []⟩ es = done.reverse ++ (collectBlocks text 0 none es).value := by
  match es with
  | [] =>
      rw [collectBlocks, Taken.nothing, List.append_nil]
      rfl
  | (e, span) :: es =>
      have hnesting : nestingOf [] = 0 := rfl
      rw [outcome_cons, collectBlocks, if_neg (by simp), step_block rfl (by cases e <;> rfl),
        outcome_collectBlock e span es rfl, addNodes_outermost, outcome_outermost, hnesting]
      simp [Taken.behind, Taken.append]
termination_by es.length
decreasing_by exact Taken.length_rest_lt _

theorem ofEvents_eq_collectBlocks (text : List Char) (es : List Located) :
    ofEvents text es = (collectBlocks text 0 none es).value :=
  outcome_outermost es []

end BlockDoc.Node
