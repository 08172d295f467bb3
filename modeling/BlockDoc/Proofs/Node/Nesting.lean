import BlockDoc.Proofs.Node.Descent

/-!
The nesting of a tree: the greatest number of quotes, lists and elements of text
with children that a path through it passes. A collector at some depth makes
nothing whose nesting exceeds what this depth leaves of the limit; so whatever
the events are, and however the three kinds lie in one another, the nesting of
the tree is within the limit.
-/

namespace BlockDoc.Node

open Markdown (Event Located Tag TagEnd)

/-! ### Nesting of trees -/

mutual

def listNesting : ItemList → Nat
  | .mk _ _ items => listItemsNesting items + 1

def itemNesting : Item → Nat
  | .mk _ xs none => inlinesNesting xs
  | .mk _ xs (some l) => max (inlinesNesting xs) (listNesting l)

def listItemsNesting : List Item → Nat
  | [] => 0
  | x :: xs => max (itemNesting x) (listItemsNesting xs)

end

mutual

def nodeNesting : Node → Nat
  | .mk _ content => contentNesting content

def contentNesting : Content → Nat
  | .heading _ _ xs | .paragraph xs => inlinesNesting xs
  | .table t => inlinesNesting (t.header.flatten ++ t.rows.flatten.flatten)
  | .list l => listNesting l
  | .quote children => nodesNesting children + 1
  | _ => 0

def nodesNesting : List Node → Nat
  | [] => 0
  | n :: ns => max (nodeNesting n) (nodesNesting ns)

end

theorem nodesNesting_append (ns ns' : List Node) :
    nodesNesting (ns ++ ns') = max (nodesNesting ns) (nodesNesting ns') := by
  induction ns with
  | nil => exact (Nat.zero_max _).symm
  | cons n ns ih => rw [List.cons_append, nodesNesting, nodesNesting, ih, Nat.max_assoc]

theorem nodesNesting_singleton (p : Range) (content : Content) :
    nodesNesting [.mk p content] = contentNesting content := by
  rw [nodesNesting, nodesNesting, Nat.max_zero, nodeNesting]

/-- An item passes its text or the list below it. -/
theorem itemNesting_le_iff {checked : Option Bool} {xs : List Inline} {l : Option ItemList}
    {n : Nat} : itemNesting (.mk checked xs l) ≤ n ↔
      inlinesNesting xs ≤ n ∧ ∀ l' ∈ l, listNesting l' ≤ n := by
  cases l with
  | none => simp [itemNesting]
  | some l => simp only [itemNesting, Nat.max_le, Option.mem_some_iff, forall_eq']

theorem inlinesNesting_flatten_le {xss : List (List Inline)} {n : Nat}
    (h : ∀ xs ∈ xss, inlinesNesting xs ≤ n) : inlinesNesting xss.flatten ≤ n := by
  induction xss with
  | nil => exact Nat.zero_le n
  | cons xs xss ih =>
      obtain ⟨hxs, hxss⟩ := List.forall_mem_cons.mp h
      have hrest := ih hxss
      rw [List.flatten_cons, inlinesNesting_append]
      omega

/-- An element around its children adds one at most. -/
theorem inlinesNesting_wrapped_le (tag : Tag) (xs : List Inline) :
    inlinesNesting (wrapped tag xs) ≤ inlinesNesting xs + 1 := by
  cases tag with
  | strong | emphasis | delete | link url title | image url title =>
      simp only [wrapped, inlinesNesting, inlineNesting]
      omega
  | _ => exact Nat.le_succ _

theorem inlinesNesting_leaf (e : Event) : inlinesNesting (Builder.inlineLeaf? e).toList = 0 := by
  cases e <;> rfl

/-! ### Text -/

mutual

theorem inlinesNesting_collectInlines (depth : Nat) (tagEnd : TagEnd) (es : List Located) :
    inlinesNesting (collectInlines depth tagEnd es).value ≤ maxNesting - depth := by
  match es with
  | [] =>
      rw [collectInlines]
      exact Nat.zero_le _
  | (e, span) :: es =>
      rw [collectInlines]
      split_ifs
      · exact Nat.zero_le _
      · have hfirst := inlinesNesting_collectInline depth e es
        have hmore := inlinesNesting_collectInlines depth tagEnd (collectInline depth e es).rest
        simp only [Taken.value_behind, Taken.value_append, inlinesNesting_append]
        omega
termination_by 2 * es.length
decreasing_by
  · simp only [List.length_cons]; omega
  · exact Taken.two_mul_length_rest_lt _

theorem inlinesNesting_collectInline (depth : Nat) (e : Event) (es : List Located) :
    inlinesNesting (collectInline depth e es).value ≤ maxNesting - depth := by
  have hleaf : inlinesNesting (Builder.inlineLeaf? e).toList ≤ maxNesting - depth := by
    rw [inlinesNesting_leaf]
    exact Nat.zero_le _
  cases e with
  | start tag =>
      rw [collectInline]
      split_ifs with hinline hfull
      · exact Nat.zero_le _
      · have hchildren := inlinesNesting_collectInlines (depth + 1) tag.toEnd es
        have hwrapped := inlinesNesting_wrapped_le tag
          (collectInlines (depth + 1) tag.toEnd es).value
        rw [Taken.value_map]
        omega
      · exact Nat.zero_le _
  | _ =>
      rw [collectInline]
      · exact hleaf
      · exact nofun
termination_by 2 * es.length + 1
decreasing_by omega

end

/-! ### Tables -/

namespace TableSoFar

/-- All cells of a table up to some event. -/
def cells (t : TableSoFar) : List (List Inline) := t.header ++ t.rows.flatten ++ t.row

/-- An event in a table adds no cell. -/
theorem cells_onEvent_subset (t : TableSoFar) (e : Event) : (t.onEvent e).cells ⊆ t.cells := by
  intro xs hxs
  cases e with
  | start tag =>
      cases tag with
      | tableRow =>
          simp only [onEvent, begin, cells, List.append_nil] at hxs
          exact List.mem_append_left _ hxs
      | _ => exact hxs
  | stop tag =>
      cases tag with
      | tableHead =>
          simp only [onEvent, close, cells, List.append_nil, List.mem_append] at hxs ⊢
          tauto
      | tableRow =>
          simp only [onEvent, close] at hxs
          split_ifs at hxs
          · exact hxs
          · simpa [cells] using hxs
      | _ => exact hxs
  | _ => exact hxs

end TableSoFar

theorem inlinesNesting_collectTable (depth : Nat) (t : TableSoFar) (es : List Located)
    (h : ∀ xs ∈ t.cells, inlinesNesting xs ≤ maxNesting - depth) :
    ∀ xs ∈ (collectTable depth t es).value.cells, inlinesNesting xs ≤ maxNesting - depth := by
  match es with
  | [] =>
      rw [collectTable]
      exact h
  | (e, span) :: es =>
      rw [collectTable]
      split_ifs
      · exact h
      · have hcell := inlinesNesting_collectInlines depth .tableCell es
        refine inlinesNesting_collectTable depth _ (collectInlines depth .tableCell es).rest ?_
        intro xs hxs
        simp only [TableSoFar.cells, ← List.append_assoc, List.mem_append,
          List.mem_singleton] at hxs
        obtain hxs | rfl := hxs
        · exact h xs (by simpa [TableSoFar.cells, or_assoc] using hxs)
        · exact hcell
      · exact inlinesNesting_collectTable depth (t.onEvent e) es fun xs hxs =>
          h xs (t.cells_onEvent_subset e hxs)
termination_by es.length
decreasing_by
  · exact Taken.length_rest_lt _
  · exact Nat.lt_succ_self _

/-! ### Items and lists -/

mutual

theorem listItemsNesting_collectList (depth : Nat) (es : List Located) :
    listItemsNesting (collectList depth es).value ≤ maxNesting - depth := by
  match es with
  | [] =>
      rw [collectList]
      exact Nat.zero_le _
  | (e, span) :: es =>
      rw [collectList]
      split_ifs
      · exact Nat.zero_le _
      · have hfirst : itemNesting (collectItem depth (.mk none [] none) es).value ≤
            maxNesting - depth :=
          itemNesting_collectItem depth (.mk none [] none) es (Nat.zero_le _)
        have hmore := listItemsNesting_collectList depth
          (collectItem depth (.mk none [] none) es).rest
        exact Nat.max_le.mpr ⟨hfirst, hmore⟩
      · exact listItemsNesting_collectList depth es
termination_by 2 * es.length
decreasing_by
  all_goals first
    | exact Taken.two_mul_length_rest_lt _
    | (simp only [List.length_cons]; omega)

theorem itemNesting_collectItem (depth : Nat) (x : Item) (es : List Located)
    (h : itemNesting x ≤ maxNesting - depth) :
    itemNesting (collectItem depth x es).value ≤ maxNesting - depth := by
  match es with
  | [] =>
      rw [collectItem]
      exact h
  | (e, span) :: es =>
      rw [collectItem]
      split_ifs
      · exact h
      · have hnext := itemNesting_collectInItem depth e x es h
        exact itemNesting_collectItem depth _ (collectInItem depth e x es).rest hnext
termination_by 2 * es.length
decreasing_by
  · simp only [List.length_cons]; omega
  · exact Taken.two_mul_length_rest_lt _

theorem itemNesting_collectInItem (depth : Nat) (e : Event) (x : Item) (es : List Located)
    (h : itemNesting x ≤ maxNesting - depth) :
    itemNesting (collectInItem depth e x es).value ≤ maxNesting - depth := by
  obtain ⟨checked, xs, l⟩ := x
  obtain ⟨hxs, hl⟩ := itemNesting_le_iff.mp h
  have htext : ∀ ys, inlinesNesting ys ≤ maxNesting - depth →
      itemNesting (.mk checked (xs ++ ys) l) ≤ maxNesting - depth := by
    intro ys hys
    refine itemNesting_le_iff.mpr ⟨?_, hl⟩
    rw [inlinesNesting_append]
    omega
  cases e with
  | task state =>
      rw [collectInItem]
      exact itemNesting_le_iff.mpr ⟨hxs, hl⟩
  | start tag =>
      cases tag with
      | paragraph =>
          have hys := inlinesNesting_collectInlines depth .paragraph es
          have hbreak : inlinesNesting (paragraphBreak xs) = 0 := by cases xs <;> rfl
          rw [collectInItem]
          refine itemNesting_le_iff.mpr ⟨?_, hl⟩
          rw [inlinesNesting_append, inlinesNesting_append]
          omega
      | list first =>
          rw [collectInItem]
          split_ifs with hfull
          · exact itemNesting_le_iff.mpr ⟨hxs, nofun⟩
          · have hitems := listItemsNesting_collectList (depth + 1) es
            refine itemNesting_le_iff.mpr ⟨hxs, ?_⟩
            intro l' hl'
            obtain rfl := Option.mem_some_iff.mp hl'
            rw [listNesting]
            omega
      | strong | emphasis | delete | link url title | image url title =>
          rw [collectInItem_inline]
          · exact htext _ (inlinesNesting_collectInline depth _ es)
          · rfl
      | _ =>
          rw [collectInItem_block]
          · exact h
          · exact Bool.false_ne_true
          · exact nofun
          · exact nofun
  | _ =>
      rw [collectInItem_other]
      · exact htext _ (inlinesNesting_collectInline depth _ es)
      · exact nofun
      · exact nofun
termination_by 2 * es.length + 1

end

/-! ### Blocks -/

mutual

theorem nodesNesting_collectBlocks (text : List Char) (depth : Nat) (awaited : Option TagEnd)
    (es : List Located) :
    nodesNesting (collectBlocks text depth awaited es).value ≤ maxNesting - depth := by
  match es with
  | [] =>
      rw [collectBlocks]
      exact Nat.zero_le _
  | (e, span) :: es =>
      rw [collectBlocks]
      split_ifs
      · exact Nat.zero_le _
      · have hfirst := nodesNesting_collectBlock text depth e span es
        have hmore := nodesNesting_collectBlocks text depth awaited
          (collectBlock text depth e span es).rest
        simp only [Taken.value_behind, Taken.value_append, nodesNesting_append]
        omega
termination_by 2 * es.length
decreasing_by
  · simp only [List.length_cons]; omega
  · exact Taken.two_mul_length_rest_lt _

theorem nodesNesting_collectBlock (text : List Char) (depth : Nat) (e : Event) (span : Span)
    (es : List Located) :
    nodesNesting (collectBlock text depth e span es).value ≤ maxNesting - depth := by
  have hnode : ∀ {p : Range} {content : Content}, contentNesting content ≤ maxNesting - depth →
      nodesNesting [.mk p content] ≤ maxNesting - depth := fun h =>
    (nodesNesting_singleton _ _).trans_le h
  cases e with
  | start tag =>
      cases tag with
      | heading level anchor | paragraph =>
          rw [collectBlock]
          exact hnode (inlinesNesting_collectInlines depth _ es)
      | table align =>
          have hcells := inlinesNesting_collectTable depth .empty es nofun
          rw [collectBlock]
          refine hnode ?_
          rw [contentNesting, ← List.flatten_append]
          exact inlinesNesting_flatten_le fun xs hxs => hcells xs (List.mem_append_left _ hxs)
      | list first =>
          rw [collectBlock]
          split_ifs with hfull
          · exact hnode (Nat.zero_le _)
          · have hitems := listItemsNesting_collectList (depth + 1) es
            refine hnode ?_
            rw [contentNesting, listNesting]
            omega
      | quote =>
          rw [collectBlock]
          split_ifs with hfull
          · exact hnode (Nat.zero_le _)
          · have hchildren := nodesNesting_collectBlocks text (depth + 1) (some .quote) es
            refine hnode ?_
            rw [contentNesting]
            omega
      | _ =>
          rw [collectBlock]
          · exact hnode (Nat.zero_le _)
          all_goals exact nofun
  | rule =>
      rw [collectBlock]
      exact hnode (Nat.zero_le _)
  | _ =>
      rw [collectBlock]
      · exact Nat.zero_le _
      all_goals exact nofun
termination_by 2 * es.length + 1

end

/-- The collector of the outermost blocks takes all events and makes the nodes that the builder
makes of them; on no path do more quotes, lists and elements of text lie in one another than the
limit allows. -/
theorem nesting_ofEvents_le (text : List Char) (es : List Located) :
    (collectBlocks text 0 none es).rest = [] ∧
      ofEvents text es = (collectBlocks text 0 none es).value ∧
      nodesNesting (ofEvents text es) ≤ maxNesting := by
  refine ⟨rest_collectBlocks text 0 es, ofEvents_eq_collectBlocks text es, ?_⟩
  rw [ofEvents_eq_collectBlocks]
  exact nodesNesting_collectBlocks text 0 none es

end BlockDoc.Node
