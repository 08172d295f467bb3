import BlockDoc.Proofs.Node.ReadBlocks

/-!
The tree of events by recursive descent. A collector takes events up to the end
that it waits for and leaves those behind it; what begins on the way is taken by
further collectors. Without such an end it takes all events. The depth is the
number of quotes, lists and elements of text around a collector.
-/

namespace BlockDoc.Node

open Markdown (Event Located Tag TagEnd)

/-! ### What is taken -/

/-- What is made of the first ones of some events, and the events behind them. -/
structure Taken (α : Type) (es : List Located) where
  value : α
  rest : List Located
  isSuffix : rest <:+ es

namespace Taken

variable {α β : Type} {e : Located} {es : List Located}

/-- No event is taken. -/
def nothing (a : α) : Taken α es := ⟨a, es, List.suffix_refl es⟩

def map (f : α → β) (t : Taken α es) : Taken β es := ⟨f t.value, t.rest, t.isSuffix⟩

/-- One event more is taken in front. -/
def behind (t : Taken α es) : Taken α (e :: es) :=
  ⟨t.value, t.rest, t.isSuffix.trans (List.suffix_cons e es)⟩

/-- More is taken, which continues what was made so far. -/
def followed (t : Taken α es) (more : Taken β t.rest) : Taken β es :=
  ⟨more.value, more.rest, more.isSuffix.trans t.isSuffix⟩

/-- More is taken, and added to what was made so far. -/
def append (t : Taken (List α) es) (more : Taken (List α) t.rest) : Taken (List α) es :=
  ⟨t.value ++ more.value, more.rest, more.isSuffix.trans t.isSuffix⟩

@[simp] theorem value_map (f : α → β) (t : Taken α es) : (t.map f).value = f t.value := rfl

@[simp] theorem value_behind (t : Taken α es) : (t.behind : Taken α (e :: es)).value = t.value := rfl

@[simp] theorem value_append (t : Taken (List α) es) (more : Taken (List α) t.rest) :
    (t.append more).value = t.value ++ more.value := rfl

/-- Behind what is taken there are fewer events than with one event more in front. -/
theorem length_rest_lt (t : Taken α es) : t.rest.length < (e :: es).length :=
  Nat.lt_succ_of_le t.isSuffix.length_le

theorem two_mul_length_rest_lt (t : Taken α es) : 2 * t.rest.length < 2 * (e :: es).length :=
  Nat.mul_lt_mul_of_pos_left t.length_rest_lt Nat.two_pos

end Taken

/-! ### Elements as a whole, and lines -/

/-- The text up to the event with which no start waits for an end any more. -/
def collectElement (waiting : Nat) : (es : List Located) → Taken (List String) es
  | [] => .nothing []
  | (e, _) :: es =>
    if Builder.waitingAfter waiting e = 0 then (Taken.nothing (Builder.flatText e)).behind
    else
      let more := collectElement (Builder.waitingAfter waiting e) es
      (more.map (Builder.flatText e ++ ·)).behind

/-- The lines of code or HTML. -/
def collectLines (tagEnd : TagEnd) : (es : List Located) → Taken (List String) es
  | [] => .nothing []
  | (e, _) :: es =>
    if e = .stop tagEnd then (Taken.nothing []).behind
    else ((collectLines tagEnd es).map (lineText e ++ ·)).behind

/-! ### Text -/

mutual

/-- The elements of text. -/
def collectInlines (depth : Nat) (tagEnd : TagEnd) (es : List Located) : Taken (List Inline) es :=
  match es with
  | [] => .nothing []
  | (e, _) :: es =>
    if e = .stop tagEnd then (Taken.nothing []).behind
    else
      let first := collectInline depth e es
      (first.append (collectInlines depth tagEnd first.rest)).behind
termination_by 2 * es.length
decreasing_by
  · simp only [List.length_cons]; omega
  · exact Taken.two_mul_length_rest_lt _

/-- What an event where text is expected makes, with the events behind it: no element of text, or
one. -/
def collectInline (depth : Nat) (e : Event) (es : List Located) : Taken (List Inline) es :=
  match e with
  | .start tag =>
    if tag.isInline then
      if maxNesting ≤ depth then
        (collectElement 1 es).map fun texts => [.text (String.join texts)]
      else (collectInlines (depth + 1) tag.toEnd es).map (wrapped tag)
    else .nothing []
  | e => .nothing (Builder.inlineLeaf? e).toList
termination_by 2 * es.length + 1

end

/-! ### Tables -/

/-- An event in a table, the start of a cell apart. -/
def TableSoFar.onEvent (t : TableSoFar) : Event → TableSoFar
  | .start tag => t.begin tag
  | .stop .tableHead => t.close .tableHead
  | .stop .tableRow => t.close .tableRow
  | _ => t

/-- The rows of a table. -/
def collectTable (depth : Nat) (t : TableSoFar) (es : List Located) : Taken TableSoFar es :=
  match es with
  | [] => .nothing t
  | (e, _) :: es =>
    if e = .stop .table then (Taken.nothing t).behind
    else if e = .start .tableCell then
      let cell := collectInlines depth .tableCell es
      (cell.followed (collectTable depth { t with row := t.row ++ [cell.value] } cell.rest)).behind
    else (collectTable depth (t.onEvent e) es).behind
termination_by es.length
decreasing_by
  · exact Taken.length_rest_lt _
  · exact Nat.lt_succ_self _

/-! ### Items and lists -/

mutual

/-- The items of a list. -/
def collectList (depth : Nat) (es : List Located) : Taken (List Item) es :=
  match es with
  | [] => .nothing []
  | (e, _) :: es =>
    if e = .stop .list then (Taken.nothing []).behind
    else if e = .start .item then
      let first := collectItem depth (.mk none [] none) es
      ((first.map ([·])).append (collectList depth first.rest)).behind
    else (collectList depth es).behind
termination_by 2 * es.length
decreasing_by
  · simp only [List.length_cons]; omega
  · exact Taken.two_mul_length_rest_lt _
  · simp only [List.length_cons]; omega

/-- An item of which some part is collected. -/
def collectItem (depth : Nat) (x : Item) (es : List Located) : Taken Item es :=
  match es with
  | [] => .nothing x
  | (e, _) :: es =>
    if e = .stop .item then (Taken.nothing x).behind
    else
      let next := collectInItem depth e x es
      (next.followed (collectItem depth next.value next.rest)).behind
termination_by 2 * es.length
decreasing_by
  · simp only [List.length_cons]; omega
  · exact Taken.two_mul_length_rest_lt _

/-- What an event, with the events behind it, makes of an item of which some part is collected. -/
def collectInItem (depth : Nat) (e : Event) (x : Item) (es : List Located) : Taken Item es :=
  match e, x with
  | .task state, .mk _ xs l => .nothing (.mk (some state) xs l)
  | .start .paragraph, .mk checked xs l =>
    (collectInlines depth .paragraph es).map fun ys =>
      .mk checked (xs ++ paragraphBreak xs ++ ys) l
  | .start (.list first), .mk checked xs _ =>
    if maxNesting ≤ depth then (collectElement 1 es).map fun _ => .mk checked xs none
    else (collectList (depth + 1) es).map fun items =>
      .mk checked xs (some (.mk first.isSome first items))
  | .start tag, .mk checked xs l =>
    if tag.isInline then
      (collectInline depth (.start tag) es).map fun ys => .mk checked (xs ++ ys) l
    else (collectElement 1 es).map fun _ => .mk checked xs l
  | e, .mk checked xs l => (collectInline depth e es).map fun ys => .mk checked (xs ++ ys) l
termination_by 2 * es.length + 1

end

section

variable (depth : Nat) (checked : Option Bool) (xs : List Inline) (l : Option ItemList)
  (es : List Located)

theorem collectInItem_inline {tag : Tag} (h : tag.isInline = true) :
    collectInItem depth (.start tag) (.mk checked xs l) es =
      (collectInline depth (.start tag) es).map fun ys => .mk checked (xs ++ ys) l := by
  rw [collectInItem, if_pos h]
  · rintro rfl
    exact absurd h Bool.false_ne_true
  · rintro first rfl
    exact absurd h Bool.false_ne_true

theorem collectInItem_block {tag : Tag} (h : ¬ tag.isInline = true) (hparagraph : tag ≠ .paragraph)
    (hlist : ∀ first, tag ≠ .list first) :
    collectInItem depth (.start tag) (.mk checked xs l) es =
      (collectElement 1 es).map fun _ => .mk checked xs l := by
  rw [collectInItem, if_neg h]
  · exact hparagraph
  · exact hlist

theorem collectInItem_other {e : Event} (hstart : ∀ tag, e ≠ .start tag)
    (htask : ∀ state, e ≠ .task state) :
    collectInItem depth e (.mk checked xs l) es =
      (collectInline depth e es).map fun ys => .mk checked (xs ++ ys) l := by
  rw [collectInItem]
  · exact htask
  · exact hstart .paragraph
  · exact fun first => hstart (.list first)
  · exact hstart

end

/-! ### Blocks -/

mutual

/-- The nodes of blocks, up to an end if one is waited for. -/
def collectBlocks (text : List Char) (depth : Nat) (awaited : Option TagEnd) (es : List Located) :
    Taken (List Node) es :=
  match es with
  | [] => .nothing []
  | (e, span) :: es =>
    if awaited.any (e = .stop ·) then (Taken.nothing []).behind
    else
      let first := collectBlock text depth e span es
      (first.append (collectBlocks text depth awaited first.rest)).behind
termination_by 2 * es.length
decreasing_by
  · simp only [List.length_cons]; omega
  · exact Taken.two_mul_length_rest_lt _

/-- What an event where blocks are expected makes, with the events behind it: no node, or one. -/
def collectBlock (text : List Char) (depth : Nat) (e : Event) (span : Span) (es : List Located) :
    Taken (List Node) es :=
  let node (content : Content) : List Node := [.mk (Range.ofSpan text span) content]
  match e with
  | .start (.heading level anchor) =>
    (collectInlines depth .heading es).map fun xs => node (.heading level anchor xs)
  | .start .paragraph => (collectInlines depth .paragraph es).map fun xs => node (.paragraph xs)
  | .start (.code info) =>
    let (language, details) := (info.map Builder.splitInfo).getD (none, none)
    (collectLines .code es).map fun lines => node (.code language details (String.join lines))
  | .start .html => (collectLines .html es).map fun lines => node (.html (String.join lines))
  | .start (.table align) =>
    (collectTable depth .empty es).map fun t => node (.table ⟨align, t.header, t.rows⟩)
  | .start (.list first) =>
    if maxNesting ≤ depth then (collectElement 1 es).map fun _ => node (.unsupported "list")
    else (collectList (depth + 1) es).map fun items =>
      node (.list (.mk first.isSome first items))
  | .start .quote =>
    if maxNesting ≤ depth then (collectElement 1 es).map fun _ => node (.unsupported "blockquote")
    else (collectBlocks text (depth + 1) (some .quote) es).map fun children =>
      node (.quote children)
  | .start tag =>
    (collectElement 1 es).map fun _ => node (.unsupported (Builder.unsupportedName tag))
  | .rule => .nothing (node .thematicBreak)
  | _ => .nothing []
termination_by 2 * es.length + 1

end

end BlockDoc.Node
