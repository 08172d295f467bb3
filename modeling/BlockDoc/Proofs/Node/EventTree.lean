import BlockDoc.Node.Build

/-!
Well-nested sequences of events as trees. An element is a start and the end that
belongs to it, with everything between them; the other events stand alone. The
sequences in which every end matches the innermost start that waits for one are
exactly the events of such trees. What the builder makes of an element depends
on the place where the element stands. Where it takes no notice of a start, what
lies between this start and its end is read as if both were not there; so in
such a place only elements fit that do not end like the part around them.
-/

namespace BlockDoc.Node

open Markdown (Event Located Tag TagEnd)

/-! ### Trees -/

/-- Whether an event neither begins nor ends anything. -/
def standsAlone : Event → Bool
  | .start _ | .stop _ => false
  | _ => true

/-- An event that stands alone, or an element with what it holds. -/
inductive EventTree where
  | single (e : Event) (alone : standsAlone e = true) (span : Span)
  | element (tag : Tag) (span : Span) (children : List EventTree) (stop : Span)

def EventTree.text (s : String) (span : Span) : EventTree := .single (.text s) rfl span

mutual

def EventTree.events : EventTree → List Located
  | .single e _ span => [(e, span)]
  | .element tag span children stop =>
    (.start tag, span) :: (treesEvents children ++ [(.stop tag.toEnd, stop)])

/-- The events of trees, in order. -/
def treesEvents : List EventTree → List Located
  | [] => []
  | t :: ts => t.events ++ treesEvents ts

end

/-- Induction over trees: an element is reached through what it holds and what stands behind it. -/
@[elab_as_elim]
theorem trees_induction {motive : List EventTree → Prop} (nil : motive [])
    (single : ∀ e alone span ts, motive ts → motive (.single e alone span :: ts))
    (element : ∀ tag span children stop ts, motive children → motive ts →
      motive (.element tag span children stop :: ts)) (ts : List EventTree) : motive ts :=
  match ts with
  | [] => nil
  | .single e alone span :: ts => single e alone span ts (trees_induction nil single element ts)
  | .element tag span children stop :: ts =>
    element tag span children stop ts (trees_induction nil single element children)
      (trees_induction nil single element ts)

/-! ### Well-nested sequences -/

/-- Whether every end in a sequence of events is the one that the innermost open element waits for,
and nothing stays open; the ends that are waited for in front of the sequence stand innermost
first. -/
def closes (waiting : List TagEnd) : List Located → Bool
  | [] => waiting.isEmpty
  | (.start tag, _) :: es => closes (tag.toEnd :: waiting) es
  | (.stop tag, _) :: es => waiting.head? == some tag && closes waiting.tail es
  | _ :: es => closes waiting es

theorem closes_alone {e : Event} (h : standsAlone e = true) (waiting : List TagEnd) (span : Span)
    (es : List Located) : closes waiting ((e, span) :: es) = closes waiting es := by
  cases e with
  | start tag | stop tag => exact absurd h Bool.false_ne_true
  | _ => rfl

/-- Trees leave the ends that are waited for as they are. -/
theorem closes_treesEvents_append (ts : List EventTree) (waiting : List TagEnd)
    (es : List Located) : closes waiting (treesEvents ts ++ es) = closes waiting es := by
  induction ts using trees_induction generalizing waiting es with
  | nil => rfl
  | single e alone span ts ih =>
      rw [treesEvents, EventTree.events, List.singleton_append, List.cons_append,
        closes_alone alone, ih]
  | element tag span children stop ts hchildren hts =>
      rw [treesEvents, EventTree.events, List.cons_append, List.cons_append, closes,
        List.append_assoc, List.append_assoc, hchildren, List.singleton_append, closes,
        List.head?_cons, beq_self_eq_true, Bool.true_and, List.tail_cons, hts]

/-- Up to the first end that the sequence does not begin itself, its events are those of trees. -/
theorem exists_trees {es : List Located} {waiting : List TagEnd} (h : closes waiting es = true) :
    match waiting with
    | [] => ∃ ts, es = treesEvents ts
    | tag :: waiting => ∃ ts stop es', es = treesEvents ts ++ (.stop tag, stop) :: es' ∧
        closes waiting es' = true := by
  match es with
  | [] =>
      cases waiting with
      | nil => exact ⟨[], rfl⟩
      | cons tag waiting => exact absurd h Bool.false_ne_true
  | (.start tag, span) :: es =>
      -- The children go up to the end of this element; what stands behind that end is shorter.
      have hopen : closes (tag.toEnd :: waiting) es = true := h
      obtain ⟨children, stop, es', hes, hes'⟩ := exists_trees hopen
      have hlength : es'.length < es.length := by
        rw [hes, List.length_append, List.length_cons]
        omega
      have hrest := exists_trees hes'
      cases waiting with
      | nil =>
          obtain ⟨ts, rfl⟩ := hrest
          exact ⟨.element tag span children stop :: ts, by simp [hes, treesEvents, EventTree.events]⟩
      | cons tag' waiting =>
          obtain ⟨ts, stop', es'', rfl, hes''⟩ := hrest
          exact ⟨.element tag span children stop :: ts, stop', es'',
            by simp [hes, treesEvents, EventTree.events], hes''⟩
  | (.stop tag, span) :: es =>
      obtain ⟨hhead, htail⟩ := Bool.and_eq_true_iff.mp h
      cases waiting with
      | nil => exact absurd hhead Bool.false_ne_true
      | cons tag' waiting =>
          obtain rfl : tag' = tag := by simpa using hhead
          exact ⟨[], span, es, rfl, htail⟩
  | (.text _, span) :: es | (.code _, span) :: es | (.html _, span) :: es
  | (.inlineHtml _, span) :: es | (.softBreak, span) :: es | (.hardBreak, span) :: es
  | (.rule, span) :: es | (.task _, span) :: es | (.footnoteReference _, span) :: es
  | (.inlineMath _, span) :: es | (.displayMath _, span) :: es =>
      have hbehind : closes waiting es = true := h
      have hrest := exists_trees hbehind
      cases waiting with
      | nil =>
          obtain ⟨ts, rfl⟩ := hrest
          exact ⟨.single _ rfl span :: ts, rfl⟩
      | cons tag waiting =>
          obtain ⟨ts, stop, es', rfl, hes'⟩ := hrest
          exact ⟨.single _ rfl span :: ts, stop, es', rfl, hes'⟩
termination_by es.length

/-- The well-nested sequences of events are those of trees. -/
theorem closes_iff_exists_trees (es : List Located) :
    closes [] es = true ↔ ∃ ts, es = treesEvents ts := by
  constructor
  · exact fun h => exists_trees h
  · rintro ⟨ts, rfl⟩
    simpa [closes] using closes_treesEvents_append ts [] []

/-! ### Places -/

/-- Where an element stands, by what the builder makes of it there. Places within text or within
lines name the end of the part around them. -/
inductive Place where
  | blocks
  | text (tag : TagEnd)
  | lines (tag : TagEnd)
  | list
  | item
  | table
  /-- Within a block that is left out. -/
  | skipped

/-- The place within an element that fits in a place. -/
def Place.within? : Place → Tag → Option Place
  | .blocks, .heading .. => some (.text .heading)
  | .blocks, .paragraph => some (.text .paragraph)
  | .blocks, .code _ => some (.lines .code)
  | .blocks, .html => some (.lines .html)
  | .blocks, .list _ => some .list
  | .blocks, .quote => some .blocks
  | .blocks, .table _ => some .table
  | .blocks, _ => some .skipped
  | .text tagEnd, tag =>
    if tag.isInline then some (.text tag.toEnd)
    else if tag.toEnd = tagEnd then none
    else some (.text tagEnd)
  | .lines tagEnd, tag => if tag.toEnd = tagEnd then none else some (.lines tagEnd)
  | .list, .item => some .item
  | .list, .list _ => none
  | .list, _ => some .list
  | .item, .paragraph => some (.text .paragraph)
  | .item, .list _ => some .list
  | .item, tag => some (if tag.isInline then .text tag.toEnd else .skipped)
  | .table, .tableCell => some (.text .tableCell)
  | .table, .table _ => none
  | .table, _ => some .table
  | .skipped, _ => some .skipped

mutual

def EventTree.fits (place : Place) : EventTree → Bool
  | .single .. => true
  | .element tag _ children _ => (place.within? tag).any fun place => treesFit place children

/-- Whether all elements of trees fit in their places. -/
def treesFit (place : Place) : List EventTree → Bool
  | [] => true
  | t :: ts => t.fits place && treesFit place ts

end

theorem fits_element_iff {place : Place} {tag : Tag} {span stop : Span}
    {children : List EventTree} {ts : List EventTree} :
    treesFit place (.element tag span children stop :: ts) = true ↔
      (∃ inner, place.within? tag = some inner ∧ treesFit inner children = true) ∧
        treesFit place ts = true := by
  rw [treesFit, Bool.and_eq_true_iff, EventTree.fits, Option.any_eq_true]

/-! ### Nesting -/

/-- Whether an element counts towards the nesting. -/
def countsAsNesting : Tag → Bool
  | .quote | .list _ => true
  | tag => tag.isInline

mutual

def EventTree.nesting : EventTree → Nat
  | .single .. => 0
  | .element tag _ children _ => treesNesting children + if countsAsNesting tag then 1 else 0

/-- The greatest number of quotes, lists and elements of text that lie in one another. -/
def treesNesting : List EventTree → Nat
  | [] => 0
  | t :: ts => max t.nesting (treesNesting ts)

end

end BlockDoc.Node
