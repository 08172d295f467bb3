import BlockDoc.Node.Build
import Mathlib.Data.List.Forall2

/-!
Trees of texts with the events that show them. A passage is a block as it is
written: an item of a list has bare text or paragraphs, and code has the text
behind its fence. Its events say where the blocks begin; all other events may
stand anywhere, since nothing of a tree depends on where they stand. Its node
is what the passage is in the tree of the text.
-/

namespace BlockDoc.Node

open Markdown (CellAlignment Event Located inlinesEvents)

/-! ### Events -/

/-- Events, each with its stretch if the tree depends on where it stands. -/
abbrev Sketch := List (Event × Option Span)

/-- Events that may stand anywhere. -/
def anywhere (es : List Event) : Sketch := es.map (·, none)

/-- Whether an event at a stretch is the given one, at the given stretch if there is one. -/
structure Fits (x : Event × Option Span) (located : Located) : Prop where
  event : located.1 = x.1
  span : ∀ span ∈ x.2, located.2 = span

instance (x : Event × Option Span) (located : Located) : Decidable (Fits x located) :=
  decidable_of_iff (located.1 = x.1 ∧ ∀ span ∈ x.2, located.2 = span)
    ⟨fun h => ⟨h.1, h.2⟩, fun h => ⟨h.event, h.span⟩⟩

/-- Whether events at stretches are the given ones. -/
def Shows (es : Sketch) (located : List Located) : Prop := List.Forall₂ Fits es located

instance (es : Sketch) (located : List Located) : Decidable (Shows es located) :=
  inferInstanceAs (Decidable (List.Forall₂ Fits es located))

/-! ### Passages -/

/-- How the text behind a fence reads: its first word, and what follows that word. Indented code has
no such text. -/
inductive InfoReads : Option String → Option String → Option String → Prop where
  | indented : InfoReads none none none
  | blank {blanks : List Char} (h : ∀ c ∈ blanks, Text.isBlank c = true) :
    InfoReads (some (String.ofList blanks)) none none
  | word {before language behind : List Char} (hbefore : ∀ c ∈ before, Text.isBlank c = true)
    (hlanguage : language ≠ []) (hword : ∀ c ∈ language, Text.isBlank c = false)
    (hbehind : ∀ c ∈ behind, Text.isBlank c = true) :
    InfoReads (some (String.ofList (before ++ language ++ behind)))
      (some (String.ofList language)) none
  | words {before language gap details behind : List Char}
    (hbefore : ∀ c ∈ before, Text.isBlank c = true)
    (hlanguage : language ≠ []) (hword : ∀ c ∈ language, Text.isBlank c = false)
    (hgap : gap ≠ []) (hblank : ∀ c ∈ gap, Text.isBlank c = true)
    (hdetails : details ≠ []) (hhead : ∀ c ∈ details.head?, Text.isBlank c = false)
    (hlast : ∀ c ∈ details.getLast?, Text.isBlank c = false)
    (hbehind : ∀ c ∈ behind, Text.isBlank c = true) :
    InfoReads (some (String.ofList (before ++ (language ++ (gap ++ details)) ++ behind)))
      (some (String.ofList language)) (some (String.ofList details))

/-- The text of an item. -/
inductive ItemText where
  /-- Text of a tight item, behind the mark of a task if the item is one. -/
  | bare (task : Option Bool) (children : List Inline)
  | paragraphs (ps : List (List Inline)) (nonempty : ps ≠ []) (filled : ∀ xs ∈ ps, xs ≠ [])

mutual

/-- A list as it is written. -/
inductive ListPassage where
  | mk (span : Span) (first : Option Nat) (items : List ItemPassage)

/-- An item as it is written. -/
inductive ItemPassage where
  | mk (text : ItemText) (sublist : Option ListPassage)

end

/-- A block as it is written. -/
inductive Passage where
  | heading (span : Span) (depth : Nat) (anchor : Option String) (children : List Inline)
  | paragraph (span : Span) (children : List Inline)
  | code (span : Span) (info language details : Option String)
    (reads : InfoReads info language details) (texts : List String)
  | html (span : Span) (texts : List String)
  | rule (span : Span)
  | table (span : Span) (t : Table)
  | quote (span : Span) (children : List Passage)
  | list (l : ListPassage)

/-! ### The events of passages -/

/-- Texts of an item that stand in paragraphs. -/
def paragraphsEvents (ps : List (List Inline)) : Sketch :=
  ps.flatMap fun xs => anywhere (.start .paragraph :: inlinesEvents xs [.stop .paragraph])

namespace ItemText

def events : ItemText → Sketch
  | bare none children => anywhere (inlinesEvents children [])
  | bare (some checked) children => anywhere (.task checked :: inlinesEvents children [])
  | paragraphs ps _ _ => paragraphsEvents ps

end ItemText

mutual

def ListPassage.events : ListPassage → Sketch
  | .mk span first items =>
    (.start (.list first), some span) :: (itemsEvents items ++ [(.stop .list, none)])

def ItemPassage.events : ItemPassage → Sketch
  | .mk text none => (.start .item, none) :: (text.events ++ [(.stop .item, none)])
  | .mk text (some l) =>
    (.start .item, none) :: (text.events ++ (l.events ++ [(.stop .item, none)]))

def itemsEvents : List ItemPassage → Sketch
  | [] => []
  | x :: xs => x.events ++ itemsEvents xs

end

/-- The cells of a row. -/
def cellsEvents (cells : List (List Inline)) : Sketch :=
  cells.flatMap fun xs => anywhere (.start .tableCell :: inlinesEvents xs [.stop .tableCell])

/-- The rows of a table behind its header. -/
def rowsEvents (rows : List (List (List Inline))) : Sketch :=
  rows.flatMap fun cells =>
    (.start .tableRow, none) :: (cellsEvents cells ++ [(.stop .tableRow, none)])

mutual

def Passage.events : Passage → Sketch
  | .heading span depth anchor children =>
    (.start (.heading depth anchor), some span) ::
      anywhere (inlinesEvents children [.stop .heading])
  | .paragraph span children =>
    (.start .paragraph, some span) :: anywhere (inlinesEvents children [.stop .paragraph])
  | .code span info _ _ _ texts =>
    (.start (.code info), some span) :: (anywhere (texts.map .text) ++ [(.stop .code, none)])
  | .html span texts =>
    (.start .html, some span) :: (anywhere (texts.map .html) ++ [(.stop .html, none)])
  | .rule span => [(.rule, some span)]
  | .table span t =>
    (.start (.table t.align), some span) :: (.start .tableHead, none) ::
      (cellsEvents t.header ++ (.stop .tableHead, none) :: (rowsEvents t.rows ++
        [(.stop .table, none)]))
  | .quote span children =>
    (.start .quote, some span) :: (passagesEvents children ++ [(.stop .quote, none)])
  | .list l => l.events

def passagesEvents : List Passage → Sketch
  | [] => []
  | p :: ps => p.events ++ passagesEvents ps

end

/-! ### The nodes of passages -/

namespace ItemText

/-- The state of the task, if the item is one. -/
def task : ItemText → Option Bool
  | bare task _ => task
  | paragraphs .. => none

/-- The text of the item; soft breaks stand between paragraphs. -/
def children : ItemText → List Inline
  | bare _ children => children
  | paragraphs ps _ _ => [Inline.softBreak].intercalate ps

end ItemText

mutual

def ListPassage.list : ListPassage → ItemList
  | .mk _ first items => .mk first.isSome first (itemsOf items)

def ItemPassage.item : ItemPassage → Item
  | .mk text none => .mk text.task text.children none
  | .mk text (some l) => .mk text.task text.children (some l.list)

def itemsOf : List ItemPassage → List Item
  | [] => []
  | x :: xs => x.item :: itemsOf xs

end

/-- Where the first event of a list stands. -/
def ListPassage.span : ListPassage → Span
  | .mk span _ _ => span

mutual

def Passage.node (text : List Char) : Passage → Node
  | .heading span depth anchor children =>
    .mk (Range.ofSpan text span) (.heading depth anchor children)
  | .paragraph span children => .mk (Range.ofSpan text span) (.paragraph children)
  | .code span _ language details _ texts =>
    .mk (Range.ofSpan text span) (.code language details (String.join texts))
  | .html span texts => .mk (Range.ofSpan text span) (.html (String.join texts))
  | .rule span => .mk (Range.ofSpan text span) .thematicBreak
  | .table span t => .mk (Range.ofSpan text span) (.table t)
  | .quote span children => .mk (Range.ofSpan text span) (.quote (nodesOf text children))
  | .list l => .mk (Range.ofSpan text l.span) (.list l.list)

def nodesOf (text : List Char) : List Passage → List Node
  | [] => []
  | p :: ps => p.node text :: nodesOf text ps

end

/-! ### Nesting

The nesting of a tree is the greatest number of quotes, lists and elements of text with children
that a path through it passes. -/

mutual

def inlineNesting : Inline → Nat
  | .strong children | .emphasis children | .delete children | .link _ _ children
  | .image _ _ children => inlinesNesting children + 1
  | .text _ | .code _ | .html _ | .softBreak | .hardBreak => 0

def inlinesNesting : List Inline → Nat
  | [] => 0
  | x :: xs => max (inlineNesting x) (inlinesNesting xs)

end

theorem inlinesNesting_append (xs ys : List Inline) :
    inlinesNesting (xs ++ ys) = max (inlinesNesting xs) (inlinesNesting ys) := by
  induction xs with
  | nil => simp [inlinesNesting]
  | cons x xs ih => rw [List.cons_append, inlinesNesting, inlinesNesting, ih, Nat.max_assoc]

mutual

def ListPassage.nesting : ListPassage → Nat
  | .mk _ _ items => itemsNesting items + 1

def ItemPassage.nesting : ItemPassage → Nat
  | .mk text none => inlinesNesting text.children
  | .mk text (some l) => max (inlinesNesting text.children) l.nesting

def itemsNesting : List ItemPassage → Nat
  | [] => 0
  | x :: xs => max x.nesting (itemsNesting xs)

end

mutual

def Passage.nesting : Passage → Nat
  | .heading _ _ _ children | .paragraph _ children => inlinesNesting children
  | .code .. | .html .. | .rule _ => 0
  | .table _ t => inlinesNesting (t.header.flatten ++ t.rows.flatten.flatten)
  | .quote _ children => passagesNesting children + 1
  | .list l => l.nesting

def passagesNesting : List Passage → Nat
  | [] => 0
  | p :: ps => max p.nesting (passagesNesting ps)

end

end BlockDoc.Node
