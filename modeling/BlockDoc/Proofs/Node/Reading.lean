import BlockDoc.Proofs.Node.EventTree

/-!
The nodes of well-nested events, read by recursion on their trees. What is read
depends on the room, the number of quotes, lists and elements of text that may
still nest: where there is none left, a quote or a list is not supported, and of
an element of text only the text is kept.
-/

namespace BlockDoc.Node

open Markdown (CellAlignment Event Tag)

/-! ### Text -/

/-- The text that is kept of trees in an element of text that lies too deep. -/
def readFlat (ts : List EventTree) : List String :=
  (treesEvents ts).flatMap fun e => Builder.flatText e.1

/-- The text of an event in code or HTML. -/
def lineText : Event → List String
  | .text s | .html s => [s]
  | _ => []

/-- The text of trees in code or HTML. -/
def readLines (ts : List EventTree) : List String :=
  (treesEvents ts).flatMap fun e => lineText e.1

/-- An element of text around its children. What is no element of text is read through. -/
def wrapped : Tag → List Inline → List Inline
  | .strong, xs => [.strong xs]
  | .emphasis, xs => [.emphasis xs]
  | .delete, xs => [.delete xs]
  | .link url title, xs => [.link url title xs]
  | .image url title, xs => [.image url title xs]
  | _, xs => xs

mutual

def EventTree.readInlines (room : Nat) : EventTree → List Inline
  | .single e _ _ => (Builder.inlineLeaf? e).toList
  | .element tag _ children _ =>
    if tag.isInline then
      match room with
      | 0 => [.text (String.join (readFlat children))]
      | room + 1 => wrapped tag (readInlines room children)
    else readInlines room children

/-- Trees where text is expected. -/
def readInlines (room : Nat) : List EventTree → List Inline
  | [] => []
  | t :: ts => t.readInlines room ++ readInlines room ts

end

theorem readInlines_through {tag : Tag} (htag : ¬ tag.isInline = true) (room : Nat)
    (span stop : Span) (children : List EventTree) :
    (EventTree.element tag span children stop).readInlines room = readInlines room children := by
  cases room <;> rw [EventTree.readInlines, if_neg htag]

/-! ### Tables -/

/-- A table up to some event: its rows, and the cells of the row that is not complete. -/
structure TableSoFar where
  header : List (List Inline)
  rows : List (List (List Inline))
  row : List (List Inline)
  inHead : Bool

namespace TableSoFar

/-- Nothing is read. -/
def empty : TableSoFar := ⟨[], [], [], false⟩

/-- A row begins. -/
def begin (t : TableSoFar) : Tag → TableSoFar
  | .tableHead => { t with inHead := true }
  | .tableRow => { t with row := [] }
  | _ => t

/-- A row ends. -/
def close (t : TableSoFar) : Tag → TableSoFar
  | .tableHead => { t with header := t.row, row := [], inHead := false }
  | .tableRow => if t.inHead then t else { t with rows := t.rows ++ [t.row], row := [] }
  | _ => t

end TableSoFar

mutual

def EventTree.readTable (room : Nat) (t : TableSoFar) : EventTree → TableSoFar
  | .single .. => t
  | .element .tableCell _ children _ => { t with row := t.row ++ [readInlines room children] }
  | .element tag _ children _ => (readTable room (t.begin tag) children).close tag

/-- Trees in a table. -/
def readTable (room : Nat) (t : TableSoFar) : List EventTree → TableSoFar
  | [] => t
  | x :: xs => readTable room (x.readTable room t) xs

end

/-! ### Items and lists -/

/-- What stands in front of a paragraph of an item, behind the text that the item has so far. -/
def paragraphBreak (xs : List Inline) : List Inline := if xs.isEmpty then [] else [.softBreak]

mutual

/-- A tree in an item of which some part is read. -/
def EventTree.readItem (room : Nat) : EventTree → Item → Item
  | .single (.task state) _ _, .mk _ xs l => .mk (some state) xs l
  | .single e _ _, .mk checked xs l => .mk checked (xs ++ (Builder.inlineLeaf? e).toList) l
  | .element .paragraph _ children _, .mk checked xs l =>
    .mk checked (xs ++ paragraphBreak xs ++ readInlines room children) l
  | .element (.list first) _ children _, .mk checked xs _ =>
    match room with
    | 0 => .mk checked xs none
    | room + 1 => .mk checked xs (some (.mk first.isSome first (readItems room children)))
  | .element tag span children stop, .mk checked xs l =>
    if tag.isInline then
      .mk checked (xs ++ (EventTree.element tag span children stop).readInlines room) l
    else .mk checked xs l

/-- Trees in an item of which some part is read. -/
def readItem (room : Nat) (x : Item) : List EventTree → Item
  | [] => x
  | t :: ts => readItem room (t.readItem room x) ts

def EventTree.readItems (room : Nat) : EventTree → List Item
  | .single .. => []
  | .element .item _ children _ => [readItem room (.mk none [] none) children]
  | .element _ _ children _ => readItems room children

/-- Trees in a list. -/
def readItems (room : Nat) : List EventTree → List Item
  | [] => []
  | t :: ts => t.readItems room ++ readItems room ts

end

theorem readItems_through {tag : Tag} (hitem : tag ≠ .item) (room : Nat) (span stop : Span)
    (children : List EventTree) :
    (EventTree.element tag span children stop).readItems room = readItems room children := by
  cases tag <;> first | rfl | exact absurd rfl hitem

/-! ### Blocks -/

mutual

def EventTree.readNodes (text : List Char) (room : Nat) : EventTree → List Node
  | .single .rule _ span => [.mk (Range.ofSpan text span) .thematicBreak]
  | .single .. => []
  | .element tag span children _ =>
    [.mk (Range.ofSpan text span) (match tag, room with
      | .heading depth anchor, room => .heading depth anchor (readInlines room children)
      | .paragraph, room => .paragraph (readInlines room children)
      | .code info, _ =>
        let (language, details) := (info.map Builder.splitInfo).getD (none, none)
        .code language details (String.join (readLines children))
      | .html, _ => .html (String.join (readLines children))
      | .list _, 0 => .unsupported "list"
      | .list first, room + 1 => .list (.mk first.isSome first (readItems room children))
      | .quote, 0 => .unsupported "blockquote"
      | .quote, room + 1 => .quote (readNodes text room children)
      | .table align, room =>
        let t := readTable room .empty children
        .table ⟨align, t.header, t.rows⟩
      | tag, _ => .unsupported (Builder.unsupportedName tag))]

/-- Trees where blocks are expected. -/
def readNodes (text : List Char) (room : Nat) : List EventTree → List Node
  | [] => []
  | t :: ts => t.readNodes text room ++ readNodes text room ts

end

end BlockDoc.Node
