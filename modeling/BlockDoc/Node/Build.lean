import BlockDoc.Markdown.Event
import BlockDoc.Node

/-!
The tree of a sequence of events. The builder keeps the nodes that are not complete yet, innermost
first; every event changes the innermost ones. Quotes, lists and elements of text nest no deeper
than `maxNesting`: a deeper quote or list is unsupported, and of deeper elements of text only the
text is kept. A sequence whose parts do not end well still gives a tree: an end that nothing waits
for is ignored, and what is open at the end is closed there.
-/

namespace BlockDoc.Node

open Markdown (CellAlignment Event Located Tag TagEnd)

/-- How deep quotes, lists and elements of text nest together. -/
def maxNesting : Nat := 64

/-- A part of the tree that is not complete. Lists of parts have the last one first. -/
inductive Unfinished where
  | quote (position : Range) (children : List Node)
  | heading (position : Range) (depth : Nat) (anchor : Option String) (children : List Inline)
  | paragraph (position : Range) (children : List Inline)
  | code (position : Range) (language details : Option String) (texts : List String)
  | html (position : Range) (texts : List String)
  | table (position : Range) (align : List CellAlignment) (header : List (List Inline))
    (rows : List (List (List Inline))) (row : List (List Inline)) (inHead : Bool)
  | cell (children : List Inline)
  | list (position : Range) (start : Option Nat) (items : List Item)
  | item (checked : Option Bool) (children : List Inline) (sublist : Option ItemList)
  /-- A paragraph within an item. -/
  | itemText (children : List Inline)
  | strong (children : List Inline)
  | emphasis (children : List Inline)
  | delete (children : List Inline)
  | link (url title : String) (children : List Inline)
  | image (url title : String) (children : List Inline)
  /-- An element of text that lies too deep, with the number of starts in it that wait for an end.
  -/
  | flat (waiting : Nat) (texts : List String)
  /-- A part that is left out, and the unsupported node that stands for it. -/
  | skipped (waiting : Nat) (result : Option Node)
  deriving Inhabited

namespace Unfinished

/-- Whether the part counts towards the nesting. -/
def nests : Unfinished → Bool
  | quote .. | list .. | strong _ | emphasis _ | delete _ | link .. | image .. => true
  | _ => false

/-- The end that a part waits for. -/
def awaits : Unfinished → Option TagEnd
  | quote .. => some .quote
  | heading .. => some .heading
  | paragraph .. => some .paragraph
  | code .. => some .code
  | html .. => some .html
  | table .. => some .table
  | cell _ => some .tableCell
  | list .. => some .list
  | item .. => some .item
  | itemText _ => some .paragraph
  | strong _ => some .strong
  | emphasis _ => some .emphasis
  | delete _ => some .delete
  | link .. => some .link
  | image .. => some .image
  | flat .. => none
  | skipped .. => none

/-- Adds an element of text to a part that holds text. -/
def addInline (x : Inline) : Unfinished → Unfinished
  | heading p d a xs => heading p d a (x :: xs)
  | paragraph p xs => paragraph p (x :: xs)
  | cell xs => cell (x :: xs)
  | item c xs l => item c (x :: xs) l
  | itemText xs => itemText (x :: xs)
  | strong xs => strong (x :: xs)
  | emphasis xs => emphasis (x :: xs)
  | delete xs => delete (x :: xs)
  | link u t xs => link u t (x :: xs)
  | image u t xs => image u t (x :: xs)
  | u => u

/-- The texts of a part that were collected last one first. -/
def joined (texts : List String) : String := String.join texts.reverse

end Unfinished

/-- The tree while it is built. -/
structure Builder where
  /-- Complete nodes of the outermost level, last one first. -/
  done : List Node
  /-- Parts that are not complete, innermost first. -/
  parts : List Unfinished
  deriving Inhabited

namespace Builder

/-- Nothing is built. -/
def start : Builder := ⟨[], []⟩

/-- The number of quotes, lists and elements of text that are open. -/
def nesting (b : Builder) : Nat := b.parts.countP Unfinished.nests

/-- Opens a part. -/
def enter (u : Unfinished) (b : Builder) : Builder := { b with parts := u :: b.parts }

/-- Adds a node to the quote around it, or to the outermost level. -/
def addNode (n : Node) (b : Builder) : Builder :=
  match b.parts with
  | .quote p children :: rest => { b with parts := .quote p (n :: children) :: rest }
  | _ => { b with done := n :: b.done }

/-- Adds an element of text to the innermost part. -/
def addInline (x : Inline) (b : Builder) : Builder :=
  match b.parts with
  | u :: rest => { b with parts := u.addInline x :: rest }
  | [] => b

/-- Adds a complete part to what it belongs to. -/
def addPart (u : Unfinished) (b : Builder) : Builder :=
  match u with
  | .quote p children => b.addNode (.mk p (.quote children.reverse))
  | .heading p depth anchor children =>
    b.addNode (.mk p (.heading depth anchor children.reverse))
  | .paragraph p children => b.addNode (.mk p (.paragraph children.reverse))
  | .code p language details texts =>
    b.addNode (.mk p (.code language details (Unfinished.joined texts)))
  | .html p texts => b.addNode (.mk p (.html (Unfinished.joined texts)))
  | .table p align header rows _ _ => b.addNode (.mk p (.table ⟨align, header, rows.reverse⟩))
  | .cell children =>
    match b.parts with
    | .table p align header rows row inHead :: rest =>
      { b with parts := .table p align header rows (children.reverse :: row) inHead :: rest }
    | _ => b
  | .list p first items =>
    let l : ItemList := .mk first.isSome first items.reverse
    match b.parts with
    | .item checked children _ :: rest =>
      { b with parts := .item checked children (some l) :: rest }
    | _ => b.addNode (.mk p (.list l))
  | .item checked children sublist =>
    match b.parts with
    | .list p first items :: rest =>
      { b with parts := .list p first (.mk checked children.reverse sublist :: items) :: rest }
    | _ => b
  | .itemText xs =>
    match b.parts with
    | .item checked children sublist :: rest =>
      { b with parts := .item checked (xs ++ children) sublist :: rest }
    | _ => b
  | .strong xs => b.addInline (.strong xs.reverse)
  | .emphasis xs => b.addInline (.emphasis xs.reverse)
  | .delete xs => b.addInline (.delete xs.reverse)
  | .link url title xs => b.addInline (.link url title xs.reverse)
  | .image url title xs => b.addInline (.image url title xs.reverse)
  | .flat _ texts => b.addInline (.text (Unfinished.joined texts))
  | .skipped _ (some n) => b.addNode n
  | .skipped _ none => b

/-- Closes the innermost part. -/
def leave (b : Builder) : Builder :=
  match b.parts with
  | [] => b
  | u :: rest => { b with parts := rest }.addPart u

/-- The part that an element of text begins. -/
def inlinePart? : Tag → Option Unfinished
  | .strong => some (.strong [])
  | .emphasis => some (.emphasis [])
  | .delete => some (.delete [])
  | .link url title => some (.link url title [])
  | .image url title => some (.image url title [])
  | _ => none

/-- The element of text that an event is by itself. -/
def inlineLeaf? : Event → Option Inline
  | .text value => some (.text value)
  | .code value => some (.code value)
  | .inlineHtml value => some (.html value)
  | .softBreak => some .softBreak
  | .hardBreak => some .hardBreak
  | _ => none

/-- An event where text is expected. What is no text is ignored. -/
def onText (e : Event) (b : Builder) : Builder :=
  match e with
  | .start tag =>
    match inlinePart? tag with
    | some part => b.enter (if maxNesting ≤ b.nesting then .flat 1 [] else part)
    | none => b
  | e =>
    match inlineLeaf? e with
    | some x => b.addInline x
    | none => b

/-- The first word behind a fence, and what follows it. -/
def splitInfo (info : String) : Option String × Option String :=
  let cs := Text.dropAroundWhile Text.isBlank info.toList
  if cs.isEmpty then (none, none)
  else
    let details := Text.dropAroundWhile Text.isBlank (cs.dropWhile (!Text.isBlank ·))
    (some (String.ofList (cs.takeWhile (!Text.isBlank ·))),
      if details.isEmpty then none else some (String.ofList details))

/-- The name under which a block without a node is reported. -/
def unsupportedName : Tag → String
  | .other name => name
  | _ => "unknown"

/-- An event where blocks are expected. -/
def onBlocks (text : List Char) (e : Event) (span : Span) (b : Builder) : Builder :=
  let position := Range.ofSpan text span
  let unsupported (name : String) : Unfinished :=
    .skipped 1 (some (.mk position (.unsupported name)))
  match e with
  | .start (.heading depth anchor) => b.enter (.heading position depth anchor [])
  | .start .paragraph => b.enter (.paragraph position [])
  | .start (.code info) =>
    let (language, details) := (info.map splitInfo).getD (none, none)
    b.enter (.code position language details [])
  | .start (.list first) =>
    b.enter (if maxNesting ≤ b.nesting then unsupported "list" else .list position first [])
  | .start .quote =>
    b.enter (if maxNesting ≤ b.nesting then unsupported "blockquote" else .quote position [])
  | .start (.table align) => b.enter (.table position align [] [] [] false)
  | .start .html => b.enter (.html position [])
  | .rule => b.addNode (.mk position .thematicBreak)
  | .start tag => b.enter (unsupported (unsupportedName tag))
  | _ => b

/-- An event within an item. Text of several paragraphs is joined by soft breaks, the last list
counts, and blocks of other kinds are left out. -/
def onItem (text : List Char) (e : Event) (span : Span) (checked : Option Bool)
    (children : List Inline) (sublist : Option ItemList) (rest : List Unfinished) (b : Builder) :
    Builder :=
  match e with
  | .task state => { b with parts := .item (some state) children sublist :: rest }
  | .start .paragraph =>
    if children.isEmpty then b.enter (.itemText [])
    else (b.addInline .softBreak).enter (.itemText [])
  | .start (.list first) =>
    if maxNesting ≤ b.nesting then
      { b with parts := .skipped 1 none :: .item checked children none :: rest }
    else b.enter (.list (Range.ofSpan text span) first [])
  | .start tag => if tag.isInline then b.onText e else b.enter (.skipped 1 none)
  | _ => b.onText e

/-- An event within a table. -/
def onTable (e : Event) (position : Range) (align : List CellAlignment)
    (header : List (List Inline)) (rows : List (List (List Inline))) (row : List (List Inline))
    (inHead : Bool) (rest : List Unfinished) (b : Builder) : Builder :=
  match e with
  | .start .tableHead => { b with parts := .table position align header rows row true :: rest }
  | .stop .tableHead => { b with parts := .table position align row.reverse rows [] false :: rest }
  | .start .tableRow => { b with parts := .table position align header rows [] inHead :: rest }
  | .stop .tableRow =>
    if inHead then b
    else { b with parts := .table position align header (row.reverse :: rows) [] inHead :: rest }
  | .start .tableCell => b.enter (.cell [])
  | _ => b

/-- How many starts wait for an end after an event. -/
def waitingAfter (waiting : Nat) : Event → Nat
  | .start _ => waiting + 1
  | .stop _ => waiting - 1
  | _ => waiting

/-- The text that is kept of an event in an element of text that lies too deep. -/
def flatText : Event → List String
  | .text value => [value]
  | .code value => [value]
  | .softBreak => [" "]
  | .hardBreak => [" "]
  | _ => []

/-- Takes an event that does not end the innermost part. -/
def onEvent (text : List Char) (e : Event) (span : Span) (b : Builder) : Builder :=
  match b.parts with
  | [] => b.onBlocks text e span
  | .quote .. :: _ => b.onBlocks text e span
  | .code p language details texts :: rest =>
    match e with
    | .text s | .html s => { b with parts := .code p language details (s :: texts) :: rest }
    | _ => b
  | .html p texts :: rest =>
    match e with
    | .text s | .html s => { b with parts := .html p (s :: texts) :: rest }
    | _ => b
  | .table p align header rows row inHead :: rest =>
    b.onTable e p align header rows row inHead rest
  | .list .. :: _ => if e = .start .item then b.enter (.item none [] none) else b
  | .item checked children sublist :: rest => b.onItem text e span checked children sublist rest
  | .flat waiting texts :: rest =>
    let b := { b with parts := .flat (waitingAfter waiting e) (flatText e ++ texts) :: rest }
    if waitingAfter waiting e = 0 then b.leave else b
  | .skipped waiting result :: rest =>
    let b := { b with parts := .skipped (waitingAfter waiting e) result :: rest }
    if waitingAfter waiting e = 0 then b.leave else b
  | _ => b.onText e

/-- Takes an event. -/
def step (text : List Char) (b : Builder) (located : Located) : Builder :=
  let awaited := match b.parts, located.1 with
    | u :: _, .stop tag => u.awaits == some tag
    | _, _ => false
  if awaited then b.leave else b.onEvent text located.1 located.2

/-- Closes all parts. -/
def leaveAll : Nat → Builder → Builder
  | 0, b => b
  | n + 1, b => leaveAll n b.leave

/-- The nodes, in order. -/
def finish (b : Builder) : List Node := (leaveAll b.parts.length b).done.reverse

end Builder

/-- The nodes of a sequence of events, with positions in a text. -/
def ofEvents (text : List Char) (events : List Located) : List Node :=
  (events.foldl (Builder.step text) .start).finish

end BlockDoc.Node
