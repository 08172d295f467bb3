import BlockDoc.Markdown.Block

/-!
A Markdown text as a sequence of events: blocks and elements of text begin and end, and between
that stands text. `Event.ofText` reads the events of a text, each with the stretch of the block,
or of the part of a block, that it belongs to. Footnotes and formulas are not read here, so no text
has their events, and the builder of a tree takes no notice of them.
-/

namespace BlockDoc.Markdown

/-- What begins. -/
inductive Tag where
  | paragraph
  | heading (level : Nat) (anchor : Option String)
  | quote
  /-- Code between fences with the text behind the opening fence, or indented code. -/
  | code (info : Option String)
  | html
  | list (first : Option Nat)
  | item
  | table (alignments : List CellAlignment)
  | tableHead
  | tableRow
  | tableCell
  | strong
  | emphasis
  | delete
  | link (url title : String)
  | image (url title : String)
  /-- A block for which documents have no node. -/
  | other (name : String)
  deriving DecidableEq, Repr, Inhabited

/-- What ends. -/
inductive TagEnd where
  | paragraph
  | heading
  | quote
  | code
  | html
  | list
  | item
  | table
  | tableHead
  | tableRow
  | tableCell
  | strong
  | emphasis
  | delete
  | link
  | image
  | other
  deriving DecidableEq, Repr, Inhabited

/-- An event. -/
inductive Event where
  | start (tag : Tag)
  | stop (tag : TagEnd)
  | text (value : String)
  | code (value : String)
  /-- Lines of a block of HTML. -/
  | html (value : String)
  /-- HTML within a line of text. -/
  | inlineHtml (value : String)
  | softBreak
  | hardBreak
  | rule
  | task (checked : Bool)
  /-- A mark that refers to a footnote. Documents have no footnotes. -/
  | footnoteReference (label : String)
  /-- A formula within a line of text. Documents have no formulas. -/
  | inlineMath (value : String)
  /-- A formula on lines of its own. -/
  | displayMath (value : String)
  deriving DecidableEq, Repr, Inhabited

/-- The end that belongs to a tag. -/
def Tag.toEnd : Tag → TagEnd
  | paragraph => .paragraph
  | heading .. => .heading
  | quote => .quote
  | code _ => .code
  | html => .html
  | list _ => .list
  | item => .item
  | table _ => .table
  | tableHead => .tableHead
  | tableRow => .tableRow
  | tableCell => .tableCell
  | strong => .strong
  | emphasis => .emphasis
  | delete => .delete
  | link .. => .link
  | image .. => .image
  | other _ => .other

/-- Whether the tag marks a stretch of text within a line. -/
def Tag.isInline : Tag → Bool
  | strong | emphasis | delete | link .. | image .. => true
  | _ => false

/-! ## Events of elements of text -/

mutual

/-- The events of an element, in front of further events. -/
def inlineEvents (x : Inline) (rest : List Event) : List Event :=
  match x with
  | .text value => .text value :: rest
  | .code value => .code value :: rest
  | .html value => .inlineHtml value :: rest
  | .softBreak => .softBreak :: rest
  | .hardBreak => .hardBreak :: rest
  | .strong children => .start .strong :: inlinesEvents children (.stop .strong :: rest)
  | .emphasis children => .start .emphasis :: inlinesEvents children (.stop .emphasis :: rest)
  | .delete children => .start .delete :: inlinesEvents children (.stop .delete :: rest)
  | .link url title children =>
    .start (.link url title) :: inlinesEvents children (.stop .link :: rest)
  | .image url title alt => .start (.image url title) :: inlinesEvents alt (.stop .image :: rest)

/-- The events of elements, in front of further events. -/
def inlinesEvents (xs : List Inline) (rest : List Event) : List Event :=
  match xs with
  | [] => rest
  | x :: xs => inlineEvents x (inlinesEvents xs rest)

end

/-! ## Events of blocks -/

/-- An event and the stretch it belongs to. -/
abbrev Located := Event × Span

/-- What the text of blocks is settled against: the text and the definitions in it. -/
structure Setting where
  src : Source
  definitions : Definitions

/-- The events of a phrase, all at one stretch. -/
def Setting.phraseEvents (s : Setting) (span : Span) (p : Phrase) (rest : List Located) :
    List Located :=
  (inlinesEvents (p.resolve s.src s.definitions) []).map (fun e => (e, span)) ++ rest

/-- The events of the cells of a row. -/
def Setting.cellEvents (s : Setting) (span : Span) (cells : List Phrase) (rest : List Located) :
    List Located :=
  cells.foldr (fun cell rest =>
    (.start .tableCell, span) :: s.phraseEvents span cell ((.stop .tableCell, span) :: rest)) rest

mutual

/-- The events of a block, in front of further events. `tight` says that the block stands in an item
of a tight list. -/
def Element.events (s : Setting) (tight : Bool) (e : Element) (rest : List Located) :
    List Located :=
  match e with
  | .paragraph span task phrase =>
    let inner (rest : List Located) : List Located :=
      (task.toList.map fun checked => (.task checked, span)) ++ s.phraseEvents span phrase rest
    if tight then inner rest
    else (.start .paragraph, span) :: inner ((.stop .paragraph, span) :: rest)
  | .heading span level anchor phrase =>
    (.start (.heading level anchor), span)
      :: s.phraseEvents span phrase ((.stop .heading, span) :: rest)
  | .fencedCode span info text =>
    (.start (.code (some info)), span) :: (.text text, span) :: (.stop .code, span) :: rest
  | .indentedCode span text =>
    (.start (.code none), span) :: (.text text, span) :: (.stop .code, span) :: rest
  | .html span text =>
    (.start .html, span) :: (.html text, span) :: (.stop .html, span) :: rest
  | .rule span => (.rule, span) :: rest
  | .table span alignments header rows =>
    let rowEvents (cells : List Phrase) (rest : List Located) : List Located :=
      (.start .tableRow, span) :: s.cellEvents span cells ((.stop .tableRow, span) :: rest)
    (.start (.table alignments), span) :: (.start .tableHead, span)
      :: s.cellEvents span header ((.stop .tableHead, span)
        :: rows.foldr rowEvents ((.stop .table, span) :: rest))
  | .quote span children =>
    (.start .quote, span) :: elementsEvents s false children ((.stop .quote, span) :: rest)
  | .list span tight first items =>
    (.start (.list first), span) :: elementsEvents s tight items ((.stop .list, span) :: rest)
  | .item span children =>
    (.start .item, span) :: elementsEvents s tight children ((.stop .item, span) :: rest)
  | .task span checked => (.task checked, span) :: rest

/-- The events of blocks, in front of further events. -/
def elementsEvents (s : Setting) (tight : Bool) (es : List Element) (rest : List Located) :
    List Located :=
  match es with
  | [] => rest
  | e :: es => e.events s tight (elementsEvents s tight es rest)

end

/-- The number of bytes in front of each place of a text, its end included. -/
def Source.byteOffsets (src : Source) : Array Nat :=
  (src.chars.foldl (fun (acc : Array Nat × Nat) c =>
    let next := acc.2 + c.utf8Size
    (acc.1.push next, next)) (#[0], 0)).1

/-- The events of a text, in order. Their stretches count bytes. -/
def Event.ofText (text : List Char) : List Located :=
  let chars := text.toArray
  let src : Source := ⟨chars, chars.size⟩
  let (elements, definitions) := Outline.read src
  let offsets := src.byteOffsets
  let place (i : Nat) : Nat := offsets[i]?.getD (offsets.back?.getD 0)
  (elementsEvents ⟨src, definitions⟩ false elements []).map fun (e, span) =>
    (e, Span.of (place span.start) (place span.stop))

end BlockDoc.Markdown
