import BlockDoc.Markdown.Leaf

/-!
The block structure of a Markdown text. Each step begins at the start of a line: it leaves the
blocks that the line does not belong to, opens new ones, and reads one leaf block or a blank line.
-/

namespace BlockDoc.Markdown

/-- What an open block is. -/
inductive OpenKind where
  | quote
  | list (mark : Char) (number : Nat) (tight : Bool)
  | item (indent : Nat)
  deriving DecidableEq, Repr, Inhabited

/-- A block that is still open. -/
structure OpenBlock where
  kind : OpenKind
  start : Nat
  /-- The blocks inside it, last one first. -/
  children : List Element
  deriving Inhabited

namespace OpenBlock

/-- The container of lines that an open block is, if it is one. -/
def container? (b : OpenBlock) : Option Container :=
  match b.kind with
  | .quote => some .quote
  | .item indent => some (.item indent)
  | .list .. => none

/-- The block when it is closed at a place. -/
def close (stop : Nat) (b : OpenBlock) : Element :=
  let span := Span.of b.start stop
  let children := b.children.reverse
  match b.kind with
  | .quote => .quote span children
  | .item _ => .item span children
  | .list mark number tight =>
    .list span tight (if mark == '.' || mark == ')' then some number else none) children

/-- Whether the block is a list without blank lines between its parts. -/
def isTightList (b : OpenBlock) : Bool :=
  match b.kind with
  | .list _ _ tight => tight
  | _ => false

/-- The block as a list with blank lines between its parts, when it is a list. -/
def loosen (b : OpenBlock) : OpenBlock :=
  match b.kind with
  | .list mark number _ => { b with kind := .list mark number false }
  | _ => b

end OpenBlock

/-- The blocks read so far. -/
structure Outline where
  /-- Closed blocks that lie in no other block, last one first. -/
  done : List Element
  /-- Open blocks, innermost first. -/
  openBlocks : List OpenBlock
  definitions : Definitions
  /-- Whether a blank line that may make a list loose was the last one. -/
  afterBlank : Bool
  /-- The place behind the first line of an item that has no content yet. -/
  emptyItem : Option Nat
  /-- A task mark that goes to the next paragraph. -/
  task : Option Bool
  deriving Inhabited

namespace Outline

/-- Nothing was read. -/
def start : Outline := ⟨[], [], [], false, none, none⟩

/-- The containers around the next block, outermost first. -/
def containers (o : Outline) : List Container :=
  (o.openBlocks.filterMap OpenBlock.container?).reverse

/-- Adds a closed block. -/
def add (e : Element) (o : Outline) : Outline :=
  match o.openBlocks with
  | [] => { o with done := e :: o.done }
  | b :: outer => { o with openBlocks := { b with children := e :: b.children } :: outer }

/-- Opens a block. -/
def enter (kind : OpenKind) (start : Nat) (o : Outline) : Outline :=
  { o with openBlocks := ⟨kind, start, []⟩ :: o.openBlocks }

/-- Closes the innermost block. -/
def leave (stop : Nat) (o : Outline) : Outline :=
  match o.openBlocks with
  | [] => o
  | b :: outer =>
    let o := { o with openBlocks := outer }.add (b.close stop)
    if b.isTightList then { o with emptyItem := none } else o

/-- Closes blocks from the inside until `n` containers are closed. -/
def leaveContainers (stop : Nat) : Nat → Nat → Outline → Outline
  | 0, _, o => o
  | _ + 1, 0, o => o
  | fuel + 1, n + 1, o =>
    match o.openBlocks with
    | [] => o
    | b :: _ =>
      let left := if b.container?.isSome then n else n + 1
      leaveContainers stop fuel left (o.leave stop)

/-- Closes an item of which only the first line, a blank one, was read when a blank line follows. -/
def finishEmptyItem (o : Outline) : Outline :=
  let o' : Outline :=
    match o.emptyItem, o.afterBlank, o.openBlocks with
    | some stop, true, b :: _ =>
      match b.kind with
      | .item _ => o.leave stop
      | _ => o
    | _, _, _ => o
  { o' with emptyItem := none }

/-- Closes a list whose items are all closed, because another block follows. A blank line in front
of that block makes the list around it loose. -/
def finishList (stop : Nat) (o : Outline) : Outline :=
  let o := o.finishEmptyItem
  let o := match o.openBlocks with
    | b :: _ => match b.kind with
      | .list .. => o.leave stop
      | _ => o
    | [] => o
  if o.afterBlank then
    let openBlocks := match o.openBlocks with
      | b :: parent :: outer => b :: parent.loosen :: outer
      | bs => bs
    { o with openBlocks := openBlocks, afterBlank := false }
  else o

/-- Goes on with the innermost list, or begins a new one when the mark is another. -/
def continueList (start : Nat) (mark : Char) (number : Nat) (o : Outline) : Outline :=
  let o := o.finishEmptyItem
  let fresh (o : Outline) : Outline :=
    { o.enter (.list mark number true) start with afterBlank := false }
  match o.openBlocks with
  | [] => fresh o
  | b :: outer =>
    let same := match b.kind with
      | .list other _ _ => other == mark
      | _ => false
    if same then
      if o.afterBlank then { o with openBlocks := b.loosen :: outer, afterBlank := false } else o
    else fresh (o.finishList start)

/-- Notes a blank line. An item without content gets none any more. -/
def blankLine (o : Outline) : Outline :=
  match o.openBlocks with
  | [] => { o with afterBlank := true }
  | b :: outer =>
    match b.kind, o.emptyItem with
    | .quote, _ => o
    | .item _, some _ =>
      { o with openBlocks := { b with kind := .item 0 } :: outer, afterBlank := true }
    | _, _ => { o with afterBlank := true }

/-- What the marks of new containers lead to: the rest of a line, or its end. -/
inductive Opened where
  | line (cur : Cursor)
  | finished (next : Nat)

/-- Opens the containers that begin in the line from `start` on. -/
def openContainers (src : Source) (start : Nat) : Nat → Cursor → Outline → Opened × Outline
  | 0, cur, o => (.line cur, o)
  | fuel + 1, cur, o =>
    let (width, inner) := cur.takeUpTo src 4
    if 4 ≤ width then (.line cur, o)
    else match listMarker? src width inner with
      | some m =>
        let place := inner.index - width
        let o := (o.continueList place m.mark m.number).enter (.item m.indent) place
        match src.blankLine? m.cursor.index with
        | some next => (.finished next, { o with emptyItem := some next })
        | none =>
          match taskMarker? src m.cursor with
          | some (checked, after) =>
            match src.blankLine? after.index with
            | some next =>
              let mark := Element.task (Span.of m.cursor.index after.index) checked
              (.finished next, { o.add mark with emptyItem := some next })
            | none => openContainers src start fuel after { o with task := some checked }
          | none => openContainers src start fuel m.cursor o
      | none =>
        match inner.quoteMark? src with
        | some after =>
          openContainers src start fuel after ((o.finishList start).enter .quote inner.index)
        | none => (.line cur, o)

/-- Reads the leaf block that begins behind the marks of containers; `start` is the start of the
line. -/
def readLeaf (src : Source) (start : Nat) (cur : Cursor) (o : Outline) : Outline × Nat :=
  let (width, inner) := cur.takeUpTo src 4
  let i := inner.index
  let finished := o.finishList start
  let cs := finished.containers
  let leaf (r : Element × Nat) : Outline × Nat := (finished.add r.1, r.2)
  if 4 ≤ width then
    let (code, next, blank) := readIndentedCode src cs inner
    ({ finished.add code with afterBlank := blank }, next)
  else
    let html : Option (Option (List Char)) :=
      if src.has '<' i then
        match Html.endMark? src (i + 1) with
        | some mark => some (some mark)
        | none =>
          if Html.startsBlockElement src (i + 1) || Html.isLoneTag src i then some none else none
      else none
    match html with
    | some endMark => leaf (readHtml src cs endMark (max cur.columnsLeft width) i)
    | none =>
      match src.thematicBreak? i with
      | some next => leaf (.rule (Span.of i next), next)
      | none =>
        match src.headingLevel? i with
        | some level => leaf (readHeading src cs level i)
        | none =>
          match src.codeFence? i with
          | some (mark, length) => leaf (readFencedCode src cs width mark length i)
          | none =>
            match readDefinition? src o.containers i with
            | some (label, target, stop) =>
              ({ o with definitions := o.definitions.add label target }, skipBlankRest src stop)
            | none =>
              let (e, next) := readParagraph src cs finished.task i
              ({ finished.add e with task := none }, next)

/-- Reads a line and, when a leaf block begins there, that block. -/
def step (src : Source) (start : Nat) (o : Outline) : Outline × Nat :=
  let (missing, cur) := Container.enterAll src o.containers (Cursor.start start)
  let o := o.leaveContainers start (o.openBlocks.length + 1) missing
  match o.openContainers src start (src.stop + 1) cur with
  | (.finished next, o) => (o, next)
  | (.line cur, o) =>
    match src.blankLine? cur.index with
    | some next => (o.blankLine, next)
    | none => o.readLeaf src start cur

/-- Reads all lines from a place on, and closes what is open at the end. -/
def readFrom (src : Source) : Nat → Nat → Outline → Outline
  | 0, i, o => o.leaveContainers i (o.openBlocks.length + 1) (o.openBlocks.length + 1)
  | fuel + 1, i, o =>
    if src.stop ≤ i then
      o.leaveContainers i (o.openBlocks.length + 1) (o.openBlocks.length + 1)
    else
      let (o, next) := o.step src i
      readFrom src fuel next o

/-- The blocks of a text, and the definitions in it. -/
def read (src : Source) : List Element × Definitions :=
  let o := readFrom src (src.stop + 1) 0 start
  (o.done.reverse, o.definitions)

end Outline

end BlockDoc.Markdown
