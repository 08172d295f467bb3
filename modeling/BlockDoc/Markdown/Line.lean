import BlockDoc.Markdown.Container
import BlockDoc.Markdown.Html

/-!
What a line begins with: thematic breaks, headings, code fences, list markers, and the delimiter
rows of tables. The places given are behind the indentation of the line.
-/

namespace BlockDoc.Markdown

/-- How the cells of a column are aligned. -/
inductive CellAlignment where
  | none
  | left
  | center
  | right
  deriving DecidableEq, Repr, Inhabited

namespace Source

/-- The place behind the line of a thematic break: three or more equal marks and spaces. -/
def thematicBreak? (src : Source) (i : Nat) : Option Nat :=
  match src.at? i with
  | none => none
  | some c =>
    if c == '*' || c == '-' || c == '_' then
      let j := src.skipWhile (fun d => d == c || d == ' ' || d == '\t') i
      let marks := ((src.slice i j).filter (· == c)).length
      if 3 ≤ marks then src.lineEnd? j else none
    else none

/-- The level of a heading that begins with number signs. -/
def headingLevel? (src : Source) (i : Nat) : Option Nat :=
  let n := src.runLength '#' i
  let j := i + n
  if 1 ≤ n && n ≤ 6 && (src.stop ≤ j || src.holds isSpaceOrBreak j) then some n else none

/-- The level of a heading that is underlined here, and the place behind the line. -/
def underline? (src : Source) (i : Nat) : Option (Nat × Nat) := do
  let c ← src.at? i
  let level ← if c == '=' then some 1 else if c == '-' then some 2 else none
  let stop ← src.blankLine? (src.skipWhile (· == c) i)
  return (level, stop)

/-- The mark and the length of a code fence. Behind backticks no further backtick may stand. -/
def codeFence? (src : Source) (i : Nat) : Option (Char × Nat) := do
  let c ← src.at? i
  unless c == '`' || c == '~' do none
  let n := src.runLength c i
  unless 3 ≤ n do none
  if c == '`' && src.occurs ['`'] (i + n) (src.nextLine (i + n)) then none
  else return (c, n)

/-- The place behind the fence that closes code; the end of the text closes it as well. -/
def closingFence? (src : Source) (mark : Char) (length i : Nat) : Option Nat :=
  if src.stop ≤ i then some i
  else
    let n := src.runLength mark i
    if n < length then none
    else
      let j := src.skipWhile (· == ' ') (i + n)
      if src.isLineEnd j then some j else none

/-- The number at the front of a list marker and the place behind it: at most nine digits. -/
def listNumber? (src : Source) (i : Nat) : Option (Nat × Nat) :=
  let j := src.skipWhile Char.isDigit i
  if i < j && j ≤ i + 9 then
    some ((src.slice i j).foldl (fun n c => 10 * n + (c.toNat - '0'.toNat)) 0, j)
  else none

end Source

/-- A list marker. -/
structure ListMarker where
  /-- The bullet, or the character behind the number. -/
  mark : Char
  number : Nat
  /-- The columns by which the lines of the item are indented. -/
  indent : Nat
  /-- The place behind the marker and the space that belongs to it. -/
  cursor : Cursor
  deriving Inhabited

/-- The marker whose own characters end at `cur`, at the column `width` of its line. A marker is
followed by up to four columns of space, or by five and more, of which then one belongs to it. -/
def ListMarker.finish? (src : Source) (mark : Char) (number width : Nat) (cur : Cursor) :
    Option ListMarker :=
  let (spaced, after) := cur.takeAll src 1
  if spaced || after.atLineEnd src then
    if (src.blankLine? after.index).isSome then some ⟨mark, number, width + 1, after⟩
    else
      let (more, far) := after.takeUpTo src 4
      if more < 4 then some ⟨mark, number, width + 1 + more, far⟩
      else some ⟨mark, number, width + 1, after⟩
  else none

/-- The list marker at a place, which stands at a given column of its line. -/
def listMarker? (src : Source) (column : Nat) (cur : Cursor) : Option ListMarker := do
  let c ← src.at? cur.index
  if c == '-' || c == '+' || c == '*' then
    if (src.thematicBreak? cur.index).isSome then none
    else ListMarker.finish? src c 0 (column + 1) { cur with index := cur.index + 1 }
  else
    let (n, j) ← src.listNumber? cur.index
    let mark ← src.at? j
    unless mark == '.' || mark == ')' do none
    ListMarker.finish? src mark n (column + (j + 1 - cur.index)) { cur with index := j + 1 }

/-- The state of a task at a place in front of its brackets, and the place behind them. -/
def taskMarker? (src : Source) (cur : Cursor) : Option (Bool × Cursor) := do
  let cur := (cur.takeUpTo src 3).2
  let i := cur.index
  unless src.has '[' i && src.has ']' (i + 2) && src.holds isSpaceOrBreak (i + 3) do none
  let c ← src.at? (i + 1)
  let after := { cur with index := i + 3 }
  if isLineSpace c then return (false, after)
  else if c == 'x' || c == 'X' then return (true, after)
  else none

/-- Whether a list item at a place interrupts a paragraph: it is not empty and its number, if any,
is one. Outside the paragraph's containers, and behind the rows of a table, every item does. -/
def itemInterrupts (src : Source) (anyItem : Bool) (i : Nat) : Bool :=
  match src.at? i with
  | none => false
  | some c =>
    let bullet := c == '-' || c == '+' || c == '*'
    let marker : Option (Nat × Nat) :=
      if bullet then some (1, i + 1)
      else (src.listNumber? i).bind fun (n, j) =>
        if src.has '.' j || src.has ')' j then some (n, j + 1) else none
    match marker with
    | none => false
    | some (n, j) =>
      let spaced := src.holds (fun c => c == ' ' || c == '\t') j || src.isLineEnd j
      spaced && (anyItem || (n == 1 && (src.blankLine? j).isNone))

/-- Whether a line that begins at a place cannot go on with a paragraph. `current` says that the
line lies in all containers of the paragraph. -/
def interrupts (src : Source) (current inTable : Bool) (i : Nat) : Bool :=
  src.isLineEnd i || (src.thematicBreak? i).isSome || (src.headingLevel? i).isSome
    || (src.codeFence? i).isSome || src.has '>' i || itemInterrupts src (!current || inTable) i
    || (src.has '<' i
      && ((Html.endMark? src (i + 1)).isSome || Html.startsBlockElement src (i + 1)))

/-! ## Tables -/

/-- The columns of a delimiter row while it is read. -/
structure Columns where
  done : List CellAlignment
  current : CellAlignment
  /-- Whether nothing of the current column was met. -/
  fresh : Bool
  /-- Whether a hyphen of the current column was met. -/
  hyphen : Bool
  bar : Bool
  deriving Inhabited

namespace Columns

/-- One more character of the row; nothing when it cannot stand there. -/
def step (cs : Columns) (c : Char) : Option Columns :=
  if c == ' ' then some cs
  else if c == ':' then
    let current := match cs.fresh, cs.current with
      | true, .none => .left
      | false, .left => .center
      | false, .none => .right
      | _, a => a
    some { cs with current := current, fresh := false }
  else if c == '-' then some { cs with fresh := false, hyphen := true }
  else if c == '|' && cs.hyphen then
    some ⟨cs.done ++ [cs.current], .none, true, false, true⟩
  else none

end Columns

/-- Reads a delimiter row at the start of a line: the place behind it and its alignments. Each
column has a hyphen, and there is a bar. -/
def delimiterRow? (src : Source) (cur : Cursor) : Option (Nat × List CellAlignment) := do
  let (width, cur) := cur.takeUpTo src 4
  unless width < 4 do none
  let leading := src.has '|' cur.index
  let start := if leading then cur.index + 1 else cur.index
  let stop := src.skipWhile (fun c => !isLineBreak c) start
  let cs ← (src.slice start stop).foldlM Columns.step ⟨[], .none, true, false, leading⟩
  let after ← src.lineEnd? stop
  if cs.fresh then
    if cs.bar && !cs.done.isEmpty then return (after, cs.done) else none
  else if cs.bar && cs.hyphen then return (after, cs.done ++ [cs.current])
  else none

/-- The number of cells of a header row, from the number of bars in it. -/
def headerCells (src : Source) (start bars lastBar : Nat) : Nat :=
  let inner := if src.has '|' (src.skipSpaces start) then bars - 1 else bars
  if (src.blankLine? (lastBar + 1)).isSome then inner else inner + 1

/-- The place behind a delimiter row that fits a header row which was read from `start` on, and its
alignments. -/
def tableHead? (src : Source) (containers : List Container) (start next bars lastBar : Nat) :
    Option (Nat × List CellAlignment) := do
  unless 0 < bars do none
  let (missing, cur) := Container.enterAll src containers (Cursor.start next)
  unless missing == 0 do none
  let (stop, alignments) ← delimiterRow? src cur
  if alignments.length == headerCells src start bars lastBar then return (stop, alignments)
  else none

/-- The bars of a line without a backslash in front: their number and the place of the last one. -/
def countBars (src : Source) (start stop : Nat) : Nat × Nat :=
  let step (acc : (Nat × Nat) × Bool) (i : Nat) : (Nat × Nat) × Bool :=
    if acc.2 then (acc.1, src.has '\\' i)
    else if src.has '|' i then ((acc.1.1 + 1, i), false)
    else (acc.1, src.has '\\' i)
  ((List.range' start (stop - start)).foldl step ((0, start), false)).1

/-- Whether a table begins at a place. -/
def tableStarts (src : Source) (containers : List Container) (i : Nat) : Bool :=
  let stop := src.skipWhile (fun c => !isLineBreak c) i
  match src.at? stop with
  | none => false
  | some _ =>
    let (bars, lastBar) := countBars src i stop
    (tableHead? src containers i ((src.lineEnd? stop).getD stop) bars lastBar).isSome

end BlockDoc.Markdown
