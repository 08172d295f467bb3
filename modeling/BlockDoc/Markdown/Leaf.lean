import BlockDoc.Markdown.Element

/-!
Blocks without blocks inside: code, HTML, headings, paragraphs and tables. A reader is given the
containers around the block, outermost first, and the place where the block begins; with the block
comes the place where the next one is sought.
-/

namespace BlockDoc.Markdown

/-- The cursor behind the marks of the containers, when the line from `i` on lies in all of them. -/
def within? (src : Source) (cs : List Container) (i : Nat) : Option Cursor :=
  match Container.enterAll src cs (Cursor.start i) with
  | (0, cur) => some cur
  | _ => none

/-- A line of code or HTML: the columns left over from a tab as spaces, then its characters. A
carriage return in front of the last character is dropped. -/
def rawLine (src : Source) (columns start stop : Nat) : List Char :=
  List.replicate columns ' ' ++
    if src.has '\r' (stop - 2) then src.slice start (stop - 2) ++ src.slice (stop - 1) stop
    else src.slice start stop

/-- The text of lines that were collected last one first. -/
def joinLines (lines : List (List Char)) : String := String.ofList lines.reverse.flatten

/-- The place behind a line when nothing but spaces is left of it, and otherwise the place itself.
-/
def skipBlankRest (src : Source) (i : Nat) : Nat := (src.blankLine? i).getD i

/-! ## Code -/

/-- Lines of indented code. -/
structure IndentedLines where
  /-- All lines, last one first. -/
  lines : List (List Char)
  /-- The lines up to the last one that is not blank. -/
  kept : List (List Char)
  /-- The place behind the kept lines. -/
  stop : Nat
  /-- Whether the last line is blank. -/
  blank : Bool
  deriving Inhabited

/-- Collects the lines of indented code from a place behind their indentation on. -/
def indentedLines (src : Source) (cs : List Container) :
    Nat → Nat → Nat → Bool → IndentedLines → IndentedLines × Nat
  | 0, _, i, _, acc => (acc, i)
  | fuel + 1, columns, i, blank, acc =>
    let next := src.nextLine i
    let lines := rawLine src columns i next :: acc.lines
    let acc : IndentedLines :=
      if blank then { acc with lines := lines, blank := true } else ⟨lines, lines, next, false⟩
    match within? src cs next with
    | none => (acc, next)
    | some cur =>
      let (indented, cur) := cur.takeAll src 4
      if !indented && !cur.atLineEnd src then (acc, next)
      else if src.stop ≤ cur.index then (acc, cur.index)
      else
        indentedLines src cs fuel cur.columnsLeft cur.index (src.blankLine? cur.index).isSome acc

/-- Reads indented code; whether its last line is blank comes with it. -/
def readIndentedCode (src : Source) (cs : List Container) (cur : Cursor) : Element × Nat × Bool :=
  let (code, next) :=
    indentedLines src cs (src.stop + 1) cur.columnsLeft cur.index false ⟨[], [], cur.index, false⟩
  (.indentedCode (Span.of cur.index code.stop) (joinLines code.kept), next, code.blank)

/-- Collects the lines of code up to a closing fence: the lines, the place where the block ends, and
the place where the next one is sought. -/
def fencedLines (src : Source) (cs : List Container) (indent : Nat) (mark : Char) (length : Nat) :
    Nat → Nat → List (List Char) → List (List Char) × Nat × Nat
  | 0, i, lines => (lines, i, i)
  | fuel + 1, i, lines =>
    match within? src cs i with
    | none => (lines, i, i)
    | some cur =>
      let cur := (cur.take src indent).2
      let (deep, fence) := cur.takeAll src (4 - indent)
      match (if deep then none else src.closingFence? mark length fence.index) with
      | some stop => (lines, stop, skipBlankRest src stop)
      | none =>
        let next := src.nextLine cur.index
        fencedLines src cs indent mark length fuel next
          (rawLine src cur.columnsLeft cur.index next :: lines)

/-- Reads code between fences. -/
def readFencedCode (src : Source) (cs : List Container) (indent : Nat) (mark : Char)
    (length i : Nat) : Element × Nat :=
  let infoStart := src.skipSpaces (i + length)
  let next := src.nextLine infoStart
  let infoStop := src.skipBackWhile isSpaceOrBreak infoStart next
  let (lines, stop, after) := fencedLines src cs indent mark length (src.stop + 1) next []
  (.fencedCode (Span.of i stop) (unescape src false infoStart infoStop) (joinLines lines), after)

/-! ## HTML -/

/-- Collects the lines of HTML. A block with an end mark lasts up to the line that holds it, any
other one up to a blank line. -/
def htmlLines (src : Source) (cs : List Container) (endMark : Option (List Char)) :
    Nat → Nat → Nat → List (List Char) → List (List Char) × Nat × Nat
  | 0, _, i, lines => (lines, i, i)
  | fuel + 1, columns, i, lines =>
    let next := src.nextLine i
    let lines := rawLine src columns i next :: lines
    match within? src cs next with
    | none => (lines, next, next)
    | some cur =>
      let ended := match endMark with
        | some mark => src.occurs mark i next
        | none => cur.atLineEnd src
      if ended then (lines, next, next)
      else if src.stop ≤ cur.index || (endMark.isNone && (src.blankLine? cur.index).isSome) then
        (lines, cur.index, next)
      else htmlLines src cs endMark fuel cur.columnsLeft cur.index lines

/-- Reads a block of HTML that is indented by some columns. -/
def readHtml (src : Source) (cs : List Container) (endMark : Option (List Char))
    (columns i : Nat) : Element × Nat :=
  let (lines, stop, next) := htmlLines src cs endMark (src.stop + 1) columns i []
  (.html (Span.of i stop) (joinLines lines), next)

/-! ## Headings -/

/-- Characters that do not occur among the attributes of a heading. -/
def endsAttributes (c : Char) : Bool :=
  c == '\x7b' || c == '\x7d' || c == '<' || c == '>' || c == '\\' || isLineBreak c

/-- The anchor among the attributes of a heading: the last one that begins with a number sign. -/
def anchorOf (attributes : List Char) : Option String :=
  let blank (c : Char) := c == ' ' || c == '\t' || c == '\n' || c == '\x0c' || c == '\r'
  let ids := (Text.splitList blank attributes).filterMap fun
    | '#' :: c :: cs => some (String.ofList (c :: cs))
    | _ => none
  ids.getLast?

/-- The attributes in braces at the end of a heading's text: the place of the opening brace and the
anchor. -/
def headingAttributes? (src : Source) (start stop : Nat) : Option (Nat × Option String) :=
  let close := src.skipBackWhile (fun c => isLineBreak c || c == ' ' || c == '\t') start stop
  if start < close && src.has '\x7d' (close - 1) then
    let inner := src.skipBackWhile (fun c => !endsAttributes c) start (close - 1)
    if start < inner && src.has '\x7b' (inner - 1) then
      some (inner - 1, anchorOf (src.slice inner (close - 1)))
    else none
  else none

/-- Moves the end of the last token. -/
def endLastAt (stop : Nat) (tokens : Array Token) : Array Token :=
  match tokens.back? with
  | some t => tokens.pop.push { t with stop := stop }
  | none => tokens

/-- The end of a heading's text between two places without closing number signs; nothing when no
text is left. -/
def headingTextEnd? (src : Source) (start stop : Nat) : Option Nat :=
  let limit := src.skipBackWhile (fun c => isLineBreak c || c == ' ') start stop
  let closer := src.skipBackWhile (· == '#') start limit
  if closer == start then none
  else
    let text := src.skipBackWhile (· == ' ') start closer
    some (if text < closer then text else limit)

/-- Reads a heading that begins with `level` number signs. -/
def readHeading (src : Source) (cs : List Container) (level i : Nat) : Element × Nat :=
  match src.lineEnd? (i + level) with
  | some stop => (.heading (Span.of i stop) level none ⟨[], stop, cs, false⟩, stop)
  | none =>
    let start := src.skipSpaces (i + level)
    let next := src.nextLine start
    let (contentEnd, anchor) := (headingAttributes? src start next).getD (next, none)
    let tokens := (readLine src start contentEnd .text #[]).tokens
    let tokens :=
      if tokens.isEmpty then tokens
      else match headingTextEnd? src start contentEnd with
        | some stop => endLastAt stop tokens
        | none => tokens.pop
    (.heading (Span.of i next) level anchor ⟨tokens.toList, next, cs, false⟩, next)

/-- Cuts tokens off at a place. A token that begins there is dropped with those behind it, unless a
backslash was taken away in front of it: then the backslash is kept as text. -/
def cutTokens (stop : Nat) : List Token → List Token
  | [] => []
  | t :: rest =>
    if t.stop < stop then t :: cutTokens stop rest
    else if t.stop == stop then [t]
    else if t.start == stop then
      if t.kind == .escaped then [⟨stop - 1, stop, .escaped⟩] else []
    else [{ t with stop := stop }]

/-- The tokens of an underlined heading that begins at `start`, without its attributes and spaces at
the end, and the anchor. `trailing` says that a backslash follows the tokens. -/
def underlinedTokens (src : Source) (start : Nat) (trailing : Bool) (tokens : Array Token) :
    List Token × Option String :=
  match tokens.back? with
  | none => ([], none)
  | some last =>
    let attributes := headingAttributes? src start last.stop
    let contentEnd := (attributes.map (·.1)).getD last.stop
    let stop := if trailing then contentEnd else src.skipBackWhile isLineSpace start contentEnd
    let tokens := if attributes.isSome then (cutTokens stop tokens.toList).toArray else tokens
    ((endLastAt stop tokens).toList, attributes.bind (·.2))

/-! ## Tables -/

/-- A row of a table: its cells and the place behind it. -/
def rowCells (src : Source) (cs : List Container) : Nat → Nat → List Phrase → List Phrase × Nat
  | 0, i, cells => (cells.reverse, i)
  | fuel + 1, i, cells =>
    let i := src.skipSpaces (if src.has '|' i then i + 1 else i)
    match src.lineEnd? i with
    | some stop => (cells.reverse, stop)
    | none =>
      let line := readLine src i src.stop .ends #[]
      rowCells src cs fuel line.stop (⟨line.tokens.toList, line.stop, cs, true⟩ :: cells)

/-- A row with as many cells as there are columns: cells too many are dropped, missing ones are
empty. -/
def fitRow (columns : Nat) (cells : List Phrase) : List Phrase :=
  cells.take columns ++ List.replicate (columns - cells.length) default

/-- Reads the rows below the head of a table. -/
def tableRows (src : Source) (cs : List Container) (columns : Nat) :
    Nat → Nat → List (List Phrase) → List (List Phrase) × Nat
  | 0, i, rows => (rows.reverse, i)
  | fuel + 1, i, rows =>
    match within? src cs i with
    | none => (rows.reverse, i)
    | some cur =>
      let start := (cur.skipAll src).index
      if interrupts src true true start then (rows.reverse, i)
      else
        let (cells, next) := rowCells src cs (src.stop + 1) start []
        if cells.isEmpty then (rows.reverse, i)
        else tableRows src cs columns fuel next (fitRow columns cells :: rows)

/-- Reads a table whose header row begins at `start`, and whose other rows begin at `body`. -/
def readTable (src : Source) (cs : List Container) (alignments : List CellAlignment)
    (start body : Nat) : Element × Nat :=
  let columns := alignments.length
  let header := (rowCells src cs (src.stop + 1) start []).1
  let (rows, stop) := tableRows src cs columns (src.stop + 1) body []
  (.table (Span.of start stop) alignments (fitRow columns header) rows, stop)

/-! ## Paragraphs -/

/-- What the lines of a paragraph turn out to be. -/
inductive ParagraphEnd where
  | plain (tokens : Array Token) (stop : Nat)
  | underlined (level : Nat) (tokens : List Token) (anchor : Option String) (stop : Nat)
  | tableHead (alignments : List CellAlignment) (body : Nat)
  deriving Inhabited

/-- What follows the line of a paragraph. -/
inductive NextLine where
  | finish
  | underline (level stop : Nat)
  | goOn (i : Nat)
  deriving Inhabited

/-- Looks at the line behind a line of a paragraph. -/
def nextLineOf (src : Source) (cs : List Container) (i : Nat) : NextLine :=
  let (missing, cur) := Container.enterAll src cs (Cursor.start i)
  let current := missing == 0
  let (deep, cur) := cur.takeAll src 4
  let rest : NextLine :=
    let cur := cur.skipAll src
    if cur.atLineEnd src then .finish else .goOn cur.index
  if deep then rest
  else match (if current then src.underline? cur.index else none) with
    | some (level, stop) => .underline level stop
    | none =>
      if interrupts src current false cur.index
        || (current && tableStarts src cs cur.index) then .finish
      else rest

/-- The backslash of a break that ends the lines of a paragraph, as text. -/
def trailingBackslash (lineBreak : Option Token) : Option Token :=
  match lineBreak with
  | some ⟨start, _, .hardBreak true⟩ => some ⟨start, start + 1, .text⟩
  | _ => none

/-- Adds the text of a token, which is joined with text that ends in front of it. -/
def addTextToken (t : Option Token) (tokens : Array Token) : Array Token :=
  match t with
  | some t => LineTokens.addText t.start t.stop false tokens
  | none => tokens

/-- Reads the lines of a paragraph. -/
def paragraphLines (src : Source) (cs : List Container) (start : Nat) :
    Nat → Nat → Array Token → ParagraphEnd
  | 0, i, tokens => .plain tokens i
  | fuel + 1, i, tokens =>
    let first := i == start
    let line := readLine src i src.stop (if first then .counted else .text) tokens
    let head := if first && line.lineBreak.isSome then
        tableHead? src cs start ((src.lineEnd? line.ended).getD line.ended) line.bars line.lastBar
      else none
    match head with
    | some (body, alignments) => .tableHead alignments body
    | none =>
      let backslash := trailingBackslash line.lineBreak
      match nextLineOf src cs line.stop with
      | .finish => .plain (addTextToken backslash line.tokens) line.stop
      | .underline level stop =>
        let (tokens, anchor) := underlinedTokens src start backslash.isSome line.tokens
        .underlined level (addTextToken backslash tokens.toArray).toList anchor stop
      | .goOn j =>
        let tokens := match line.lineBreak with
          | some t => line.tokens.push t
          | none => line.tokens
        paragraphLines src cs start fuel j tokens

/-- Reads a paragraph, or a block that begins like one: an underlined heading or a table. -/
def readParagraph (src : Source) (cs : List Container) (task : Option Bool) (i : Nat) :
    Element × Nat :=
  match paragraphLines src cs i (src.stop + 1) i #[] with
  | .plain tokens stop => (.paragraph (Span.of i stop) task ⟨tokens.toList, stop, cs, false⟩, stop)
  | .underlined level tokens anchor stop =>
    (.heading (Span.of i stop) level anchor ⟨tokens, stop, cs, false⟩, stop)
  | .tableHead alignments body => readTable src cs alignments i body

/-! ## Definitions of labels -/

/-- The place behind the marks of containers in a definition, when the line from `i` on goes on with
it. -/
def definitionLine? (src : Source) (cs : List Container) (i : Nat) : Option Nat :=
  let (missing, cur) := Container.enterAll src cs (Cursor.start i)
  let current := missing == 0
  let (deep, cur) := cur.takeAll src 4
  if deep then some cur.index
  else if interrupts src current false cur.index || (current && tableStarts src cs cur.index)
      || (src.underline? cur.index).isSome then none
  else some cur.index

/-- Skips spaces in a definition and at most one line break, and says whether there was one. -/
def definitionGap? (src : Source) (cs : List Container) (i : Nat) : Option (Nat × Bool) := do
  let j := src.skipSpaces i
  match src.lineEnd? j with
  | none => return (j, false)
  | some k =>
    let k ← definitionLine? src cs k
    let k := src.skipSpaces k
    if src.isLineEnd k then none else return (k, true)

/-- The place behind a title's closing mark, in the lines as they stand. -/
def titleEnd? (src : Source) (closing : Char) : Nat → Nat → Option Nat
  | 0, _ => none
  | fuel + 1, i =>
    match src.at? i with
    | none => none
    | some c =>
      if c == closing then some i
      else if c == '\\' then titleEnd? src closing fuel (i + 2)
      else if c == '\n' then
        let j := src.skipWhile (fun c => isLineSpace c || c == '\r') (i + 1)
        match src.at? j with
        | none => none
        | some d => if d == '\n' then none else titleEnd? src closing fuel j
      else titleEnd? src closing fuel (i + 1)

/-- Reads the title of a definition. -/
def definitionTitle? (src : Source) (i : Nat) : Option (String × Nat) := do
  let opening ← src.at? i
  let closing ← closingMark? opening
  let stop ← titleEnd? src closing (src.stop + 1) (i + 1)
  return (unescape src false (i + 1) stop, stop + 1)

/-- Reads the definition of a label: the label, its target, and the place behind them. A title that
something follows on its line is none; without a line break in front it spoils the definition. -/
def readDefinition? (src : Source) (cs : List Container) (i : Nat) :
    Option (String × Target × Nat) := do
  let (label, i) ← readLabel? src false (definitionLine? src cs) i
  unless src.has ':' i do none
  let (i, _) ← definitionGap? src cs (i + 1)
  let (url, stop) ← readDestination? src false i
  unless i < stop do none
  let plain := (label, (⟨url, ""⟩ : Target), stop)
  match definitionGap? src cs stop with
  | none => return plain
  | some (j, broken) =>
    if j == stop then none
    else
      let titled := match definitionTitle? src j with
        | some (title, k) =>
          if (src.blankLine? k).isSome then some (label, (⟨url, title⟩ : Target), k) else none
        | none => none
      match titled with
      | some t => return t
      | none => if broken then return plain else none

end BlockDoc.Markdown
