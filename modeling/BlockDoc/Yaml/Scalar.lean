import BlockDoc.Yaml.Token

/-!
The scalars of YAML text: quoted and plain scalars, whose line breaks are folded, and block scalars.
Every reader starts at a place and answers with the text and the place behind it. The fuel counts
characters, so the length of the text is enough.
-/

namespace BlockDoc.Yaml

/-- White space met inside a scalar that is not yet known to belong to it. -/
structure Pending where
  /-- Spaces and tabs of the line, last one first. -/
  spaces : List Char
  /-- What the first line break contributes. -/
  first : List Char
  /-- What the later line breaks contribute. -/
  later : List Char
  /-- Whether a line break was met. -/
  broken : Bool
  deriving Inhabited

namespace Pending

/-- Nothing is pending. -/
def empty : Pending := ⟨[], [], [], false⟩

/-- The characters that the pending white space stands for: a single line break is a space, the
first one of several is dropped. -/
def folded (p : Pending) : List Char :=
  if p.broken then
    if p.first == ['\n'] then (if p.later.isEmpty then [' '] else p.later)
    else p.first ++ p.later
  else p.spaces.reverse

/-- One more space or tab. -/
def space (c : Char) (p : Pending) : Pending :=
  if p.broken then p else { p with spaces := c :: p.spaces }

/-- One more line break. -/
def lineBreak (cs : List Char) (p : Pending) : Pending :=
  if p.broken then { p with later := p.later ++ cs }
  else { p with spaces := [], first := cs, broken := true }

end Pending

/-- The value of a hexadecimal digit. -/
def hexDigit? (c : Char) : Option Nat :=
  if '0' ≤ c ∧ c ≤ '9' then some (c.toNat - '0'.toNat)
  else if 'a' ≤ c ∧ c ≤ 'f' then some (c.toNat - 'a'.toNat + 10)
  else if 'A' ≤ c ∧ c ≤ 'F' then some (c.toNat - 'A'.toNat + 10)
  else none

/-- The number written by hexadecimal digits. -/
def hexNumber? (cs : List Char) : Option Nat :=
  cs.foldlM (fun acc c => (hexDigit? c).map (16 * acc + ·)) 0

/-- The character of a code point that is no surrogate. -/
def charOf? (n : Nat) : Option Char := if n.isValidChar then some (Char.ofNat n) else none

/-- The escapes of one letter. -/
def simpleEscape? (c : Char) : Option Char :=
  if c == '0' then some '\x00'
  else if c == 'a' then some '\x07'
  else if c == 'b' then some '\x08'
  else if c == 't' || c == '\t' then some '\t'
  else if c == 'n' then some '\n'
  else if c == 'v' then some '\x0b'
  else if c == 'f' then some '\x0c'
  else if c == 'r' then some '\r'
  else if c == 'e' then some '\x1b'
  else if c == ' ' || c == '"' || c == '/' || c == '\\' then some c
  else if c == 'N' then some '\u0085'
  else if c == '_' then some '\u00a0'
  else if c == 'L' then some '\u2028'
  else if c == 'P' then some '\u2029'
  else none

/-- The number of digits of an escape by number. -/
def escapeDigits? (c : Char) : Option Nat :=
  if c == 'x' then some 2 else if c == 'u' then some 4 else if c == 'U' then some 8 else none

/-- Reads an escape whose backslash stands at `p`. -/
def readEscape (src : Source) (p : Place) : Except Error (Char × Place) :=
  let c := src.peek (p.index + 1)
  match simpleEscape? c with
  | some e => .ok (e, p.skipBy 2)
  | none =>
    match escapeDigits? c with
    | none => .error .unknownEscape
    | some n =>
      let digits := (src.extract (p.index + 2) (p.index + 2 + n)).toList
      match (if digits.length == n then hexNumber? digits else none).bind charOf? with
      | some e => .ok (e, p.skipBy (2 + n))
      | none => .error .unknownEscape

mutual

/-- Reads the characters of a quoted scalar; `text` holds what was read, last character first. -/
def readQuotedText (src : Source) (single : Bool) : Nat → Place → List Char →
    Except Error (String × Place)
  | 0, _, _ => .error .unclosedScalar
  | fuel + 1, p, text =>
    let c := src.peek p.index
    let next := src.peek (p.index + 1)
    if isGap c then
      if c == '\x00' then .error .unclosedScalar
      else readQuotedGap src single fuel p text .empty
    else if single && c == '\'' && next == '\'' then
      readQuotedText src single fuel (p.skipBy 2) ('\'' :: text)
    else if c == (if single then '\'' else '"') then .ok (String.ofList text.reverse, p.skip)
    else if !single && c == '\\' && isBreak next then
      let q := p.skip.skipLine src
      if src.peek q.index == '"' then .ok (String.ofList text.reverse, q.skip)
      else readQuotedGap src single fuel q text { Pending.empty with broken := true }
    else if !single && c == '\\' then
      match readEscape src p with
      | .error e => .error e
      | .ok (e, q) => readQuotedText src single fuel q (e :: text)
    else readQuotedText src single fuel p.skip (c :: text)

/-- Reads white space inside a quoted scalar. -/
def readQuotedGap (src : Source) (single : Bool) : Nat → Place → List Char → Pending →
    Except Error (String × Place)
  | 0, _, _, _ => .error .unclosedScalar
  | fuel + 1, p, text, pending =>
    let c := src.peek p.index
    if isSpace c then readQuotedGap src single fuel p.skip text (pending.space c)
    else if isBreak c then
      readQuotedGap src single fuel (p.skipLine src) text (pending.lineBreak (p.lineBreak src))
    else if p.atDocumentMark src then .error .documentMarkInScalar
    else readQuotedText src single fuel p (pending.folded.reverse ++ text)

end

/-- Reads a quoted scalar whose quotation mark stands at `p`. -/
def readQuoted (src : Source) (single : Bool) (p : Place) : Except Error (String × Place) :=
  readQuotedText src single (3 * src.size + 3) p.skip []

/-! ## Plain scalars -/

/-- What was read of a plain scalar, and whether a line break followed it. -/
structure Plain where
  text : String
  place : Place
  brokenAfter : Bool
  deriving Inhabited

/-- Whether a plain scalar ends before the character at `i`. -/
def endsPlain (src : Source) (inFlow : Bool) (i : Nat) : Bool :=
  let c := src.peek i
  (c == ':' && isGap (src.peek (i + 1)))
    || (inFlow && (c == ',' || c == '[' || c == ']' || c == '{' || c == '}'))

/-- Whether a colon in a flow collection runs into an indicator. -/
def isStrayColon (src : Source) (inFlow : Bool) (i : Nat) : Bool :=
  let next := src.peek (i + 1)
  inFlow && src.peek i == ':'
    && (next == ',' || next == '?' || next == '[' || next == ']' || next == '{' || next == '}')

mutual

/-- Reads the characters of a plain scalar. Pending white space is taken in with the character
after it. -/
def readPlainText (src : Source) (inFlow : Bool) (indent : Int) : Nat → Place → List Char →
    Pending → Except Error Plain
  | 0, p, text, pending => .ok ⟨String.ofList text.reverse, p, pending.broken⟩
  | fuel + 1, p, text, pending =>
    let c := src.peek p.index
    if c == '\x00' then .ok ⟨String.ofList text.reverse, p, pending.broken⟩
    else if isGap c then readPlainGap src inFlow indent fuel p text pending
    else if isStrayColon src inFlow p.index then .error .strayColon
    else if endsPlain src inFlow p.index then
      .ok ⟨String.ofList text.reverse, p, pending.broken⟩
    else
      readPlainText src inFlow indent fuel p.skip (c :: (pending.folded.reverse ++ text)) .empty

/-- Reads white space inside a plain scalar; afterwards a document mark, a comment or a lesser
indentation ends the scalar. -/
def readPlainGap (src : Source) (inFlow : Bool) (indent : Int) : Nat → Place → List Char →
    Pending → Except Error Plain
  | 0, p, text, pending => .ok ⟨String.ofList text.reverse, p, pending.broken⟩
  | fuel + 1, p, text, pending =>
    let c := src.peek p.index
    if isSpace c then
      if pending.broken && (p.column : Int) < indent && c == '\t' then .error .tabInIndentation
      else readPlainGap src inFlow indent fuel p.skip text (pending.space c)
    else if isBreak c then
      readPlainGap src inFlow indent fuel (p.skipLine src) text
        (pending.lineBreak (p.lineBreak src))
    else if (!inFlow && (p.column : Int) < indent) || p.atDocumentMark src || c == '#' then
      .ok ⟨String.ofList text.reverse, p, pending.broken⟩
    else readPlainText src inFlow indent fuel p text pending

end

/-- Reads a plain scalar that starts at `p`; its lines are indented by `indent` at least. -/
def readPlain (src : Source) (inFlow : Bool) (indent : Int) (p : Place) : Except Error Plain :=
  readPlainText src inFlow indent (3 * src.size + 3) p [] .empty

/-! ## Block scalars -/

/-- What happens to the line breaks at the end of a block scalar. -/
inductive Chomping where
  | strip
  | clip
  | keep
  deriving DecidableEq, Repr, Inhabited

/-- The header of a block scalar: its chomping and the indentation it asks for, zero for none. -/
structure BlockHeader where
  chomping : Chomping
  increment : Nat
  deriving Inhabited

/-- The chomping of an indicator. -/
def chompingOf? (c : Char) : Option Chomping :=
  if c == '+' then some .keep else if c == '-' then some .strip else none

/-- Reads an indentation indicator, zero when there is none. -/
def readIncrement (src : Source) (p : Place) : Except Error (Nat × Place) :=
  let c := src.peek p.index
  if c == '0' then .error .badBlockHeader
  else if c.isDigit then .ok (c.toNat - '0'.toNat, p.skip)
  else .ok (0, p)

/-- Reads the indicators of a block scalar, in either order. -/
def readIndicators (src : Source) (p : Place) : Except Error (BlockHeader × Place) := do
  match chompingOf? (src.peek p.index) with
  | some chomping =>
    let (increment, q) ← readIncrement src p.skip
    return (⟨chomping, increment⟩, q)
  | none =>
    let (increment, q) ← readIncrement src p
    match (if increment == 0 then none else chompingOf? (src.peek q.index)) with
    | some chomping => return (⟨chomping, increment⟩, q.skip)
    | none => return (⟨.clip, increment⟩, q)

/-- The place after blanks and a comment. -/
def skipComment (src : Source) (p : Place) : Place :=
  let q := p.skipWhile src isSpace
  if src.peek q.index == '#' then q.skipWhile src (fun c => !isBreak c) else q

/-- The empty lines before the next line of a block scalar: what their breaks contribute, where they
end, and the greatest column that was reached. An indentation of zero is not yet known. -/
def readEmptyLines (src : Source) (indent : Nat) : Nat → Place → List Char → Nat →
    Except Error (List Char × Place × Nat)
  | 0, p, breaks, widest => .ok (breaks, p, widest)
  | fuel + 1, p, breaks, widest =>
    let c := src.peek p.index
    let within := indent == 0 || p.column < indent
    if within && c == ' ' then readEmptyLines src indent fuel p.skip breaks widest
    else
      let widest := max widest p.column
      if within && c == '\t' then .error .tabInIndentation
      else if isBreak c then
        readEmptyLines src indent fuel (p.skipLine src) (breaks ++ p.lineBreak src) widest
      else .ok (breaks, p, widest)

/-- What a block scalar holds while its lines are read. -/
structure BlockText where
  /-- The text so far, last character first. -/
  text : List Char
  /-- The break at the end of the line read last. -/
  leading : List Char
  /-- The breaks of the empty lines after it. -/
  trailing : List Char
  /-- Whether that line starts with a blank. -/
  blankStart : Bool
  deriving Inhabited

/-- Adds the breaks before a line; a folded scalar turns a single break between two lines that start
with no blank into a space. -/
def BlockText.join (b : BlockText) (literal blankStart : Bool) : List Char :=
  let joint :=
    if !literal && b.leading == ['\n'] && !b.blankStart && !blankStart then
      if b.trailing.isEmpty then [' '] else b.trailing
    else b.leading ++ b.trailing
  joint.reverse ++ b.text

/-- Reads the lines of a block scalar that stand at column `indent`. -/
def readBlockLines (src : Source) (literal : Bool) (indent : Nat) : Nat → Place → BlockText →
    Except Error (BlockText × Place)
  | 0, p, b => .ok (b, p)
  | fuel + 1, p, b =>
    let c := src.peek p.index
    if p.column == indent && c != '\x00' then
      let blankStart := isSpace c
      let q := p.skipWhile src (fun c => !isBreak c)
      let line := (src.extract p.index q.index).toList
      let text := line.reverse ++ b.join literal blankStart
      let leading := q.lineBreak src
      let r := if isBreak (src.peek q.index) then q.skipLine src else q
      match readEmptyLines src indent (src.size + 1) r [] 0 with
      | .error e => .error e
      | .ok (trailing, s, _) =>
        readBlockLines src literal indent fuel s ⟨text, leading, trailing, blankStart⟩
    else .ok (b, p)

/-- Reads a block scalar whose indicator stands at `p`, below the indentation `parent`. -/
def readBlock (src : Source) (literal : Bool) (parent : Int) (p : Place) :
    Except Error (String × Place) := do
  let (header, q) ← readIndicators src p.skip
  let q := skipComment src q
  unless isBreakOrEnd (src.peek q.index) do throw .badBlockHeader
  let q := if isBreak (src.peek q.index) then q.skipLine src else q
  let asked : Nat :=
    if header.increment == 0 then 0
    else if 0 ≤ parent then parent.toNat + header.increment else header.increment
  let (breaks, q, widest) ← readEmptyLines src asked (src.size + 1) q [] 0
  let indent := if asked == 0 then max (max widest (parent + 1).toNat) 1 else asked
  let (b, q) ← readBlockLines src literal indent (src.size + 1) q ⟨[], [], breaks, false⟩
  let tail := match header.chomping with
    | .strip => []
    | .clip => b.leading
    | .keep => b.leading ++ b.trailing
  return (String.ofList (b.text.reverse ++ tail), q)

end BlockDoc.Yaml
