import BlockDoc.Text.Blank
import BlockDoc.Markdown.NamedCharacter
import BlockDoc.Markdown.Punctuation

/-!
The tokens of a line of text: runs of delimiters, brackets, backticks and the text between them.
What the tokens mean is settled when the whole block is known.
-/

namespace BlockDoc.Markdown

/-- What a token is. -/
inductive TokenKind where
  /-- The characters of the token stand for themselves. -/
  | text
  /-- The same, where a backslash was taken away in front. -/
  | escaped
  /-- A reference to a character, decoded. -/
  | decoded (s : String)
  | softBreak
  /-- A line break that is kept, made by a backslash or by spaces. -/
  | hardBreak (backslash : Bool)
  /-- A run of `count` delimiters that may open or close emphasis. -/
  | delimiters (mark : Char) (count : Nat) (opens closes : Bool)
  /-- A run of backticks; the first one may be escaped. -/
  | backticks (count : Nat) (escaped : Bool)
  | angle
  | openBracket
  | openImage
  | closeBracket
  deriving DecidableEq, Repr, Inhabited

/-- A token and the places around it. -/
structure Token where
  start : Nat
  stop : Nat
  kind : TokenKind
  deriving DecidableEq, Repr, Inhabited

/-- How bars are taken: as text, as bars that may divide the header of a table, or as the ends of
the cells of a table. -/
inductive BarMode where
  | text
  | counted
  | ends
  deriving DecidableEq, Repr, Inhabited

/-- Whether the delimiters between `i` and `j` may open emphasis. Their line starts at `start`. -/
def canOpen (src : Source) (start i j : Nat) (inCell : Bool) : Bool :=
  match src.at? j with
  | none => false
  | some next =>
    if Text.isBlank next then false
    else if i == start then true
    else
      let mark := (src.at? i).getD ' '
      let prev := (src.at? (i - 1)).getD ' '
      if inCell && prev == '|' && !(start + 1 < i && src.has '\\' (i - 2)) then true
      else if inCell && next == '|' then false
      else if mark == '*' && !isPunctuation next then true
      else if mark == '~' && 1 < j - i then true
      else if mark == '~' && prev == '~' && !isPunctuation next then true
      else Text.isBlank prev || isPunctuation prev

/-- Whether the delimiters between `i` and `j` may close emphasis. -/
def canClose (src : Source) (start i j : Nat) (inCell : Bool) : Bool :=
  if i == start then false
  else
    let mark := (src.at? i).getD ' '
    let prev := (src.at? (i - 1)).getD ' '
    if Text.isBlank prev then false
    else match src.at? j with
      | none => true
      | some next =>
        if inCell && prev == '|' && !(start + 1 < i && src.has '\\' (i - 2)) then false
        else if inCell && next == '|' then true
        else if (mark == '*' || (mark == '~' && 1 < j - i)) && !isPunctuation prev then true
        else if mark == '~' && prev == '~' then true
        else Text.isBlank next || isPunctuation next

/-- The tokens of a line while it is read. -/
structure LineTokens where
  tokens : Array Token
  /-- The start of the text that belongs to no token yet. -/
  pending : Nat
  /-- Whether a backslash was taken away in front of it. -/
  escaped : Bool
  /-- The number of bars that were counted, and the place of the last one. -/
  bars : Nat
  lastBar : Nat
  deriving Inhabited

namespace LineTokens

/-- Adds text; text that goes on where other text ends is joined with it. -/
def addText (start stop : Nat) (escaped : Bool) (tokens : Array Token) : Array Token :=
  if start < stop then
    match tokens.back? with
    | some last =>
      if (last.kind == .text || last.kind == .escaped) && last.stop == start then
        tokens.pop.push { last with stop := stop }
      else tokens.push ⟨start, stop, if escaped then .escaped else .text⟩
    | none => tokens.push ⟨start, stop, if escaped then .escaped else .text⟩
  else tokens

/-- Makes the pending text up to `i` a token. -/
def flush (i : Nat) (t : LineTokens) : LineTokens :=
  { t with tokens := addText t.pending i t.escaped t.tokens, pending := i, escaped := false }

/-- Adds a token behind the pending text. -/
def add (start stop : Nat) (kind : TokenKind) (t : LineTokens) : LineTokens :=
  let t := t.flush start
  { t with tokens := t.tokens.push ⟨start, stop, kind⟩, pending := stop }

/-- Takes a backslash at `i` away; the text goes on at `j`. -/
def escape (i j : Nat) (escaped : Bool) (t : LineTokens) : LineTokens :=
  { t.flush i with pending := j, escaped := escaped }

end LineTokens

/-- A line that was read: its tokens, the place where reading ended, and the break there. -/
structure Line where
  tokens : Array Token
  stop : Nat
  lineBreak : Option Token
  bars : Nat
  lastBar : Nat
  /-- The place of the character that ended the line. -/
  ended : Nat
  deriving Inhabited

/-- The end of a line, where a break or, at the end of the text, no break follows. -/
def endLine (src : Source) (i : Nat) (breaks : Bool) (t : LineTokens) : Line :=
  if breaks then
    let stop := (src.lineEnd? i).getD i
    let slashes := i - src.skipBackWhile (· == '\\') t.pending i
    let spaces := i - src.skipBackWhile isLineSpace t.pending i
    let (start, kind) :=
      if slashes % 2 == 1 && stop < src.stop then (i - 1, TokenKind.hardBreak true)
      else if 2 ≤ spaces then (i - spaces, TokenKind.hardBreak false)
      else (i - spaces, TokenKind.softBreak)
    ⟨(t.flush start).tokens, stop, some ⟨start, stop, kind⟩, t.bars, t.lastBar, i⟩
  else
    let spaces := i - src.skipBackWhile isLineSpace t.pending i
    ⟨(t.flush (i - spaces)).tokens, i, none, t.bars, t.lastBar, i⟩

/-- Reads the characters of a line from `i` on. The text `whole` goes on behind the end of `src`. -/
def readLineFrom (whole src : Source) (start : Nat) (mode : BarMode) :
    Nat → Nat → LineTokens → Line
  | 0, i, t => endLine src i false t
  | fuel + 1, i, t =>
    let go := readLineFrom whole src start mode fuel
    let inCell := mode == .ends
    match src.at? i with
    | none => endLine src i false t
    | some c =>
      if isLineBreak c then endLine src i (!inCell) t
      else if c == '\\' then
        if src.holds isAsciiPunctuation (i + 1) then
          if src.has '`' (i + 1) then
            let n := src.runLength '`' (i + 1)
            go (i + 1 + n) ((t.escape i (i + 1) false).add (i + 1) (i + 1 + n) (.backticks n true))
          else if inCell && src.has '|' (i + 1) then go (i + 2) (t.escape i (i + 1) false)
          else if inCell && src.has '\\' (i + 1) && src.has '|' (i + 2) then
            go (i + 3) (t.escape i (i + 2) true)
          else go (i + 2) (t.escape i (i + 1) true)
        else go (i + 1) t
      else if c == '*' || c == '_' || c == '~' then
        let n := src.runLength c i
        let opens := canOpen whole start i (i + n) inCell
        let closes := canClose whole start i (i + n) inCell
        if (opens || closes) && (c != '~' || n ≤ 2) then
          go (i + n) (t.add i (i + n) (.delimiters c n opens closes))
        else go (i + n) t
      else if c == '`' then
        let n := src.runLength '`' i
        go (i + n) (t.add i (i + n) (.backticks n false))
      else if c == '<' && !src.has '\\' (i + 1) then go (i + 1) (t.add i (i + 1) .angle)
      else if c == '!' && src.has '[' (i + 1) then go (i + 2) (t.add i (i + 2) .openImage)
      else if c == '[' then go (i + 1) (t.add i (i + 1) .openBracket)
      else if c == ']' then go (i + 1) (t.add i (i + 1) .closeBracket)
      else if c == '&' then
        match readReference? src i with
        | some (s, j) => go j (t.add i j (.decoded s))
        | none => go (i + 1) t
      else if c == '|' && mode != .text && !(0 < i && src.has '\\' (i - 1)) then
        if inCell then endLine src i false t
        else go (i + 1) { t with bars := t.bars + 1, lastBar := i }
      else go (i + 1) t

/-- Reads a line from `start` on, not beyond `stop`, and adds its tokens. -/
def readLine (src : Source) (start stop : Nat) (mode : BarMode) (tokens : Array Token) : Line :=
  readLineFrom src (src.upTo stop) start mode (src.stop + 1) start ⟨tokens, start, false, 0, start⟩

end BlockDoc.Markdown
