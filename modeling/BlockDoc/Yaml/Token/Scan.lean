import BlockDoc.Yaml.Scalar

/-!
From YAML text to tokens. The scanner keeps the indentation of the open block collections and, for
each open flow collection, the place where a key without indicator may have started; such a key is
known only when its colon comes, and its tokens are then put in front of it.
-/

namespace BlockDoc.Yaml

/-- A place where a key without indicator may have started. It must be one when it stands at the
indentation of a block collection. -/
structure KeyStart where
  required : Bool
  /-- The number of tokens before the key. -/
  tokenIndex : Nat
  place : Place
  deriving Inhabited

/-- What the scanner knows at a place. -/
structure Scanner where
  place : Place
  tokens : Array Token
  /-- The column of the innermost block collection, `-1` for none. -/
  indent : Int
  /-- The columns of the collections around it. -/
  outerIndents : List Int
  /-- The possible key of each open flow collection, innermost first; the last one belongs to the
  block context. -/
  keys : List (Option KeyStart)
  /-- Whether a key without indicator may start here. -/
  keyAllowed : Bool
  deriving Inhabited

namespace Scanner

/-- The scanner at the start of a text. -/
def start : Scanner := ⟨⟨0, 0, 0⟩, #[], -1, [], [none], true⟩

/-- Whether a flow collection is open. -/
def inFlow (s : Scanner) : Bool := 1 < s.keys.length

/-- Adds a token. -/
def emit (t : Token) (s : Scanner) : Scanner := { s with tokens := s.tokens.push t }

/-- Puts a token in front of the one with a given index. -/
def emitAt (i : Nat) (t : Token) (s : Scanner) : Scanner :=
  { s with tokens := (s.tokens.extract 0 i).push t ++ s.tokens.extract i s.tokens.size }

/-- Moves past `n` characters. -/
def advance (n : Nat) (s : Scanner) : Scanner := { s with place := s.place.skipBy n }

/-- Drops a possible key; one that is required is missing its colon. -/
def dropKey (s : Scanner) : Except Error Scanner :=
  match s.keys with
  | some k :: rest =>
    if k.required then .error .keyWithoutColon else .ok { s with keys := none :: rest }
  | _ => .ok s

/-- Remembers that a key may start here. -/
def markKey (s : Scanner) : Except Error Scanner := do
  if s.keyAllowed then
    let required := !s.inFlow && s.indent == (s.place.column : Int)
    let s ← s.dropKey
    return { s with keys := some ⟨required, s.tokens.size, s.place⟩ :: s.keys.tail }
  else return s

/-- Whether a key started too far back: on another line or more than 1024 characters ago. -/
def isStale (s : Scanner) (k : KeyStart) : Bool :=
  k.place.line < s.place.line || k.place.index + 1024 < s.place.index

/-- Forgets the keys that started too far back. -/
def dropStaleKeys (s : Scanner) : Except Error Scanner := do
  let keys ← s.keys.mapM fun
    | some k =>
      if s.isStale k then
        if k.required then .error Error.keyWithoutColon else .ok none
      else .ok (some k)
    | none => .ok none
  return { s with keys := keys }

/-- Opens a block collection at a column deeper than the current one; its token comes last, or in
front of the token `before?`. -/
def openBlock (column : Nat) (before? : Option Nat) (t : Token) (s : Scanner) : Scanner :=
  if !s.inFlow && s.indent < (column : Int) then
    let s := { s with indent := column, outerIndents := s.indent :: s.outerIndents }
    match before? with
    | some i => s.emitAt i t
    | none => s.emit t
  else s

/-- Closes the block collections deeper than a column, given the columns around the current one. -/
def closeBlocksFrom (column : Int) : List Int → Scanner → Scanner
  | [], s => s
  | outer :: rest, s =>
    if column < s.indent then
      closeBlocksFrom column rest { s.emit .blockEnd with indent := outer, outerIndents := rest }
    else s

/-- Closes the block collections deeper than a column. -/
def closeBlocks (column : Int) (s : Scanner) : Scanner :=
  if s.inFlow then s else closeBlocksFrom column s.outerIndents s

/-- Skips blanks, comments and line breaks up to the next token. Tabs count as blanks only where no
key may start. -/
def skipGap (src : Source) : Nat → Scanner → Scanner
  | 0, s => s
  | fuel + 1, s =>
    let p := if s.place.index == 0 && src.peek 0 == '\ufeff' then s.place.skip else s.place
    let tabs := s.inFlow || !s.keyAllowed
    let p := p.skipWhile src (fun c => c == ' ' || (tabs && c == '\t'))
    let p := if src.peek p.index == '#' then p.skipWhile src (fun c => !isBreak c) else p
    if isBreak (src.peek p.index) then
      skipGap src fuel
        { s with place := p.skipLine src, keyAllowed := s.keyAllowed || !s.inFlow }
    else { s with place := p }

/-! ## Directives, anchors and tags -/

/-- Reads a part of a version number: one to nine digits. -/
def readVersionPart (src : Source) (p : Place) : Except Error (Nat × Place) :=
  let q := p.skipWhile src Char.isDigit
  let n := q.index - p.index
  if n == 0 || 9 < n then .error .badDirective
  else .ok ((src.extract p.index q.index).foldl
    (fun acc c => 10 * acc + (c.toNat - '0'.toNat)) 0, q)

/-- Reads a version: two numbers with a point between them. -/
def readVersion (src : Source) (p : Place) : Except Error (Token × Place) := do
  let (major, q) ← readVersionPart src (p.skipWhile src isSpace)
  unless src.peek q.index == '.' do throw .badDirective
  let (minor, q) ← readVersionPart src q.skip
  return (.version major minor, q)

/-- Reads a tag handle: an exclamation mark, name characters, and perhaps another mark. In a
directive a handle without the second mark is a lone mark. -/
def readTagHandle (src : Source) (directive : Bool) (p : Place) :
    Except Error (String × Place) :=
  if src.peek p.index != '!' then .error .badTag
  else
    let q := p.skip.skipWhile src isNameChar
    if src.peek q.index == '!' then .ok (p.textTo src q.skip, q.skip)
    else if directive && q.index != p.index + 1 then .error .badTag
    else .ok (p.textTo src q, q)

/-- Characters of a tag's address; inside angle brackets a comma and square brackets as well. -/
def isTagChar (verbatim : Bool) (c : Char) : Bool :=
  isNameChar c || c == ';' || c == '/' || c == '?' || c == ':' || c == '@' || c == '&' || c == '='
    || c == '+' || c == '$' || c == '.' || c == '%' || c == '!' || c == '~' || c == '*' || c == '\''
    || c == '(' || c == ')' || (verbatim && (c == ',' || c == '[' || c == ']'))

/-- Reads the value of an escape of two digits behind a percent sign. -/
def readOctet (src : Source) (i : Nat) : Except Error Nat :=
  match (if src.peek i == '%' then hexNumber? [src.peek (i + 1), src.peek (i + 2)] else none) with
  | some n => .ok n
  | none => .error .badTag

/-- Reads escaped bytes that together form one character. -/
def readTagEscape (src : Source) (p : Place) : Except Error (Char × Place) := do
  let first ← readOctet src p.index
  let (more, lead) ←
    if first < 0x80 then .ok (0, first)
    else if 0xc0 ≤ first && first < 0xe0 then .ok (1, first - 0xc0)
    else if 0xe0 ≤ first && first < 0xf0 then .ok (2, first - 0xe0)
    else if 0xf0 ≤ first && first < 0xf8 then .ok (3, first - 0xf0)
    else .error Error.badTag
  let n ← (List.range more).foldlM (fun acc k => do
    let octet ← readOctet src (p.index + 3 * (k + 1))
    if 0x80 ≤ octet && octet < 0xc0 then return 64 * acc + (octet - 0x80)
    else throw Error.badTag) lead
  match charOf? n with
  | some c => return (c, p.skipBy (3 * (more + 1)))
  | none => throw .badTag

/-- Reads the characters of a tag's address, last one first. -/
def readTagChars (src : Source) (verbatim : Bool) : Nat → Place → List Char →
    Except Error (List Char × Place)
  | 0, p, cs => .ok (cs, p)
  | fuel + 1, p, cs =>
    let c := src.peek p.index
    if !isTagChar verbatim c then .ok (cs, p)
    else if c == '%' then
      match readTagEscape src p with
      | .error e => .error e
      | .ok (e, q) => readTagChars src verbatim fuel q (e :: cs)
    else readTagChars src verbatim fuel p.skip (c :: cs)

/-- Reads a tag's address; `head` was read before and belongs to it, less its exclamation mark. -/
def readTagAddress (src : Source) (verbatim : Bool) (head : String) (p : Place) :
    Except Error (String × Place) := do
  let (cs, q) ← readTagChars src verbatim (src.size + 1) p (head.toList.drop 1).reverse
  if head.isEmpty && q.index == p.index then throw .badTag
  return (String.ofList cs.reverse, q)

/-- Reads the handle and the replacement of a tag directive. -/
def readTagDirective (src : Source) (p : Place) : Except Error (Token × Place) := do
  let (handle, q) ← readTagHandle src true (p.skipWhile src isSpace)
  unless isSpace (src.peek q.index) do throw .badDirective
  let (replacement, q) ← readTagAddress src true "" (q.skipWhile src isSpace)
  unless isGap (src.peek q.index) do throw .badDirective
  return (.tagHandle handle replacement, q)

/-- Reads a directive whose percent sign stands at `p`. -/
def readDirective (src : Source) (p : Place) : Except Error (Token × Place) := do
  let q := p.skip.skipWhile src isNameChar
  let name := p.skip.textTo src q
  if name.isEmpty || !isGap (src.peek q.index) then throw .badDirective
  let (token, q) ←
    if name == "YAML" then readVersion src q
    else if name == "TAG" then readTagDirective src q
    else throw .unknownDirective
  let q := skipComment src q
  unless isBreakOrEnd (src.peek q.index) do throw .badDirective
  return (token, if isBreak (src.peek q.index) then q.skipLine src else q)

/-- Reads the name of an anchor or an alias whose indicator stands at `p`. -/
def readAnchor (src : Source) (p : Place) : Except Error (String × Place) :=
  let q := p.skip.skipWhile src isNameChar
  let c := src.peek q.index
  if q.index == p.index + 1 then .error .badAnchor
  else if isGap c || c == '?' || c == ':' || c == ',' || c == ']' || c == '}' || c == '%'
      || c == '@' || c == '`' then
    .ok (p.skip.textTo src q, q)
  else .error .badAnchor

/-- Reads a tag: verbatim in angle brackets, a suffix behind a handle, or a suffix behind a lone
exclamation mark, which may also stand alone. -/
def readTag (src : Source) (inFlow : Bool) (p : Place) : Except Error (Token × Place) := do
  let (handle, suffix, q) ←
    if src.peek (p.index + 1) == '<' then do
      let (suffix, q) ← readTagAddress src true "" (p.skipBy 2)
      unless src.peek q.index == '>' do throw .badTag
      pure ("", suffix, q.skip)
    else do
      let (handle, q) ← readTagHandle src false p
      if 1 < handle.length && handle.endsWith "!" then do
        let (suffix, q) ← readTagAddress src false "" q
        pure (handle, suffix, q)
      else do
        let (suffix, q) ← readTagAddress src false handle q
        if suffix.isEmpty then pure ("", "!", q) else pure ("!", suffix, q)
  let c := src.peek q.index
  if isGap c || (inFlow && c == ',') then return (.tag handle suffix, q) else throw .badTag

/-! ## One token after the other -/

/-- A directive or a document mark closes every block and forgets a possible key. -/
def endBlocks (s : Scanner) : Except Error Scanner := do
  let s ← (s.closeBlocks (-1)).dropKey
  return { s with keyAllowed := false }

/-- The end of the text, as if on a line of its own. -/
def finish (s : Scanner) : Except Error Scanner := do
  let s ← s.endBlocks
  return s.emit .streamEnd

/-- Opens a flow collection. -/
def openFlow (t : Token) (s : Scanner) : Except Error Scanner := do
  let s ← s.markKey
  return ({ s with keys := none :: s.keys, keyAllowed := true }.advance 1).emit t

/-- Closes a flow collection. -/
def closeFlow (t : Token) (s : Scanner) : Except Error Scanner := do
  let s ← s.dropKey
  let keys := if s.inFlow then s.keys.tail else s.keys
  return ({ s with keys := keys, keyAllowed := false }.advance 1).emit t

/-- A comma between the entries of a flow collection. -/
def flowEntry (s : Scanner) : Except Error Scanner := do
  let s ← s.dropKey
  return ({ s with keyAllowed := true }.advance 1).emit .flowEntry

/-- The dash of an entry of a block sequence. -/
def blockEntry (s : Scanner) : Except Error Scanner := do
  if !s.inFlow && !s.keyAllowed then throw .entryNotAllowed
  let s ← (s.openBlock s.place.column none .blockSequenceStart).dropKey
  return ({ s with keyAllowed := true }.advance 1).emit .blockEntry

/-- The question mark of a key. -/
def keyIndicator (s : Scanner) : Except Error Scanner := do
  if !s.inFlow && !s.keyAllowed then throw .keyNotAllowed
  let s ← (s.openBlock s.place.column none .blockMappingStart).dropKey
  return ({ s with keyAllowed := !s.inFlow }.advance 1).emit .key

/-- The colon of a value. A key that may have started earlier is now known to be one. -/
def valueIndicator (s : Scanner) : Except Error Scanner := do
  match s.keys with
  | some k :: rest =>
    let s := (s.emitAt k.tokenIndex .key).openBlock k.place.column (some k.tokenIndex)
      .blockMappingStart
    return ({ s with keys := none :: rest, keyAllowed := false }.advance 1).emit .value
  | _ =>
    if !s.inFlow && !s.keyAllowed then throw .valueNotAllowed
    let s := s.openBlock s.place.column none .blockMappingStart
    return ({ s with keyAllowed := !s.inFlow }.advance 1).emit .value

/-- A token that may be a key, read by `read`. -/
def keyToken (read : Place → Except Error (Token × Place)) (s : Scanner) :
    Except Error Scanner := do
  let s ← s.markKey
  let (t, p) ← read s.place
  return { s with place := p, keyAllowed := false }.emit t

/-- A block scalar; a key may start behind it. -/
def blockScalar (src : Source) (literal : Bool) (s : Scanner) : Except Error Scanner := do
  let s ← s.dropKey
  let (text, p) ← readBlock src literal s.indent s.place
  return { s with place := p, keyAllowed := true }.emit (.scalar text false)

/-- A plain scalar; a key may start behind it when a line break was passed. -/
def plainScalar (src : Source) (s : Scanner) : Except Error Scanner := do
  let s ← s.markKey
  let plain ← readPlain src s.inFlow (s.indent + 1) s.place
  return { s with place := plain.place, keyAllowed := plain.brokenAfter }.emit
    (.scalar plain.text true)

/-- Whether a plain scalar may start with `c` before `next`. -/
def startsPlain (inFlow : Bool) (c next : Char) : Bool :=
  !(isGap c || "-?:,[]\x7b\x7d#&*!|>'\"%@`".toList.contains c)
    || (c == '-' && !isSpace next)
    || (!inFlow && (c == '?' || c == ':') && !isGap next)

/-- Reads the token at the current place, where no gap stands. -/
def readToken (src : Source) (s : Scanner) : Except Error Scanner :=
  let i := s.place.index
  let c := src.peek i
  let next := src.peek (i + 1)
  let flow := s.inFlow
  if s.place.column == 0 && c == '%' then do
    let s ← s.endBlocks
    let (t, p) ← readDirective src s.place
    return { s with place := p }.emit t
  else if s.place.atMark src '-' then do
    let s ← s.endBlocks
    return (s.advance 3).emit .documentStart
  else if s.place.atMark src '.' then do
    let s ← s.endBlocks
    return (s.advance 3).emit .documentEnd
  else if c == '[' then s.openFlow .flowSequenceStart
  else if c == '{' then s.openFlow .flowMappingStart
  else if c == ']' then s.closeFlow .flowSequenceEnd
  else if c == '}' then s.closeFlow .flowMappingEnd
  else if c == ',' then s.flowEntry
  else if c == '-' && isGap next then s.blockEntry
  else if c == '?' && (flow || isGap next) then s.keyIndicator
  else if c == ':' && (flow || isGap next) then s.valueIndicator
  else if c == '*' then
    s.keyToken fun p => (readAnchor src p).map fun (name, q) => (.alias name, q)
  else if c == '&' then
    s.keyToken fun p => (readAnchor src p).map fun (name, q) => (.anchor name, q)
  else if c == '!' then s.keyToken (readTag src flow)
  else if c == '|' && !flow then s.blockScalar src true
  else if c == '>' && !flow then s.blockScalar src false
  else if c == '\'' || c == '"' then
    s.keyToken fun p => (readQuoted src (c == '\'') p).map fun (text, q) => (.scalar text false, q)
  else if startsPlain flow c next then s.plainScalar src
  else .error .strangeCharacter

/-- Reads every token that is left. -/
def readAll (src : Source) : Nat → Scanner → Except Error Scanner
  | 0, s => s.finish
  | fuel + 1, s => do
    let s ← (skipGap src (src.size + 1) s).dropStaleKeys
    let s := s.closeBlocks s.place.column
    if src.size ≤ s.place.index then s.finish
    else
      let s ← readToken src s
      readAll src fuel s

end Scanner

/-- The tokens of a text, the end of the stream last. -/
def Token.scan (text : String) : Except Error (List Token) :=
  let src : Source := text.toList.toArray
  if src.all isPrintable then
    (Scanner.readAll src (src.size + 1) Scanner.start).map fun s => s.tokens.toList
  else .error .controlCharacter

end BlockDoc.Yaml
