/-!
The tokens of YAML text, the places in a text, and the causes for which a text is refused.
-/

namespace BlockDoc.Yaml

/-- Why a text is refused. -/
inductive Error where
  | controlCharacter
  | strangeCharacter
  | keyWithoutColon
  | entryNotAllowed
  | keyNotAllowed
  | valueNotAllowed
  | badDirective
  | unknownDirective
  | badAnchor
  | badTag
  | badBlockHeader
  | tabInIndentation
  | documentMarkInScalar
  | unclosedScalar
  | unknownEscape
  | strayColon
  | missingDocumentStart
  | repeatedDirective
  | wrongVersion
  | unknownTagHandle
  | missingNode
  | missingEntry
  | missingKey
  | missingSequenceEnd
  | missingMappingEnd
  | unknownAnchor
  | severalDocuments
  | tooDeep
  | tooManyRepetitions
  | taggedValue
  | wrongScalar
  | keyNotScalar
  | numberOutOfRange
  deriving DecidableEq, Repr, Inhabited

/-- The wording of an error. -/
def Error.message : Error → String
  | controlCharacter => "control characters are not allowed"
  | strangeCharacter => "found character that cannot start any token"
  | keyWithoutColon => "could not find expected ':'"
  | entryNotAllowed => "block sequence entries are not allowed in this context"
  | keyNotAllowed => "mapping keys are not allowed in this context"
  | valueNotAllowed => "mapping values are not allowed in this context"
  | badDirective => "malformed directive"
  | unknownDirective => "found unknown directive name"
  | badAnchor => "malformed anchor or alias"
  | badTag => "malformed tag"
  | badBlockHeader => "malformed header of a block scalar"
  | tabInIndentation => "found a tab character that violates indentation"
  | documentMarkInScalar => "found unexpected document indicator"
  | unclosedScalar => "found unexpected end of stream"
  | unknownEscape => "found unknown escape character"
  | strayColon => "found unexpected ':'"
  | missingDocumentStart => "did not find expected <document start>"
  | repeatedDirective => "found duplicate directive"
  | wrongVersion => "found incompatible YAML document"
  | unknownTagHandle => "found undefined tag handle"
  | missingNode => "did not find expected node content"
  | missingEntry => "did not find expected '-' indicator"
  | missingKey => "did not find expected key"
  | missingSequenceEnd => "did not find expected ',' or ']'"
  | missingMappingEnd => "did not find expected end of a flow mapping"
  | unknownAnchor => "unknown anchor"
  | severalDocuments => "expected a single document"
  | tooDeep => "recursion limit exceeded"
  | tooManyRepetitions => "repetition limit exceeded"
  | taggedValue => "a value may not carry a local tag"
  | wrongScalar => "a scalar does not fit its tag"
  | keyNotScalar => "a key must be a scalar"
  | numberOutOfRange => "number out of range"

/-- A token. A scalar is plain when it stands without quotes and is no block scalar. -/
inductive Token where
  | streamEnd
  | version (major minor : Nat)
  | tagHandle (handle replacement : String)
  | documentStart
  | documentEnd
  | blockSequenceStart
  | blockMappingStart
  | blockEnd
  | flowSequenceStart
  | flowSequenceEnd
  | flowMappingStart
  | flowMappingEnd
  | blockEntry
  | flowEntry
  | key
  | value
  | alias (name : String)
  | anchor (name : String)
  | tag (handle suffix : String)
  | scalar (text : String) (plain : Bool)
  deriving DecidableEq, Repr, Inhabited

/-- The characters of a text. -/
abbrev Source := Array Char

namespace Source

/-- The character at a place; past the end it is NUL, which no accepted text contains. -/
def peek (src : Source) (i : Nat) : Char := src.getD i '\x00'

end Source

/-- Characters a text may contain. -/
def isPrintable (c : Char) : Bool :=
  let n := c.toNat
  n == 0x09 || n == 0x0a || n == 0x0d || (0x20 ≤ n && n ≤ 0x7e) || n == 0x85
    || (0xa0 ≤ n && n ≤ 0xd7ff) || (0xe000 ≤ n && n ≤ 0xfffd) || 0x10000 ≤ n

/-- Line breaks. -/
def isBreak (c : Char) : Bool :=
  c == '\r' || c == '\n' || c == '\u0085' || c == '\u2028' || c == '\u2029'

/-- A line break or the end of the text. -/
def isBreakOrEnd (c : Char) : Bool := isBreak c || c == '\x00'

/-- A space or a tab. -/
def isSpace (c : Char) : Bool := c == ' ' || c == '\t'

/-- A space, a tab, a line break or the end of the text. -/
def isGap (c : Char) : Bool := isSpace c || isBreakOrEnd c

/-- The characters of names. -/
def isNameChar (c : Char) : Bool := c.isAlphanum || c == '_' || c == '-'

/-- A place in a text: the number of characters before it, its line and its column. -/
structure Place where
  index : Nat
  line : Nat
  column : Nat
  deriving DecidableEq, Repr, Inhabited

namespace Place

/-- The place after one character of the same line. -/
def skip (p : Place) : Place := ⟨p.index + 1, p.line, p.column + 1⟩

/-- The place after `n` characters of the same line. -/
def skipBy (p : Place) (n : Nat) : Place := ⟨p.index + n, p.line, p.column + n⟩

/-- The start of the next line, when a line break stands here. -/
def skipLine (src : Source) (p : Place) : Place :=
  if src.peek p.index == '\r' && src.peek (p.index + 1) == '\n' then ⟨p.index + 2, p.line + 1, 0⟩
  else ⟨p.index + 1, p.line + 1, 0⟩

/-- The place after the characters that satisfy `p`. -/
def skipWhile (src : Source) (test : Char → Bool) (p : Place) : Place :=
  if h : p.index < src.size then
    if test src[p.index] then skipWhile src test p.skip else p
  else p
  termination_by src.size - p.index
  decreasing_by simp only [Place.skip]; omega

/-- The text between two places. -/
def textTo (src : Source) (p q : Place) : String :=
  String.ofList (src.extract p.index q.index).toList

/-- The characters a line break contributes to a text: the separators keep their own form. -/
def lineBreak (src : Source) (p : Place) : List Char :=
  let c := src.peek p.index
  if c == '\u2028' || c == '\u2029' then [c] else if isBreak c then ['\n'] else []

/-- Whether a document mark, three times `c` and then a gap, stands at the start of a line. -/
def atMark (src : Source) (c : Char) (p : Place) : Bool :=
  p.column == 0 && src.peek p.index == c && src.peek (p.index + 1) == c
    && src.peek (p.index + 2) == c && isGap (src.peek (p.index + 3))

/-- Whether either document mark stands here. -/
def atDocumentMark (src : Source) (p : Place) : Bool := p.atMark src '-' || p.atMark src '.'

end Place

end BlockDoc.Yaml
