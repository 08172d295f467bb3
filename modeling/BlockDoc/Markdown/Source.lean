/-!
The characters of a Markdown text, and the walks over them that every part of the grammar uses:
runs, line ends and blank lines. A place is the number of characters before it.
-/

namespace BlockDoc.Markdown

/-- The first `stop` characters of a text. -/
structure Source where
  chars : Array Char
  stop : Nat
  deriving Inhabited

/-- White space of one byte, line breaks included. -/
def isSpaceOrBreak (c : Char) : Bool := (0x09 ≤ c.toNat && c.toNat ≤ 0x0d) || c == ' '

/-- White space of one byte within a line. -/
def isLineSpace (c : Char) : Bool := c == '\t' || c == '\x0b' || c == '\x0c' || c == ' '

/-- A character that may end a line. -/
def isLineBreak (c : Char) : Bool := c == '\n' || c == '\r'

/-- The punctuation marks of ASCII. -/
def isAsciiPunctuation (c : Char) : Bool :=
  let n := c.toNat
  (0x21 ≤ n && n ≤ 0x2f) || (0x3a ≤ n && n ≤ 0x40) || (0x5b ≤ n && n ≤ 0x60)
    || (0x7b ≤ n && n ≤ 0x7e)

/-- A letter of ASCII in lower case. -/
def lower (c : Char) : Char := c.toLower

namespace Source

/-- The same text cut off at a place. -/
def upTo (src : Source) (stop : Nat) : Source := ⟨src.chars, min stop src.stop⟩

/-- The character at a place. -/
def at? (src : Source) (i : Nat) : Option Char := if i < src.stop then src.chars[i]? else none

/-- Whether a given character stands at a place. -/
def has (src : Source) (c : Char) (i : Nat) : Bool := src.at? i == some c

/-- Whether the character at a place passes a test; there is none past the end. -/
def holds (src : Source) (test : Char → Bool) (i : Nat) : Bool := (src.at? i).any test

/-- The characters between two places. -/
def slice (src : Source) (start stop : Nat) : List Char :=
  (src.chars.extract start (min stop src.stop)).toList

/-- The text between two places. -/
def text (src : Source) (start stop : Nat) : String := String.ofList (src.slice start stop)

/-- The first place from `i` on whose character fails a test. -/
def skipWhile (src : Source) (test : Char → Bool) (i : Nat) : Nat :=
  if h : i < src.stop then
    if src.holds test i then skipWhile src test (i + 1) else i
  else i
  termination_by src.stop - i

/-- The first place from `i` on, but before `j`, behind which all characters up to `j` pass a
test. -/
def skipBackWhile (src : Source) (test : Char → Bool) (i : Nat) : Nat → Nat
  | 0 => 0
  | j + 1 => if i ≤ j && src.holds test j then skipBackWhile src test i j else j + 1

/-- The number of times a character repeats from a place on. -/
def runLength (src : Source) (c : Char) (i : Nat) : Nat := src.skipWhile (· == c) i - i

/-- The place behind spaces of a line. -/
def skipSpaces (src : Source) (i : Nat) : Nat := src.skipWhile isLineSpace i

/-- The place behind a line end: a line break, or the end of the text. -/
def lineEnd? (src : Source) (i : Nat) : Option Nat :=
  match src.at? i with
  | none => some i
  | some '\n' => some (i + 1)
  | some '\r' => some (if src.has '\n' (i + 1) then i + 2 else i + 1)
  | some _ => none

/-- Whether a line ends at a place. -/
def isLineEnd (src : Source) (i : Nat) : Bool := (src.lineEnd? i).isSome

/-- The place behind a line of which only spaces are left. -/
def blankLine? (src : Source) (i : Nat) : Option Nat := src.lineEnd? (src.skipSpaces i)

/-- The place behind the next line feed, or the end of the text. -/
def nextLine (src : Source) (i : Nat) : Nat :=
  let j := src.skipWhile (· != '\n') i
  if j < src.stop then j + 1 else j

/-- Whether the characters of a list stand at a place. -/
def startsWith (src : Source) (i : Nat) : List Char → Bool
  | [] => true
  | c :: cs => src.has c i && startsWith src (i + 1) cs

/-- Whether the characters of a list, in lower case, stand at a place in either case. -/
def startsWithLower (src : Source) (i : Nat) : List Char → Bool
  | [] => true
  | c :: cs => src.holds (fun d => lower d == c) i && startsWithLower src (i + 1) cs

/-- Whether the characters of a list occur between two places. -/
def occurs (src : Source) (word : List Char) (start stop : Nat) : Bool :=
  (List.range' start (stop - start)).any fun i =>
    i + word.length ≤ stop && src.startsWith i word

end Source

end BlockDoc.Markdown
