import BlockDoc.Text.Blank
import BlockDoc.Text.CaseFold
import BlockDoc.Markdown.NamedCharacter

/-!
The parts of links: destinations, titles and labels, and the definitions that labels refer to.
-/

namespace BlockDoc.Markdown

/-- Removes escapes and decodes references to characters. In a table two backslashes before a bar
stand for none. -/
def unescapeFrom (src : Source) (inTable : Bool) : Nat → Nat → List Char
  | 0, _ => []
  | fuel + 1, i =>
    match src.at? i with
    | none => []
    | some c =>
      if c == '\\' && inTable && src.has '\\' (i + 1) && src.has '|' (i + 2) then
        '|' :: unescapeFrom src inTable fuel (i + 3)
      else if c == '\\' && src.holds isAsciiPunctuation (i + 1) then
        (src.at? (i + 1)).toList ++ unescapeFrom src inTable fuel (i + 2)
      else if c == '&' then
        match readReference? src i with
        | some (s, j) => s.toList ++ unescapeFrom src inTable fuel j
        | none => c :: unescapeFrom src inTable fuel (i + 1)
      else if c == '\r' then unescapeFrom src inTable fuel (i + 1)
      else c :: unescapeFrom src inTable fuel (i + 1)

/-- The text between two places without escapes. -/
def unescape (src : Source) (inTable : Bool) (start stop : Nat) : String :=
  String.ofList (unescapeFrom (src.upTo stop) inTable (stop - start) start)

/-! ## Destinations -/

/-- The place of the closing bracket of a destination in angle brackets. -/
def pointedEnd? (src : Source) : Nat → Nat → Option Nat
  | 0, _ => none
  | fuel + 1, i =>
    match src.at? i with
    | none => none
    | some c =>
      if isLineBreak c || c == '<' then none
      else if c == '>' then some i
      else if c == '\\' && src.holds isAsciiPunctuation (i + 1) then pointedEnd? src fuel (i + 2)
      else pointedEnd? src fuel (i + 1)

/-- Parentheses in a destination nest at most this deep. -/
def maxParentheses : Nat := 6

/-- The end of a destination without angle brackets; its parentheses are balanced. -/
def bareEnd? (src : Source) : Nat → Nat → Nat → Option Nat
  | 0, _, _ => none
  | fuel + 1, depth, i =>
    match src.at? i with
    | none => if depth == 0 then some i else none
    | some c =>
      if c.toNat ≤ 0x20 then if depth == 0 then some i else none
      else if c == '(' then
        if maxParentheses ≤ depth then none else bareEnd? src fuel (depth + 1) (i + 1)
      else if c == ')' then
        if depth == 0 then some i else bareEnd? src fuel (depth - 1) (i + 1)
      else if c == '\\' && src.holds isAsciiPunctuation (i + 1) then
        bareEnd? src fuel depth (i + 2)
      else bareEnd? src fuel depth (i + 1)

/-- Reads a destination: its text and the place behind it. -/
def readDestination? (src : Source) (inTable : Bool) (i : Nat) : Option (String × Nat) :=
  if src.has '<' i then
    (pointedEnd? src (src.stop + 1) (i + 1)).map fun j => (unescape src inTable (i + 1) j, j + 1)
  else (bareEnd? src (src.stop + 1) 0 i).map fun j => (unescape src inTable i j, j)

/-! ## Titles -/

/-- The mark that closes a title. -/
def closingMark? (c : Char) : Option Char :=
  if c == '"' || c == '\'' then some c else if c == '(' then some ')' else none

/-- Reads the title of a link up to its closing mark; `resume` leads over the marks of containers at
the start of a line. -/
def readTitleFrom (src : Source) (inTable : Bool) (resume : Nat → Nat) (opening closing : Char) :
    Nat → Nat → List Char → Option (String × Nat)
  | 0, _, _ => none
  | fuel + 1, i, text =>
    match src.at? i with
    | none => none
    | some c =>
      if c == closing then some (String.ofList text.reverse, i + 1)
      else if c == opening then none
      else if isLineBreak c then
        let j := resume ((src.lineEnd? i).getD (i + 1))
        readTitleFrom src inTable resume opening closing fuel j ('\n' :: text)
      else if c == '&' then
        match readReference? src i with
        | some (s, j) =>
          readTitleFrom src inTable resume opening closing fuel j (s.toList.reverse ++ text)
        | none => readTitleFrom src inTable resume opening closing fuel (i + 1) (c :: text)
      else if c == '\\' && inTable && src.has '\\' (i + 1) && src.has '|' (i + 2) then
        readTitleFrom src inTable resume opening closing fuel (i + 3) ('|' :: text)
      else if c == '\\' && src.holds isAsciiPunctuation (i + 1) then
        readTitleFrom src inTable resume opening closing fuel (i + 2)
          ((src.at? (i + 1)).toList ++ text)
      else readTitleFrom src inTable resume opening closing fuel (i + 1) (c :: text)

/-- Reads a title: its text and the place behind its closing mark. -/
def readTitle? (src : Source) (inTable : Bool) (resume : Nat → Nat) (i : Nat) :
    Option (String × Nat) := do
  let opening ← src.at? i
  let closing ← closingMark? opening
  readTitleFrom src inTable resume opening closing (src.stop + 1) (i + 1) []

/-! ## Labels -/

/-- Reads the white space inside a label: the place behind it and its width, counting everything but
a space twice. Two line breaks end the label without success. -/
def readLabelGap (src : Source) (resume : Nat → Option Nat) :
    Nat → Nat → Nat → Nat → Option (Nat × Nat)
  | 0, _, _, _ => none
  | fuel + 1, breaks, width, i =>
    match src.at? i with
    | none => some (i, width)
    | some c =>
      if isLineBreak c then
        if breaks == 1 then none
        else do
          let j ← resume ((src.lineEnd? i).getD (i + 1))
          readLabelGap src resume fuel (breaks + 1) (width + 2) j
      else if isSpaceOrBreak c then
        readLabelGap src resume fuel breaks (width + if c == ' ' then 1 else 2) (i + 1)
      else some (i, width)

/-- Reads a label behind its opening bracket. Its white space is joined to single spaces, and it is
neither blank nor longer than a thousand characters. -/
def readLabelFrom (src : Source) (inTable : Bool) (resume : Nat → Option Nat) :
    Nat → Nat → Nat → List Char → Bool → Option (String × Nat)
  | 0, _, _, _, _ => none
  | fuel + 1, length, i, text, blank =>
    if 1000 ≤ length then none
    else
      match src.at? i with
      | none => none
      | some c =>
        if c == '[' then none
        else if c == ']' then
          if blank then none else some (String.ofList text.reverse, i + 1)
        else if c == '\\' then
          if inTable && src.has '|' (i + 1) then
            readLabelFrom src inTable resume fuel (length + 1) (i + 2) ('|' :: text) false
          else
            readLabelFrom src inTable resume fuel (length + 2) (i + 2)
              ((src.at? (i + 1)).toList ++ c :: text) false
        else if isSpaceOrBreak c then
          match readLabelGap src resume (src.stop + 1) 0 0 i with
          | none => none
          | some (j, width) =>
            let length := if width == 1 then length + 1 else length + (j - i)
            readLabelFrom src inTable resume fuel length j (' ' :: text) blank
        else readLabelFrom src inTable resume fuel (length + 1) (i + 1) (c :: text) false

/-- Reads a label whose opening bracket stands at `i`: its text and the place behind its closing
bracket. -/
def readLabel? (src : Source) (inTable : Bool) (resume : Nat → Option Nat) (i : Nat) :
    Option (String × Nat) :=
  if src.has '[' i then readLabelFrom src inTable resume (src.stop + 1) 0 (i + 1) [] true else none

/-! ## Definitions -/

/-- Where a link leads. -/
structure Target where
  url : String
  title : String
  deriving DecidableEq, Repr, Inhabited

/-- The targets that labels are defined as; the first definition of a label counts. -/
abbrev Definitions := List (String × Target)

namespace Definitions

/-- The form in which labels are compared. -/
def key (label : String) : String := Text.foldCase (Text.trim label)

/-- Adds a definition. -/
def add (label : String) (target : Target) (defs : Definitions) : Definitions :=
  if (defs.lookup (key label)).isSome then defs else (key label, target) :: defs

/-- The target of a label. -/
def find? (label : String) (defs : Definitions) : Option Target := defs.lookup (key label)

end Definitions

end BlockDoc.Markdown
