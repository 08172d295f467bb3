import BlockDoc.Markdown.Event
import BlockDoc.Node.Build
import BlockDoc.Text.Blank

/-!
The metadata in front of a Markdown text, between a line `---` and a line `---` or `...`. Its
offsets count the bytes of the whole text, a byte order mark included.
-/

namespace BlockDoc

/-- The front matter of a text. -/
structure FrontMatter where
  /-- The lines between the delimiters. -/
  value : String
  /-- The byte offset behind the closing delimiter line, without its line break. -/
  stop : Nat
  /-- The byte offset at which the body begins. -/
  bodyStart : Nat
  /-- The text behind the front matter. -/
  body : List Char
  deriving DecidableEq, Repr

namespace FrontMatter

/-- The byte order mark. -/
def byteOrderMark : Char := '\ufeff'

/-- A text without a byte order mark, and the bytes of the mark. -/
def dropMark : List Char → List Char × Nat
  | [] => ([], 0)
  | c :: cs => if c = byteOrderMark then (cs, c.utf8Size) else (c :: cs, 0)

/-- A line without blanks at its end. -/
def trimmedLine (line : List Char) : List Char := Text.dropEndWhile Text.isBlank line

/-- The line that opens front matter. -/
def opens (line : List Char) : Bool := trimmedLine line == ['-', '-', '-']

/-- A line that closes front matter. -/
def closes (line : List Char) : Bool := opens line || trimmedLine line == ['.', '.', '.']

/-- Lines with line breaks between them. -/
def joinLines (lines : List (List Char)) : List Char := ['\n'].intercalate lines

/-- The lines up to the first one that satisfies `p`, that line, and the lines behind it. -/
def splitLines (p : List Char → Bool) :
    List (List Char) → Option (List (List Char) × List Char × List (List Char))
  | [] => none
  | line :: rest =>
    if p line then some ([], line, rest)
    else (splitLines p rest).map fun (before, found, behind) => (line :: before, found, behind)

/-- The number of bytes of lines, each with its line break. -/
def linesLength : List (List Char) → Nat
  | [] => 0
  | line :: rest => Text.byteLength line + 1 + linesLength rest

/-- The front matter of a text. Its first line is neither blank nor a closing one. -/
def split? (text : List Char) : Option FrontMatter :=
  let (cs, mark) := dropMark text
  match Text.splitList (· == '\n') cs with
  | opening :: first :: rest =>
    if opens opening && !(trimmedLine first).isEmpty && !closes first then
      (splitLines closes rest).map fun (inner, closing, behind) =>
        let value := joinLines (first :: inner)
        let stop := mark + linesLength (opening :: first :: inner) + Text.byteLength closing
        { value := String.ofList (Text.dropEndWhile (fun c => c == '\n' || c == '\r') value)
          stop := stop
          bodyStart := if behind.isEmpty then stop else stop + 1
          body := joinLines behind }
    else none
  | _ => none

end FrontMatter

/-- The tree of a text: its front matter, if there is any, and the blocks of its body. -/
def Node.parse (text : String) : List Node :=
  let cs := text.toList
  match FrontMatter.split? cs with
  | some front =>
    let located := (Markdown.Event.ofText front.body).map fun (e, span) =>
      (e, span.shift front.bodyStart)
    .mk (Range.ofOffsets cs 0 front.stop) (.yaml front.value) :: ofEvents cs located
  | none => ofEvents cs (Markdown.Event.ofText cs)

end BlockDoc
