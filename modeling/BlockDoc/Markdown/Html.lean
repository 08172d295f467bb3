import BlockDoc.Markdown.Source

/-!
HTML inside Markdown: tags with their attributes, comments and the like within a paragraph,
addresses in angle brackets, and the beginnings of HTML blocks.
-/

namespace BlockDoc.Markdown.Html

/-- Parts of the text that do not belong to a tag: the marks of containers at line starts inside
it. -/
abbrev Cuts := List (Nat × Nat)

/-- What comes behind a line break inside a tag: the place where the tag goes on, given the start of
the line. Without it a tag may not go over a line break. -/
abbrev OnBreak := Option (Nat → Nat)

/-- The place behind a line break at `i` and behind what is cut out there. -/
def crossBreak (src : Source) (onBreak : OnBreak) (i : Nat) (cuts : Cuts) :
    Option (Nat × Cuts) := do
  let resume ← onBreak
  let j ← src.lineEnd? i
  let k := resume j
  return if j < k then (k, (j, k) :: cuts) else (j, cuts)

/-- The place behind spaces and line breaks. -/
def skipGap (src : Source) (onBreak : OnBreak) : Nat → Nat → Cuts → Option (Nat × Cuts)
  | 0, _, _ => none
  | fuel + 1, i, cuts =>
    match src.at? i with
    | none => some (i, cuts)
    | some c =>
      if isLineBreak c then
        (crossBreak src onBreak i cuts).bind fun (j, cuts) => skipGap src onBreak fuel j cuts
      else if isLineSpace c then skipGap src onBreak fuel (i + 1) cuts
      else some (i, cuts)

/-- The place behind the quotation mark that closes an attribute's value. -/
def skipQuoted (src : Source) (onBreak : OnBreak) (mark : Char) :
    Nat → Nat → Cuts → Option (Nat × Cuts)
  | 0, _, _ => none
  | fuel + 1, i, cuts =>
    match src.at? i with
    | none => none
    | some c =>
      if c == mark then some (i + 1, cuts)
      else if isLineBreak c then
        (crossBreak src onBreak i cuts).bind fun (j, cuts) =>
          skipQuoted src onBreak mark fuel j cuts
      else skipQuoted src onBreak mark fuel (i + 1) cuts

/-- Characters of a value without quotation marks. -/
def isBareValueChar (c : Char) : Bool :=
  !(c == '\'' || c == '"' || c == ' ' || c == '=' || c == '>' || c == '<' || c == '`' || c == '\n'
    || c == '\r')

/-- The place behind an attribute's value. -/
def skipValue (src : Source) (onBreak : OnBreak) (i : Nat) (cuts : Cuts) : Option (Nat × Cuts) :=
  match src.at? i with
  | none => none
  | some c =>
    if c == '"' || c == '\'' then skipQuoted src onBreak c (src.stop + 1) (i + 1) cuts
    else if isBareValueChar c then some (src.skipWhile isBareValueChar i, cuts)
    else none

/-- The place behind an attribute's name. -/
def skipName? (src : Source) (i : Nat) : Option Nat :=
  if src.holds (fun c => c.isAlpha || c == '_' || c == ':') i then
    some (src.skipWhile (fun c => c.isAlphanum || c == '_' || c == '.' || c == ':' || c == '-')
      (i + 1))
  else none

/-- The place behind an attribute; spaces behind one without a value are left for the next one. -/
def skipAttribute (src : Source) (onBreak : OnBreak) (i : Nat) (cuts : Cuts) :
    Option (Nat × Cuts) := do
  let fuel := src.stop + 1
  let name ← skipName? src i
  let (equals, gap) ← skipGap src onBreak fuel name cuts
  if src.has '=' equals then
    let (value, gap) ← skipGap src onBreak fuel (equals + 1) gap
    skipValue src onBreak value gap
  else return (name, cuts)

/-- The place behind the attributes of a tag. There is a gap in front of every attribute. -/
def skipAttributes (src : Source) (onBreak : OnBreak) : Nat → Nat → Cuts → Option (Nat × Cuts)
  | 0, _, _ => none
  | fuel + 1, i, cuts => do
    let (j, cuts) ← skipGap src onBreak (src.stop + 1) i cuts
    if src.has '/' j || src.has '>' j then return (j, cuts)
    else if i == j then none
    else
      let (k, cuts) ← skipAttribute src onBreak j cuts
      skipAttributes src onBreak fuel k cuts

/-- The place behind an opening or closing tag whose angle bracket stands at `i`. -/
def skipTag (src : Source) (onBreak : OnBreak) (i : Nat) : Option (Nat × Cuts) := do
  let closing := src.has '/' (i + 1)
  let name := if closing then i + 2 else i + 1
  unless src.holds Char.isAlpha name do none
  let j := src.skipWhile (fun c => c.isAlphanum || c == '-') name
  let (j, cuts) ← if closing then some (j, []) else skipAttributes src onBreak (src.stop + 1) j []
  let j := src.skipSpaces j
  let j := if !closing && src.has '/' j then j + 1 else j
  if src.has '>' j then return (j + 1, cuts) else none

/-- The text of a tag without the parts cut out of it. -/
def tagText (src : Source) (start stop : Nat) (cuts : Cuts) : String :=
  let (chars, start) := cuts.reverse.foldl
    (fun (acc : List Char × Nat) cut => (acc.1 ++ src.slice acc.2 cut.1, cut.2)) ([], start)
  String.ofList (chars ++ src.slice start stop)

/-! ## Comments and the like within a paragraph -/

/-- The first place from `i` on where a text stands. -/
def find? (src : Source) (word : List Char) (i : Nat) : Option Nat :=
  (List.range' i (src.stop - i)).find? fun j => src.startsWith j word

/-- The place behind a comment whose two dashes end before `i`. It may be empty in two short
forms. -/
def skipComment (src : Source) (i : Nat) : Option Nat :=
  if src.has '>' i then some (i + 1)
  else if src.startsWith i ['-', '>'] then some (i + 2)
  else (find? src ['-', '-', '>'] i).map (· + 3)

/-- The place behind literal data. Its end is sought at the first run of brackets only. -/
def skipLiteralData (src : Source) (i : Nat) : Option Nat :=
  let first := src.skipWhile (· != ']') i
  let behind := src.skipWhile (· == ']') first
  if first < behind && src.has '>' behind then some (behind + 1) else none

/-- The place behind what an exclamation mark at `i` introduces: a comment, literal data or a
declaration. -/
def skipDeclaration (src : Source) (i : Nat) : Option Nat :=
  if src.startsWith (i + 1) ['-', '-'] then skipComment src (i + 3)
  else if src.startsWith (i + 1) ['[', 'C', 'D', 'A', 'T', 'A', '['] then
    skipLiteralData src (i + 8)
  else if src.holds Char.isAlpha (i + 1) then
    let j := src.skipWhile (· != '>') (i + 2)
    if src.has '>' j then some (j + 1) else none
  else none

/-- Reads the HTML whose angle bracket stands at `i`: its text and the place behind it. -/
def readInline? (src : Source) (resume : Nat → Nat) (i : Nat) : Option (String × Nat) :=
  if src.has '!' (i + 1) then
    (skipDeclaration src (i + 1)).map fun j => (src.text i j, j)
  else if src.has '?' (i + 1) then
    (find? src ['?', '>'] (i + 2)).map fun j => (src.text i (j + 2), j + 2)
  else (skipTag src (some resume) i).map fun (j, cuts) => (tagText src i j cuts, j)

/-! ## Addresses in angle brackets -/

/-- The place of the bracket behind an address with a scheme of 2 to 32 characters. -/
def skipUri? (src : Source) (i : Nat) : Option Nat :=
  if src.holds Char.isAlpha i then
    let colon := src.skipWhile (fun c => c.isAlphanum || c == '.' || c == '-' || c == '+') (i + 1)
    if src.has ':' colon && 2 ≤ colon - i && colon - i ≤ 32 then
      let j := src.skipWhile (fun c => 0x20 < c.toNat && c != '<' && c != '>') (colon + 1)
      if src.has '>' j then some j else none
    else none
  else none

/-- Characters of a mail address in front of its at sign. -/
def isMailChar (c : Char) : Bool :=
  c.isAlphanum || ".!#$%&'*+/=?^_`\x7b|\x7d~-".toList.contains c

/-- The place behind the parts of a domain: letters, digits and inner hyphens, at most 63 of them,
with points between the parts. -/
def skipDomain? (src : Source) : Nat → Nat → Option Nat
  | 0, _ => none
  | fuel + 1, i =>
    let j := src.skipWhile (fun c => c.isAlphanum || c == '-') i
    if i == j || 63 < j - i || src.has '-' i || src.has '-' (j - 1) then none
    else if src.has '.' j then skipDomain? src fuel (j + 1)
    else some j

/-- The place of the bracket behind a mail address. -/
def skipMail? (src : Source) (i : Nat) : Option Nat := do
  let sign := src.skipWhile isMailChar i
  unless i < sign && src.has '@' sign do none
  let j ← skipDomain? src (src.stop + 1) (sign + 1)
  if src.has '>' j then some j else none

/-- Reads an address up to its closing bracket: the address and the place behind the bracket. -/
def readAddress? (src : Source) (i : Nat) : Option (String × Nat) :=
  ((skipUri? src i).or (skipMail? src i)).map fun j => (src.text i j, j + 1)

/-! ## Beginnings of blocks -/

/-- Elements whose block lasts up to their closing tag. -/
def rawElements : List String := ["pre", "style", "script", "textarea"]

/-- The text that ends a block which begins with an angle bracket before `i`. Such a block may hold
blank lines. -/
def endMark? (src : Source) (i : Nat) : Option (List Char) :=
  let raw := rawElements.find? fun name =>
    let j := i + name.length
    src.startsWithLower i name.toList
      && (src.stop ≤ j || src.holds (fun c => isSpaceOrBreak c || c == '>') j)
  match raw with
  | some name => some ('<' :: '/' :: name.toList ++ ['>'])
  | none =>
    if src.startsWith i ['!', '-', '-'] then some ['-', '-', '>']
    else if src.has '?' i then some ['?', '>']
    else if src.startsWith i ['!', '[', 'C', 'D', 'A', 'T', 'A', '['] then some [']', ']', '>']
    else if src.has '!' i && src.holds Char.isAlpha (i + 1) then some ['>']
    else none

/-- Elements that begin a block which lasts up to a blank line. -/
def blockElements : List String :=
  ["address", "article", "aside", "base", "basefont", "blockquote", "body", "caption", "center",
    "col", "colgroup", "dd", "details", "dialog", "dir", "div", "dl", "dt", "fieldset",
    "figcaption", "figure", "footer", "form", "frame", "frameset", "h1", "h2", "h3", "h4", "h5",
    "h6", "head", "header", "hr", "html", "iframe", "legend", "li", "link", "main", "menu",
    "menuitem", "nav", "noframes", "ol", "optgroup", "option", "p", "param", "search", "section",
    "summary", "table", "tbody", "td", "tfoot", "th", "thead", "title", "tr", "track", "ul"]

/-- Whether a tag of such an element begins with an angle bracket before `i`. -/
def startsBlockElement (src : Source) (i : Nat) : Bool :=
  let i := if src.has '/' i then i + 1 else i
  let j := src.skipWhile Char.isAlphanum i
  let name := String.ofList ((src.slice i j).map lower)
  blockElements.contains name
    && (src.stop ≤ j || src.holds (fun c => c == ' ' || c == '\t' || c == '\r' || c == '\n'
      || c == '>') j || src.startsWith j ['/', '>'])

/-- Whether a complete tag of any element stands alone on the line from `i` on. -/
def isLoneTag (src : Source) (i : Nat) : Bool :=
  match skipTag src none i with
  | some (j, _) => (src.blankLine? j).isSome
  | none => false

end BlockDoc.Markdown.Html
