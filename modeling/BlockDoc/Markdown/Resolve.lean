import BlockDoc.Inline
import BlockDoc.Markdown.Container
import BlockDoc.Markdown.Html
import BlockDoc.Markdown.Link
import BlockDoc.Markdown.Token

/-!
From the tokens of a block to its elements. Code, HTML and links bind first, from left to right;
emphasis is found afterwards, on every level of links by itself.
-/

namespace BlockDoc.Markdown

/-- The tokens of a block, with what is needed to settle them. -/
structure Phrase where
  tokens : List Token
  /-- The place where the block ends. -/
  stop : Nat
  /-- The containers whose marks stand at line starts, outermost first. -/
  containers : List Container
  inTable : Bool
  deriving Inhabited

/-- What the tokens of a block are settled against. -/
structure Surroundings where
  src : Source
  containers : List Container
  inTable : Bool
  definitions : Definitions

namespace Surroundings

/-- The place behind the marks of containers at the start of a line. -/
def resume (s : Surroundings) (i : Nat) : Nat := Container.skipMarks s.src s.containers i

end Surroundings

/-- What is known after links are found: elements, runs of delimiters that may be emphasis, and
breaks that are kept unless they come last. -/
inductive Piece where
  | done (x : Inline)
  | run (mark : Char) (count : Nat) (opens closes : Bool)
  | lineBreak (backslash : Bool)
  | link (isImage : Bool) (target : Target) (children : List Piece)
  deriving Inhabited

/-- An opening bracket whose closing one was not met yet. -/
structure Bracket where
  isImage : Bool
  /-- A link may not hold another link: the brackets around one are out of use. -/
  disabled : Bool
  token : Token
  /-- The pieces in front of the bracket, last one first. -/
  before : List Piece
  deriving Inhabited

/-- The pieces found so far. -/
structure Linking where
  /-- Open brackets, innermost first. -/
  brackets : List Bracket
  /-- Pieces behind the innermost bracket, last one first. -/
  pieces : List Piece
  /-- Places of closing brackets that end a label which was looked up in vain. -/
  barred : List Nat
  deriving Inhabited

/-- A piece of text. -/
def Piece.text (s : String) : Piece := .done (.text s)

namespace Linking

/-- Adds a piece. -/
def add (p : Piece) (l : Linking) : Linking := { l with pieces := p :: l.pieces }

/-- The text of an opening bracket. -/
def bracketText (b : Bracket) : Piece := .text (if b.isImage then "![" else "[")

/-- Forgets the innermost bracket: it is text. -/
def dropBracket (b : Bracket) (rest : List Bracket) (l : Linking) : Linking :=
  { l with brackets := rest, pieces := l.pieces ++ bracketText b :: b.before }

/-- All pieces in order; brackets that are still open are text. -/
def finish (l : Linking) : List Piece :=
  (l.brackets.foldl (fun acc b => acc ++ bracketText b :: b.before) l.pieces).reverse

end Linking

/-- The tokens that are left behind a place. -/
def tokensFrom (stop : Nat) (tokens : List Token) : List Token :=
  match tokens.dropWhile (·.stop ≤ stop) with
  | [] => []
  | t :: rest => { t with start := max t.start stop } :: rest

/-- The run of `n` backticks that closes code, and the tokens behind it. -/
def closingBackticks? (n : Nat) : List Token → Option (Token × List Token)
  | [] => none
  | t :: rest =>
    match t.kind with
    | .backticks m _ => if m == n then some (t, rest) else closingBackticks? n rest
    | _ => closingBackticks? n rest

namespace Surroundings

/-- The characters of code: a line break is a space, and in a table an escaped bar is a bar. -/
def codeChars (s : Surroundings) (stop : Nat) : Nat → Nat → List Char
  | 0, _ => []
  | fuel + 1, i =>
    if stop ≤ i then []
    else match s.src.at? i with
      | none => []
      | some c =>
        if isLineBreak c then
          ' ' :: s.codeChars stop fuel (s.resume ((s.src.lineEnd? i).getD (i + 1)))
        else if c == '\\' && s.inTable && s.src.has '|' (i + 1) then
          '|' :: s.codeChars stop fuel (i + 2)
        else c :: s.codeChars stop fuel (i + 1)

/-- The text of code between two places. A space at either end is dropped, unless there is nothing
but spaces. -/
def codeText (s : Surroundings) (start stop : Nat) : String :=
  let cs := s.codeChars stop (stop - start) start
  let padded := cs.head? == some ' ' && cs.getLast? == some ' ' && !cs.all (· == ' ')
  String.ofList (if padded then (cs.drop 1).dropLast else cs)

/-- The place behind spaces with at most one line break among them. -/
def skipSeparator (s : Surroundings) (i : Nat) : Nat :=
  let j := s.src.skipSpaces i
  let k := match s.src.lineEnd? j with
    | some k => if j < k then s.resume k else k
    | none => j
  s.src.skipSpaces k

/-- Reads the destination and the title behind the closing bracket of a link. -/
def readInlineLink? (s : Surroundings) (i : Nat) : Option (Target × Nat) := do
  unless s.src.has '(' i do none
  let i := s.skipSeparator (i + 1)
  let (url, i) ← readDestination? s.src s.inTable i
  let i := s.skipSeparator i
  let (title, i) := match readTitle? s.src s.inTable s.resume i with
    | some (title, j) => (title, s.skipSeparator j)
    | none => ("", i)
  if s.src.has ')' i then return (⟨url, title⟩, i + 1) else none

/-- What follows the closing bracket of a link by reference. -/
inductive Follow where
  /-- A label, and the place behind it. -/
  | label (label : String) (stop : Nat)
  /-- An empty pair of brackets. -/
  | emptyPair
  | nothing

/-- Looks for a label among the next tokens. -/
def follow (s : Surroundings) (rest : List Token) : Follow :=
  match rest with
  | [] => .nothing
  | t :: _ =>
    if t.kind == .escaped then .nothing
    else if s.src.startsWith t.start ['[', ']'] then .emptyPair
    else match readLabel? s.src s.inTable (fun i => some (s.resume i)) t.start with
      | some (label, stop) => .label label stop
      | none => .nothing

/-- The target of the text between a pair of brackets, taken as a label. -/
def ownTarget? (s : Surroundings) (b : Bracket) (close : Token) : Option Target := do
  let (label, stop) ← readLabel? (s.src.upTo close.stop) s.inTable (fun i => some (s.resume i))
    (b.token.stop - 1)
  if stop == close.stop then s.definitions.find? label else none

/-- The target of a pair of brackets, the tokens behind the link, and the place of a closing bracket
that ends a label. -/
def target (s : Surroundings) (b : Bracket) (close : Token) (rest : List Token) (barred : Bool) :
    Option (Target × List Token) × Option Nat :=
  match s.readInlineLink? close.stop with
  | some (target, stop) => (some (target, tokensFrom stop rest), none)
  | none =>
    match s.follow rest with
    | .label label stop =>
      match rest.dropWhile (·.stop ≤ stop - 1) with
      | [] => (none, none)
      | last :: after =>
        ((s.definitions.find? label).map fun target => (target, after), some last.start)
    | .emptyPair =>
      (if barred then none
        else (s.ownTarget? b close).map fun target => (target, rest.drop 2), none)
    | .nothing =>
      (if barred then none else (s.ownTarget? b close).map fun target => (target, rest), none)

/-- Finds code, HTML and links. -/
def findLinks (s : Surroundings) : Nat → List Token → Linking → List Piece
  | 0, _, l => l.finish
  | _ + 1, [], l => l.finish
  | fuel + 1, t :: rest, l =>
    let text := Piece.text (s.src.text t.start t.stop)
    match t.kind with
    | .text | .escaped => s.findLinks fuel rest (l.add text)
    | .decoded value => s.findLinks fuel rest (l.add (.text value))
    | .softBreak => s.findLinks fuel rest (l.add (.done .softBreak))
    | .hardBreak backslash => s.findLinks fuel rest (l.add (.lineBreak backslash))
    | .delimiters mark count opens closes =>
      s.findLinks fuel rest (l.add (.run mark count opens closes))
    | .backticks n escaped =>
      let n := if escaped then n - 1 else n
      match (if n == 0 then none else closingBackticks? n rest) with
      | some (close, rest) =>
        let l := if escaped then l.add (.text "`") else l
        s.findLinks fuel rest (l.add (.done (.code (s.codeText t.stop close.start))))
      | none => s.findLinks fuel rest (l.add text)
    | .angle =>
      if rest.isEmpty then s.findLinks fuel rest (l.add text)
      else match Html.readAddress? s.src t.stop with
        | some (url, stop) =>
          s.findLinks fuel (tokensFrom stop rest) (l.add (.link false ⟨url, ""⟩ [.text url]))
        | none =>
          match Html.readInline? s.src s.resume t.start with
          | some (html, stop) =>
            s.findLinks fuel (tokensFrom stop rest) (l.add (.done (.html html)))
          | none => s.findLinks fuel rest (l.add text)
    | .openBracket | .openImage =>
      let b : Bracket := ⟨t.kind == .openImage, false, t, l.pieces⟩
      s.findLinks fuel rest { l with brackets := b :: l.brackets, pieces := [] }
    | .closeBracket =>
      match l.brackets with
      | [] => s.findLinks fuel rest (l.add text)
      | b :: outer =>
        if b.disabled then s.findLinks fuel rest ((l.dropBracket b outer).add text)
        else match s.target b t rest (l.barred.contains t.start) with
          | (some (target, rest), mark) =>
            let outer := if b.isImage then outer
              else outer.map fun o => { o with disabled := o.disabled || !o.isImage }
            s.findLinks fuel rest
              ⟨outer, .link b.isImage target l.pieces.reverse :: b.before, mark.toList ++ l.barred⟩
          | (none, mark) =>
            let l := (l.dropBracket b outer).add text
            s.findLinks fuel rest { l with barred := mark.toList ++ l.barred }

end Surroundings

/-! ## Emphasis -/

/-- A run of delimiters that may open emphasis. -/
structure Opener where
  mark : Char
  /-- The delimiters of the run that are not used. -/
  count : Nat
  /-- The delimiters of the run at first. -/
  length : Nat
  /-- Whether the run may close emphasis as well. -/
  both : Bool
  /-- The elements in front of the run, last one first. -/
  before : List Inline
  deriving Inhabited

namespace Opener

/-- Delimiters that were not used are text, each by itself. -/
def unused (mark : Char) (count : Nat) : List Inline :=
  List.replicate count (.text (String.singleton mark))

/-- The elements in front of a run, the run, and the elements behind it, last one first. -/
def asText (o : Opener) (behind : List Inline) : List Inline :=
  behind ++ (unused o.mark o.count ++ o.before)

/-- Whether a run of `length` delimiters closes this one. A run that may do both closes one only
when their lengths do not add up to a multiple of three, or are such themselves. -/
def matches? (mark : Char) (length : Nat) (both : Bool) (o : Opener) : Bool :=
  o.mark == mark && (mark != '~' || o.length == length)
    && ((!both && !o.both) || (length + o.length) % 3 != 0 || length % 3 == 0)

end Opener

/-- The emphasis found so far. -/
structure Emphasizing where
  /-- Runs that may open emphasis, innermost first. -/
  openers : List Opener
  /-- Elements behind the innermost run, last one first. -/
  elements : List Inline
  /-- The number of outermost runs that no run of tildes closes any more. -/
  tildeFloor : Nat
  deriving Inhabited

namespace Emphasizing

/-- Wraps elements in `count` delimiters: strong emphasis inside, by pairs. -/
def wrap (mark : Char) : Nat → List Inline → List Inline
  | 0, xs => xs
  | 1, xs => [if mark == '~' then .delete xs else .emphasis xs]
  | n + 2, xs => wrap mark n [if mark == '~' then .delete xs else .strong xs]

/-- The run that a closing run belongs to, the elements behind it, and the runs around it. -/
def findOpener? (mark : Char) (length : Nat) (both : Bool) :
    List Opener → List Inline → Option (Opener × List Inline × List Opener)
  | [], _ => none
  | o :: outer, behind =>
    if o.matches? mark length both then some (o, behind, outer)
    else findOpener? mark length both outer (o.asText behind)

/-- Uses up the delimiters of a closing run as far as there are runs for them; the number of those
left over comes with the state. -/
def close (mark : Char) (length : Nat) (both : Bool) :
    Nat → Nat → Emphasizing → Nat × Emphasizing
  | 0, count, s => (count, s)
  | fuel + 1, count, s =>
    let floor := if mark == '~' then s.tildeFloor else 0
    let candidates := s.openers.take (s.openers.length - floor)
    match findOpener? mark length both candidates s.elements with
    | none => (count, if mark == '~' then { s with tildeFloor := s.openers.length } else s)
    | some (o, children, outer) =>
      let used := min count o.count
      let outer := outer ++ s.openers.drop (s.openers.length - floor)
      let wrapped := wrap mark used children.reverse
      let floor := min s.tildeFloor outer.length
      let s : Emphasizing :=
        if used < o.count then ⟨{ o with count := o.count - used } :: outer, wrapped, floor⟩
        else ⟨outer, wrapped ++ o.before, floor⟩
      if used < count then close mark length both fuel (count - used) s else (0, s)

/-- Takes a run of delimiters. -/
def run (mark : Char) (count : Nat) (opens closes : Bool) (s : Emphasizing) : Emphasizing :=
  let (left, s) := if closes then close mark count (opens && closes) count count s else (count, s)
  if left == 0 then s
  else if opens then
    { s with
      openers := ⟨mark, left, count, opens && closes, s.elements⟩ :: s.openers, elements := [] }
  else { s with elements := Opener.unused mark left ++ s.elements }

/-- Adds an element. -/
def add (x : Inline) (s : Emphasizing) : Emphasizing := { s with elements := x :: s.elements }

/-- All elements in order; runs that are still open are text. -/
def finish (s : Emphasizing) : List Inline :=
  (s.openers.foldl (fun behind o => o.asText behind) s.elements).reverse

/-- The start. -/
def start : Emphasizing := ⟨[], [], 0⟩

end Emphasizing

mutual

/-- Takes a piece; `last` says that no piece of its level follows. -/
def Piece.emphasize (p : Piece) (last : Bool) (s : Emphasizing) : Emphasizing :=
  match p with
  | .done x => s.add x
  | .run mark count opens closes => s.run mark count opens closes
  | .lineBreak backslash =>
    s.add (if !last then .hardBreak else if backslash then .text "\\" else .softBreak)
  | .link isImage target children =>
    let xs := (emphasizeAll children .start).finish
    s.add (if isImage then .image target.url target.title xs else .link target.url target.title xs)

/-- Takes the pieces of a level. -/
def emphasizeAll (ps : List Piece) (s : Emphasizing) : Emphasizing :=
  match ps with
  | [] => s
  | p :: rest => emphasizeAll rest (p.emphasize rest.isEmpty s)

end

/-- The elements of a block. -/
def Phrase.resolve (src : Source) (definitions : Definitions) (p : Phrase) : List Inline :=
  let s : Surroundings := ⟨src.upTo p.stop, p.containers, p.inTable, definitions⟩
  let pieces := s.findLinks (p.tokens.length + 1) p.tokens ⟨[], [], []⟩
  (emphasizeAll pieces .start).finish

end BlockDoc.Markdown
