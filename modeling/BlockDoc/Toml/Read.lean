import BlockDoc.Text.Number
import BlockDoc.Toml.Value

/-!
Reading TOML documents. Every reader takes the characters that are left and answers with what it
read and the rest. The fuel of the nested readers counts characters.
-/

namespace BlockDoc.Toml

/-- A reader of characters. -/
abbrev Reader (α : Type) := List Char → Except Error (α × List Char)

/-- A space or a tab. -/
def isSpace (c : Char) : Bool := c == ' ' || c == '\t'

/-- The rest behind spaces and tabs. -/
def skipSpaces (cs : List Char) : List Char := cs.dropWhile isSpace

/-- The rest behind a line break. -/
def newline? : List Char → Option (List Char)
  | '\n' :: rest => some rest
  | '\r' :: '\n' :: rest => some rest
  | _ => none

/-- Characters of a comment. -/
def isCommentChar (c : Char) : Bool :=
  c == '\t' || (0x20 ≤ c.toNat && c.toNat ≤ 0x7e) || 0x80 ≤ c.toNat

/-- The rest behind a comment, if one stands here. -/
def skipComment : List Char → List Char
  | '#' :: rest => rest.dropWhile isCommentChar
  | cs => cs

/-- The rest behind spaces, a comment and the end of the line. -/
def lineEnd (cs : List Char) : Except Error (List Char) :=
  let rest := skipComment (skipSpaces cs)
  if rest.isEmpty then .ok [] else match newline? rest with
    | some rest => .ok rest
    | none => .error .badLine

/-- The rest behind spaces, comments and line breaks. -/
def skipLines : Nat → List Char → List Char
  | 0, cs => cs
  | fuel + 1, cs =>
    let rest := skipComment (skipSpaces cs)
    match newline? rest with
    | some rest => skipLines fuel rest
    | none => rest

/-! ## Strings -/

/-- The character of an escape by number. -/
def charOf? (digits : List Char) (count : Nat) : Option Char := do
  if digits.length = count then
    let n ← Text.natOfDigits? 16 digits
    if n.isValidChar then some (Char.ofNat n) else none
  else none

/-- Reads an escape behind its backslash. -/
def readEscape : Reader Char
  | 'b' :: rest => .ok ('\x08', rest)
  | 't' :: rest => .ok ('\t', rest)
  | 'n' :: rest => .ok ('\n', rest)
  | 'f' :: rest => .ok ('\x0c', rest)
  | 'r' :: rest => .ok ('\r', rest)
  | '"' :: rest => .ok ('"', rest)
  | '\\' :: rest => .ok ('\\', rest)
  | 'u' :: rest => match charOf? (rest.take 4) 4 with
    | some c => .ok (c, rest.drop 4)
    | none => .error .badString
  | 'U' :: rest => match charOf? (rest.take 8) 8 with
    | some c => .ok (c, rest.drop 8)
    | none => .error .badString
  | _ => .error .badString

/-- Characters a string may contain besides its own quotation marks and escapes. -/
def isStringChar (c : Char) : Bool :=
  c == '\t' || (0x20 ≤ c.toNat && c.toNat ≤ 0x7e) || 0x80 ≤ c.toNat

/-- Reads a string on one line up to its closing mark. -/
def readLineString (mark : Char) : Nat → List Char → Reader String
  | 0, _, _ => .error .badString
  | _ + 1, _, [] => .error .badString
  | fuel + 1, text, c :: rest =>
    if c == mark then .ok (String.ofList text.reverse, rest)
    else if c == '\\' && mark == '"' then
      match readEscape rest with
      | .ok (e, rest) => readLineString mark fuel (e :: text) rest
      | .error e => .error e
    else if isStringChar c then readLineString mark fuel (c :: text) rest
    else .error .badString

/-- Reads a string on several lines. Up to two marks may stand before the three that close it. -/
def readLongString (mark : Char) : Nat → List Char → Reader String
  | 0, _, _ => .error .badString
  | _ + 1, _, [] => .error .badString
  | fuel + 1, text, c :: rest =>
    if c == mark then
      let marks := 1 + (rest.takeWhile (· == mark)).length
      let after := rest.dropWhile (· == mark)
      if marks < 3 then
        readLongString mark fuel (List.replicate marks mark ++ text) after
      else if marks ≤ 5 then
        .ok (String.ofList (List.replicate (marks - 3) mark ++ text).reverse, after)
      else .error .badString
    else if c == '\\' && mark == '"' then
      match newline? (skipSpaces rest) with
      | some after =>
        readLongString mark fuel text
          (after.dropWhile fun c => isSpace c || c == '\n' || c == '\r')
      | none => match readEscape rest with
        | .ok (e, rest) => readLongString mark fuel (e :: text) rest
        | .error e => .error e
    else match newline? (c :: rest) with
      | some after => readLongString mark fuel ('\n' :: text) after
      | none =>
        if isStringChar c then readLongString mark fuel (c :: text) rest else .error .badString

/-- The rest behind the line break that may follow an opening mark. -/
def skipFirstBreak (cs : List Char) : List Char := (newline? cs).getD cs

/-- Reads a string, its opening mark included. -/
def readString : Reader String
  | '"' :: '"' :: '"' :: rest => readLongString '"' (rest.length + 1) [] (skipFirstBreak rest)
  | '\'' :: '\'' :: '\'' :: rest => readLongString '\'' (rest.length + 1) [] (skipFirstBreak rest)
  | '"' :: rest => readLineString '"' (rest.length + 1) [] rest
  | '\'' :: rest => readLineString '\'' (rest.length + 1) [] rest
  | _ => .error .badString

/-! ## Keys -/

/-- Characters of a key without quotation marks. -/
def isKeyChar (c : Char) : Bool := c.isAlphanum || c == '-' || c == '_'

/-- Reads one part of a key. -/
def readKeyPart (cs : List Char) : Except Error (String × List Char) :=
  match cs with
  | '"' :: rest => readLineString '"' (rest.length + 1) [] rest
  | '\'' :: rest => readLineString '\'' (rest.length + 1) [] rest
  | _ =>
    let part := cs.takeWhile isKeyChar
    if part.isEmpty then .error .badKey else .ok (String.ofList part, cs.dropWhile isKeyChar)

/-- Reads a key with points between its parts, spaces around it and around them. -/
def readKey : Nat → Reader (List String)
  | 0, _ => .error .badKey
  | fuel + 1, cs =>
    match readKeyPart (skipSpaces cs) with
    | .error e => .error e
    | .ok (part, rest) =>
      match skipSpaces rest with
      | '.' :: rest => (readKey fuel rest).map fun (parts, rest) => (part :: parts, rest)
      | rest => .ok ([part], rest)

/-! ## Numbers and moments -/

/-- Digits with single underscores between them: the digits and the rest. -/
def digitRun (test : Char → Bool) : List Char → List Char × List Char
  | [] => ([], [])
  | c :: rest =>
    if test c then
      let (more, after) := digitRun test rest
      (c :: more, after)
    else if c == '_' && (rest.head?.map test).getD false then
      let (more, after) := digitRun test rest
      (more, after)
    else ([], c :: rest)

/-- Digits with underscores, starting with a digit. -/
def digits? (test : Char → Bool) (cs : List Char) : Option (List Char × List Char) :=
  if (cs.head?.map test).getD false then some (digitRun test cs) else none

/-- Whether a character is a digit of a base. -/
def isDigitOf (base : Nat) (c : Char) : Bool :=
  match Text.digitValue? c with
  | some d => d < base
  | none => false

/-- Reads an integer in a base named by its lead; there is no sign. -/
def baseInteger? : List Char → Option (Nat × List Char)
  | '0' :: b :: rest =>
    let base := if b == 'x' then 16 else if b == 'o' then 8 else if b == 'b' then 2 else 0
    if base = 0 then none
    else do
      let (ds, rest) ← digits? (isDigitOf base) rest
      let n ← Text.natOfDigits? base ds
      return (n, rest)
  | _ => none

/-- Reads the digits of a decimal integer, without a needless zero in front. -/
def decimalDigits? (cs : List Char) : Option (List Char × List Char) :=
  match cs with
  | '0' :: rest => some (['0'], rest)
  | _ => digits? Char.isDigit cs

/-- Reads the digits of a fraction behind a point. -/
def fraction? : List Char → Option (List Char × List Char)
  | '.' :: rest => digits? Char.isDigit rest
  | _ => none

/-- Reads an exponent. -/
def power? : List Char → Option (Int × List Char)
  | c :: rest =>
    if c == 'e' || c == 'E' then do
      let (negative, rest) := Text.splitSign rest
      let (ds, rest) ← digits? Char.isDigit rest
      let n ← Text.natOfDigits? 10 ds
      return (if negative then -(n : Int) else n, rest)
    else none
  | [] => none

/-- Reads what makes a number a float, a fraction, an exponent or both: the digits of the fraction
and the exponent. -/
def floatTail? (cs : List Char) : Option (List Char × Int × List Char) :=
  match fraction? cs with
  | some (ds, rest) =>
    match power? rest with
    | some (e, rest) => some (ds, e, rest)
    | none => some (ds, 0, rest)
  | none => (power? cs).map fun (e, rest) => ([], e, rest)

/-- Reads a float. One above the finite numbers is refused; one below them is minus infinity. -/
def float? (cs : List Char) : Option (List Char) := do
  let (whole, rest) ← decimalDigits? cs
  let (parts, e, rest) ← floatTail? rest
  let n ← Text.natOfDigits? 10 (whole ++ parts)
  if cs.head? != some '-' then
    let _ ← Binary64.ofDecimal? false n (e - parts.length)
  return rest

/-- Reads a fixed count of digits as a number. -/
def fixedDigits? (count : Nat) (cs : List Char) : Option (Nat × List Char) :=
  let ds := cs.take count
  if ds.length = count && ds.all Char.isDigit then
    (Text.natOfDigits? 10 ds).map fun n => (n, cs.drop count)
  else none

/-- Reads a character that is required. -/
def expect? (c : Char) : List Char → Option (List Char)
  | d :: rest => if c = d then some rest else none
  | [] => none

/-- The number of days of a month. -/
def daysIn (year month : Nat) : Nat :=
  if month = 2 then
    if year % 4 = 0 && (year % 100 ≠ 0 || year % 400 = 0) then 29 else 28
  else if month = 4 || month = 6 || month = 9 || month = 11 then 30 else 31

/-- Reads a date. -/
def date? (cs : List Char) : Option (List Char) := do
  let (year, cs) ← fixedDigits? 4 cs
  let cs ← expect? '-' cs
  let (month, cs) ← fixedDigits? 2 cs
  let cs ← expect? '-' cs
  let (day, cs) ← fixedDigits? 2 cs
  if 1 ≤ month && month ≤ 12 && 1 ≤ day && day ≤ daysIn year month then some cs else none

/-- Reads a time of day, with or without a fraction of the second. -/
def time? (cs : List Char) : Option (List Char) := do
  let (hour, cs) ← fixedDigits? 2 cs
  let cs ← expect? ':' cs
  let (minute, cs) ← fixedDigits? 2 cs
  let cs ← expect? ':' cs
  let (second, cs) ← fixedDigits? 2 cs
  if hour ≤ 23 && minute ≤ 59 && second ≤ 60 then
    match cs with
    | '.' :: rest =>
      if (rest.head?.map Char.isDigit).getD false then some (rest.dropWhile Char.isDigit) else cs
    | _ => cs
  else none

/-- The rest behind an offset from universal time, if one stands here. -/
def skipOffset (cs : List Char) : List Char :=
  match cs with
  | 'Z' :: rest | 'z' :: rest => rest
  | sign :: rest =>
    if sign == '+' || sign == '-' then
      (do
        let (hour, rest) ← fixedDigits? 2 rest
        let rest ← expect? ':' rest
        let (minute, rest) ← fixedDigits? 2 rest
        if hour ≤ 23 && minute ≤ 59 then some rest else none).getD cs
    else cs
  | [] => cs

/-- Reads a date, a time, or a date with a time. -/
def moment? (cs : List Char) : Option (List Char) :=
  match date? cs with
  | some rest =>
    match rest with
    | c :: more =>
      if c == 'T' || c == 't' || c == ' ' then
        match time? more with
        | some after => some (skipOffset after)
        | none => some rest
      else some rest
    | [] => some rest
  | none => time? cs

/-- The rest behind a word. -/
def word? (w : List Char) (cs : List Char) : Option (List Char) :=
  if w.isPrefixOf cs then some (cs.drop w.length) else none

/-- Reads a number or a moment. -/
def readNumber (cs : List Char) : Except Error (Value × List Char) :=
  match moment? cs with
  | some rest => .ok (.moment, rest)
  | none =>
    let (negative, body) := Text.splitSign cs
    match (word? ['i', 'n', 'f'] body).or (word? ['n', 'a', 'n'] body) with
    | some rest => .ok (.float, rest)
    | none =>
      match float? body with
      | some rest => .ok (.float, rest)
      | none =>
        let based := if body.length = cs.length then baseInteger? cs else none
        let plain := do
          let (ds, rest) ← decimalDigits? body
          let n ← Text.natOfDigits? 10 ds
          return (n, rest)
        match based.or plain with
        | some (n, rest) =>
          let value : Int := if negative then -(n : Int) else n
          let limit := Int.ofNat (Nat.pow 2 63)
          if -limit ≤ value && value < limit then .ok (.int value, rest) else .error .badNumber
        | none => .error .badNumber

/-! ## Values -/

/-- Adds a pair of an inline table or of a table's own lines. -/
def addPair (path : List String) (v : Value) (entries : Entries) : Except Error Entries :=
  let key := path.getLast?.getD ""
  let way := path.dropLast
  entries.update .dotted (fun origin inner =>
    -- a table of dotted keys takes no key of its own lines, and the other way round
    if (origin = .dotted) = way.isEmpty then .error (.repeatedKey key)
    else if (inner.get? key).isSome then .error (.repeatedKey key)
    else .ok (inner.set key (.value v))) way .header

mutual

/-- Reads a value; arrays and inline tables nest at most `depth` deep. -/
def readValue (depth : Nat) : Nat → Reader Value
  | 0, _ => .error .badValue
  | fuel + 1, cs =>
    match cs with
    | '"' :: _ | '\'' :: _ => (readString cs).map fun (s, rest) => (.str s, rest)
    | '[' :: rest =>
      match depth with
      | 0 => .error .tooDeep
      | depth + 1 => (readItems depth fuel rest).map fun (items, rest) => (.arr items, rest)
    | '\x7b' :: rest =>
      match depth with
      | 0 => .error .tooDeep
      | depth + 1 =>
        match skipSpaces rest with
        | '\x7d' :: rest => .ok (.table [], rest)
        | rest => (readPairs depth fuel [] rest).map fun (entries, rest) =>
          (.table (fieldValues entries), rest)
    | c :: _ =>
      if c == 't' || c == 'f' then
        match word? ['t', 'r', 'u', 'e'] cs, word? ['f', 'a', 'l', 's', 'e'] cs with
        | some rest, _ => .ok (.bool true, rest)
        | _, some rest => .ok (.bool false, rest)
        | none, none => .error .badValue
      else if c == '+' || c == '-' || c.isDigit || c == 'i' || c == 'n' then readNumber cs
      else .error .badValue
    | [] => .error .badValue

/-- Reads the items of an array and its end. -/
def readItems (depth : Nat) : Nat → Reader (List Value)
  | 0, _ => .error .badValue
  | fuel + 1, cs =>
    match skipLines (cs.length + 1) cs with
    | ']' :: rest => .ok ([], rest)
    | start =>
      match readValue depth fuel start with
      | .error e => .error e
      | .ok (v, rest) =>
        match skipLines (rest.length + 1) rest with
        | ']' :: rest => .ok ([v], rest)
        | ',' :: rest => (readItems depth fuel rest).map fun (vs, rest) => (v :: vs, rest)
        | _ => .error .badValue

/-- Reads the pairs of an inline table and its end. -/
def readPairs (depth : Nat) : Nat → Entries → Reader Entries
  | 0, _, _ => .error .badValue
  | fuel + 1, entries, cs =>
    match readKey (cs.length + 1) cs with
    | .error e => .error e
    | .ok (path, '=' :: rest) =>
      match readValue depth fuel (skipSpaces rest) with
      | .error e => .error e
      | .ok (v, rest) =>
        match addPair path v entries with
        | .error e => .error e
        | .ok entries =>
          match skipSpaces rest with
          | '\x7d' :: rest => .ok (entries, rest)
          | ',' :: rest => readPairs depth fuel entries rest
          | _ => .error .badValue
    | .ok _ => .error .badKey

end

/-! ## Documents -/

/-- A document while it is read: everything so far, and the table whose lines are being read. -/
structure Draft where
  root : Entries
  /-- The path of the current header, empty for the lines before the first one. -/
  path : List String
  /-- Whether the current header adds a table to an array. -/
  isArray : Bool
  current : Entries
  deriving Inhabited

/-- Puts the current table into its place. -/
def Draft.close (d : Draft) : Except Error Draft := do
  match d.path.getLast? with
  | none => return { d with root := d.current, current := [] }
  | some key =>
    let root ← d.root.update .step (fun _ parent =>
      if d.isArray then
        match parent.get? key with
        | some (.tables ts) => .ok (parent.set key (.tables (d.current :: ts)))
        | none => .ok (parent.set key (.tables [d.current]))
        | _ => .error (.repeatedKey key)
      else match parent.get? key with
        | none => .ok (parent.set key (.table .header d.current))
        | some (.table .step _) => .ok (parent.set key (.table .header d.current))
        | _ => .error (.repeatedKey key)) d.path.dropLast .header
    return { d with root := root, current := [] }

/-- Opens the table of a header. It may have been passed on the way to another header before. -/
def Draft.openTable (path : List String) (d : Draft) : Except Error Draft := do
  let d ← d.close
  let key := path.getLast?.getD ""
  let mut current : Entries := []
  let found ← find d.root path.dropLast
  match found.get? key with
  | none => pure ()
  | some (.table .step inner) => current := inner
  | some _ => throw (.repeatedKey key)
  return { d with path := path, isArray := false, current := current }
where
  /-- The table that a path of headers leads to, as far as it exists. -/
  find (entries : Entries) : List String → Except Error Entries
    | [] => .ok entries
    | key :: path => match entries.get? key with
      | none => .ok []
      | some (.value _) => .error (.notATable key)
      | some (.tables (last :: _)) => find last path
      | some (.tables []) => .ok []
      | some (.table _ inner) => find inner path

/-- Opens a new table of an array. -/
def Draft.openArray (path : List String) (d : Draft) : Except Error Draft := do
  let d ← d.close
  let key := path.getLast?.getD ""
  let found ← Draft.openTable.find d.root path.dropLast
  match found.get? key with
  | none | some (.tables _) => return { d with path := path, isArray := true, current := [] }
  | some _ => throw (.repeatedKey key)

/-- Arrays, inline tables and keys may nest this deep. -/
def maxDepth : Nat := 79

/-- Reads a header and the rest of its line. -/
def readHeader (d : Draft) (cs : List Char) : Except Error (Draft × List Char) := do
  let (isArray, start) := match cs with
    | '[' :: '[' :: rest => (true, rest)
    | _ => (false, cs.drop 1)
  let (path, rest) ← readKey (start.length + 1) start
  if maxDepth < path.length then throw .tooDeep
  let rest ← match isArray, rest with
    | true, ']' :: ']' :: rest => pure rest
    | false, ']' :: rest => pure rest
    | _, _ => throw .badKey
  let rest ← lineEnd rest
  return (← if isArray then d.openArray path else d.openTable path, rest)

/-- Reads a line with a key and a value. -/
def readPair (d : Draft) (cs : List Char) : Except Error (Draft × List Char) := do
  let (path, rest) ← readKey (cs.length + 1) cs
  if maxDepth < path.length then throw .tooDeep
  let rest ← match rest with
    | '=' :: rest => pure rest
    | _ => throw .badKey
  let (v, rest) ← readValue maxDepth (2 * rest.length + 2) (skipSpaces rest)
  let rest ← lineEnd rest
  return ({ d with current := ← addPair path v d.current }, rest)

/-- Reads the lines of a document. -/
def readLines : Nat → Draft → List Char → Except Error Draft
  | 0, d, _ => .ok d
  | fuel + 1, d, cs =>
    match skipSpaces cs with
    | [] => .ok d
    | start =>
      let next : Except Error (Draft × List Char) := match start with
        | '#' :: _ => (lineEnd start).map fun rest => (d, rest)
        | '[' :: _ => readHeader d start
        | '\n' :: rest => .ok (d, rest)
        | '\r' :: '\n' :: rest => .ok (d, rest)
        | _ => readPair d start
      match next with
      | .ok (d, rest) => readLines fuel d rest
      | .error e => .error e

/-- The fields of a document; a byte order mark in front is skipped. -/
def parse (text : String) : Except Error (List (String × Value)) := do
  let cs := match text.toList with
    | '\ufeff' :: rest => rest
    | cs => cs
  let d ← readLines (cs.length + 1) ⟨[], [], false, []⟩ cs
  return fieldValues (← d.close).root

end BlockDoc.Toml
