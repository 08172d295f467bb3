import BlockDoc.Data.Value
import BlockDoc.Text.Blank

/-!
Links in texts that are not parsed as Markdown: `[text](url "title")`, where the URL may stand in
angle brackets and the title may be missing. They are found from left to right and do not overlap.
-/

namespace BlockDoc.TextLink

/-- A link: its URL and its text. -/
structure Found where
  url : String
  label : String
  deriving DecidableEq, Repr, Inhabited

/-- Characters of a URL. -/
def isUrlChar (c : Char) : Bool := c != ')' && c != '>' && !Text.isBlank c

/-- What follows one character, if it stands in front. -/
def dropChar? (c : Char) : List Char → Option (List Char)
  | [] => none
  | d :: cs => if d = c then some cs else none

/-- What follows blanks. -/
def skipBlanks (cs : List Char) : List Char := cs.dropWhile Text.isBlank

/-- What follows a title and the blanks in front of it. A quotation mark without a second one
begins no title. -/
def skipTitle (cs : List Char) : List Char :=
  let behind := skipBlanks cs
  if behind.length = cs.length then cs
  else match dropChar? '"' behind with
    | none => cs
    | some inner => (dropChar? '"' (inner.dropWhile (· != '"'))).getD cs

/-- What follows a link whose URL was read. -/
def close? (cs : List Char) : Option (List Char) :=
  dropChar? ')' (skipBlanks (skipTitle ((dropChar? '>' cs).getD cs)))

/-- Reads a URL and what closes the link. -/
def readUrl? (cs : List Char) : Option (List Char × List Char) :=
  let url := cs.takeWhile isUrlChar
  if url.isEmpty then none else (close? (cs.dropWhile isUrlChar)).map fun rest => (url, rest)

/-- Reads a link behind its opening bracket: the link and what follows it. -/
def read? (cs : List Char) : Option (Found × List Char) := do
  let label := cs.takeWhile (· != ']')
  let rest ← dropChar? ']' (cs.dropWhile (· != ']'))
  let rest := skipBlanks (← dropChar? '(' rest)
  let (url, rest) ← ((dropChar? '<' rest).bind readUrl?).or (readUrl? rest)
  return (⟨String.ofList url, String.ofList label⟩, rest)

/-- The links in a list of characters. -/
def ofList : List Char → List Found
  | [] => []
  | c :: cs =>
    if c = '[' then
      match read? cs with
      | some (link, rest) => link :: ofList (cs.drop (cs.length - rest.length))
      | none => ofList cs
    else ofList cs
  termination_by cs => cs.length
  decreasing_by
    all_goals simp only [List.length_drop, List.length_cons]; omega

/-- The links in a text. -/
def ofText (s : String) : List Found := ofList s.toList

mutual

/-- The links in the texts of a value. -/
def ofValue : Value → List Found
  | .str s => ofText s
  | .arr items => ofValues items
  | .obj fields => ofFields fields
  | _ => []

/-- The links in the texts of values. -/
def ofValues : List Value → List Found
  | [] => []
  | v :: vs => ofValue v ++ ofValues vs

/-- The links in the texts of fields. -/
def ofFields : List (String × Value) → List Found
  | [] => []
  | (_, v) :: rest => ofValue v ++ ofFields rest

end

end BlockDoc.TextLink
