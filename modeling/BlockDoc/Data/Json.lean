import BlockDoc.Data.Value

/-!
JSON text of values. The compact form has no white space; the spread form indents by two blanks.
Characters beyond ASCII stand for themselves; a quotation mark, a backslash and the control
characters below U+0020 are escaped.
-/

namespace BlockDoc.Json

/-- One character inside a quoted text. -/
def escape (c : Char) : List Char :=
  if c = '"' then ['\\', '"']
  else if c = '\\' then ['\\', '\\']
  else if c = '\x08' then ['\\', 'b']
  else if c = '\x0c' then ['\\', 'f']
  else if c = '\n' then ['\\', 'n']
  else if c = '\r' then ['\\', 'r']
  else if c = '\t' then ['\\', 't']
  else if c.toNat < 0x20 then
    ['\\', 'u', '0', '0', Nat.digitChar (c.toNat / 16), Nat.digitChar (c.toNat % 16)]
  else [c]

/-- A quoted text. -/
def quote (s : String) : List Char := '"' :: (s.toList.flatMap escape ++ ['"'])

mutual

/-- The compact text of a value. -/
def chars : Value → List Char
  | .null => ['n', 'u', 'l', 'l']
  | .bool true => ['t', 'r', 'u', 'e']
  | .bool false => ['f', 'a', 'l', 's', 'e']
  | .num n => n.toText.toList
  | .str s => quote s
  | .arr items => '[' :: (itemChars items ++ [']'])
  | .obj fields => '{' :: (fieldChars fields ++ ['}'])

/-- Items with commas between them. -/
def itemChars : List Value → List Char
  | [] => []
  | [v] => chars v
  | v :: w :: rest => chars v ++ ',' :: itemChars (w :: rest)

/-- Fields with commas between them. -/
def fieldChars : List (String × Value) → List Char
  | [] => []
  | [(k, v)] => quote k ++ ':' :: chars v
  | (k, v) :: f :: rest => quote k ++ ':' :: (chars v ++ ',' :: fieldChars (f :: rest))

end

/-- A line break followed by the indentation of a level. -/
def newline (level : Nat) : List Char := '\n' :: List.replicate (2 * level) ' '

mutual

/-- The spread text of a value that stands at an indentation level. -/
def spreadChars (level : Nat) : Value → List Char
  | .arr [] => ['[', ']']
  | .arr (v :: rest) =>
    '[' :: (newline (level + 1) ++ spreadChars (level + 1) v ++ spreadItems (level + 1) rest
      ++ newline level ++ [']'])
  | .obj [] => ['{', '}']
  | .obj ((k, v) :: rest) =>
    '{' :: (newline (level + 1) ++ quote k ++ ':' :: ' ' :: (spreadChars (level + 1) v
      ++ spreadFields (level + 1) rest ++ newline level ++ ['}']))
  | .null => chars .null
  | .bool b => chars (.bool b)
  | .num n => chars (.num n)
  | .str s => chars (.str s)

/-- The items after the first. -/
def spreadItems (level : Nat) : List Value → List Char
  | [] => []
  | v :: rest => ',' :: (newline level ++ spreadChars level v ++ spreadItems level rest)

/-- The fields after the first. -/
def spreadFields (level : Nat) : List (String × Value) → List Char
  | [] => []
  | (k, v) :: rest =>
    ',' :: (newline level ++ quote k ++ ':' :: ' ' ::
      (spreadChars level v ++ spreadFields level rest))

end

/-- The compact text. -/
def compact (v : Value) : String := String.ofList (chars v)

/-- The spread text. -/
def spread (v : Value) : String := String.ofList (spreadChars 0 v)

end BlockDoc.Json
