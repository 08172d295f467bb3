import BlockDoc.Data.Value

/-!
The elements of a line of text, their plain text, and the links among them.
-/

namespace BlockDoc

/-- An element within a line of text. Elements with children nest freely. -/
inductive Inline where
  | text (value : String)
  | strong (children : List Inline)
  | emphasis (children : List Inline)
  | delete (children : List Inline)
  | code (value : String)
  | link (url title : String) (children : List Inline)
  | image (url title : String) (alt : List Inline)
  | html (value : String)
  | softBreak
  | hardBreak
  deriving Repr, BEq, Inhabited

namespace Inline

mutual

/-- The text of an element without its markup: a break is a space, and HTML has no text. -/
def plain : Inline → String
  | text value => value
  | code value => value
  | strong children => plainText children
  | emphasis children => plainText children
  | delete children => plainText children
  | link _ _ children => plainText children
  | image _ _ alt => plainText alt
  | html _ => ""
  | softBreak => " "
  | hardBreak => " "

/-- The text of elements without their markup. -/
def plainText : List Inline → String
  | [] => ""
  | x :: xs => plain x ++ plainText xs

end

mutual

/-- The links of an element. -/
def linksOf : Inline → List (String × String)
  | link url _ children => (url, plainText children) :: links children
  | strong children => links children
  | emphasis children => links children
  | delete children => links children
  | _ => []

/-- Every link with its plain text, a link before the links inside it. The description of an image
is not searched. -/
def links : List Inline → List (String × String)
  | [] => []
  | x :: xs => linksOf x ++ links xs

end

mutual

/-- An element as a record. -/
def toValue : Inline → Value
  | text value => .obj [("type", .str "text"), ("value", .str value)]
  | strong children => .obj [("type", .str "strong"), ("children", .arr (valuesOf children))]
  | emphasis children => .obj [("type", .str "emphasis"), ("children", .arr (valuesOf children))]
  | delete children => .obj [("type", .str "delete"), ("children", .arr (valuesOf children))]
  | code value => .obj [("type", .str "inlineCode"), ("value", .str value)]
  | link url title children =>
    .obj ([("type", .str "link"), ("url", .str url)] ++ titleField title
      ++ [("children", .arr (valuesOf children))])
  | image url title alt =>
    .obj ([("type", .str "image"), ("url", .str url)] ++ titleField title
      ++ [("alt", .arr (valuesOf alt))])
  | html value => .obj [("type", .str "html"), ("value", .str value)]
  | softBreak => .obj [("type", .str "softBreak")]
  | hardBreak => .obj [("type", .str "break")]

/-- The records of elements. -/
def valuesOf : List Inline → List Value
  | [] => []
  | x :: xs => x.toValue :: valuesOf xs

/-- The field of a title, which is left out when the title is empty. -/
def titleField (title : String) : List (String × Value) :=
  if title.isEmpty then [] else [("title", .str title)]

end

end Inline

end BlockDoc
