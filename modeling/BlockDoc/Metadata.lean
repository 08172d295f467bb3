import BlockDoc.Block

/-!
What is known about a document besides its content, and how it asks to be laid out.
-/

namespace BlockDoc

/-- Facts about a document. -/
structure Metadata where
  title : Option String
  description : Option String
  authors : Option (List String)
  createdAt : Option String
  tags : Option (List String)
  sourceFile : Option String
  deriving DecidableEq, Repr, Inhabited

namespace Metadata

/-- No facts. -/
def empty : Metadata := ⟨none, none, none, none, none, none⟩

/-- Texts as an array. -/
def textsValue (texts : List String) : Value := .arr (texts.map .str)

/-- Metadata as a record; what is not known is left out. -/
def toValue (m : Metadata) : Value :=
  .obj (Value.optional "title" (m.title.map .str)
    ++ Value.optional "description" (m.description.map .str)
    ++ Value.optional "authors" (m.authors.map textsValue)
    ++ Value.optional "createdAt" (m.createdAt.map .str)
    ++ Value.optional "tags" (m.tags.map textsValue)
    ++ Value.optional "sourceFile" (m.sourceFile.map .str))

/-- The text of a heading of the first level. -/
def titleOf? (b : Block) : Option String :=
  match b.data with
  | .heading 1 _ children => some (Text.trim (Inline.plainText children))
  | _ => none

/-- The text of a paragraph. -/
def descriptionOf? (b : Block) : Option String :=
  match b.data with
  | .paragraph children => some (Text.trim (Inline.plainText children))
  | _ => none

/-- Takes a missing title from the first heading of the first level and a missing description from
the first paragraph. -/
def infer (bs : List Block) (m : Metadata) : Metadata :=
  { m with
    title := m.title.or (bs.findSome? titleOf?)
    description := m.description.or (bs.findSome? descriptionOf?) }

end Metadata

/-- The overall form of a document. -/
inductive LayoutMode where
  | document
  | dashboard
  | presentation
  deriving DecidableEq, Repr, Inhabited

namespace LayoutMode

/-- The word for a mode. -/
def name : LayoutMode → String
  | document => "document"
  | dashboard => "dashboard"
  | presentation => "presentation"

/-- The mode that a word names. -/
def ofName? (s : String) : Option LayoutMode :=
  [document, dashboard, presentation].find? (·.name == s)

end LayoutMode

/-- The distances between blocks. -/
inductive Spacing where
  | compact
  | normal
  | relaxed
  deriving DecidableEq, Repr, Inhabited

namespace Spacing

/-- The word for a spacing. -/
def name : Spacing → String
  | compact => "compact"
  | normal => "normal"
  | relaxed => "relaxed"

/-- The spacing that a word names. -/
def ofName? (s : String) : Option Spacing := [compact, normal, relaxed].find? (·.name == s)

end Spacing

/-- How a document asks to be laid out. -/
structure Layout where
  mode : LayoutMode
  spacing : Spacing
  columns : Option Nat
  maxWidth : Option String
  deriving DecidableEq, Repr, Inhabited

namespace Layout

/-- The layout of a document that asks for none. -/
def default : Layout := ⟨.document, .normal, none, none⟩

/-- A layout as a record. -/
def toValue (l : Layout) : Value :=
  .obj ([("mode", .str l.mode.name), ("spacing", .str l.spacing.name)]
    ++ Value.optional "columns" (l.columns.map .nat)
    ++ Value.optional "maxWidth" (l.maxWidth.map .str))

end Layout

end BlockDoc
