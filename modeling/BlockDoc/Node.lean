import BlockDoc.Inline
import BlockDoc.Markdown.Line
import BlockDoc.Position

/-!
The tree of a Markdown text: its blocks with their positions. Lists and tables have one form here
and in the data of document blocks.
-/

namespace BlockDoc

open Markdown (CellAlignment)

mutual

/-- A list. -/
inductive ItemList where
  | mk (ordered : Bool) (start : Option Nat) (items : List Item)
  deriving Repr, BEq

/-- An item of a list: the state of its task, if it is one, its text, and the list below it. -/
inductive Item where
  | mk (checked : Option Bool) (children : List Inline) (sublist : Option ItemList)
  deriving Repr, BEq

end

instance : Inhabited ItemList := ⟨.mk false none []⟩

instance : Inhabited Item := ⟨.mk none [] none⟩

/-- A table. Rows may have any number of cells. -/
structure Table where
  align : List CellAlignment
  header : List (List Inline)
  rows : List (List (List Inline))
  deriving Repr, BEq, Inhabited

mutual

/-- A list as a record. -/
def ItemList.toValue : ItemList → Value
  | .mk ordered start items =>
    .obj ([("ordered", .bool ordered)] ++ Value.optional "start" (start.map Value.nat)
      ++ [("items", .arr (itemValues items))])

/-- An item as a record. -/
def Item.toValue : Item → Value
  | .mk checked children sublist =>
    .obj (Value.optional "checked" (checked.map Value.bool)
      ++ [("children", .arr (Inline.valuesOf children))]
      ++ match sublist with
        | some l => [("sublist", l.toValue)]
        | none => [])

/-- Items as records. -/
def itemValues : List Item → List Value
  | [] => []
  | x :: xs => x.toValue :: itemValues xs

end

mutual

/-- The links in a list, an item before the list below it. -/
def ItemList.links : ItemList → List (String × String)
  | .mk _ _ items => itemLinks items

/-- The links in an item. -/
def Item.links : Item → List (String × String)
  | .mk _ children sublist =>
    Inline.links children ++ match sublist with
      | some l => l.links
      | none => []

/-- The links in items. -/
def itemLinks : List Item → List (String × String)
  | [] => []
  | x :: xs => x.links ++ itemLinks xs

end

/-- The word for an alignment. -/
def Markdown.CellAlignment.name : CellAlignment → String
  | .none => "none"
  | .left => "left"
  | .center => "center"
  | .right => "right"

namespace Table

/-- The cells of a row as records. -/
def rowValue (cells : List (List Inline)) : Value :=
  .arr (cells.map fun cell => .arr (Inline.valuesOf cell))

/-- The fields of a table's record. -/
def fields (t : Table) : List (String × Value) :=
  [("align", .arr (t.align.map fun a => .str a.name)), ("header", rowValue t.header),
    ("rows", .arr (t.rows.map rowValue))]

/-- The links in a table, those of the header first. -/
def links (t : Table) : List (String × String) :=
  t.header.flatMap Inline.links ++ t.rows.flatMap (·.flatMap Inline.links)

end Table

mutual

/-- A block of a Markdown text and its position. -/
inductive Node where
  | mk (position : Range) (content : Content)
  deriving Repr

/-- What a block of a Markdown text holds. -/
inductive Content where
  /-- Metadata in front of the text; only a first node is of this kind. -/
  | yaml (value : String)
  | heading (depth : Nat) (anchor : Option String) (children : List Inline)
  | paragraph (children : List Inline)
  /-- Code with the first word behind its fence and what follows that word. -/
  | code (language details : Option String) (value : String)
  | list (l : ItemList)
  | quote (children : List Node)
  | table (t : Table)
  | thematicBreak
  | html (value : String)
  /-- A block that documents do not hold. -/
  | unsupported (name : String)
  deriving Repr

end

instance : Inhabited Content := ⟨.thematicBreak⟩

instance : Inhabited Node := ⟨.mk default default⟩

namespace Node

/-- Where a node stands. -/
def position : Node → Range
  | mk p _ => p

/-- What a node holds. -/
def content : Node → Content
  | mk _ c => c

end Node

end BlockDoc
