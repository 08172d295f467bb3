import BlockDoc.Node
import BlockDoc.Text.Blank

/-!
The blocks of a document. A container is a component whose items carry Markdown of their own: at
first as text, and once it is compiled as blocks. Written as a record, a container has the shape
in which it was authored.
-/

namespace BlockDoc

/-- The field of a component that holds its anchor. -/
def anchorField : String := "glyph-id"

/-- What the content field of a section holds. -/
inductive SectionContent (β : Type) where
  /-- Text that is not compiled. -/
  | markdown (text : String)
  | blocks (bs : List β)
  /-- Neither text nor compiled blocks. -/
  | other (v : Value)
  deriving Repr, Inhabited

/-- An item of a container. -/
inductive Section (β : Type) where
  /-- A mapping: its fields except the content field, and its content. -/
  | entry (props : Fields) (content : Option (SectionContent β))
  /-- An item that is no mapping. -/
  | malformed (v : Value)
  deriving Repr, Inhabited

/-- A component whose items carry Markdown. -/
structure Container (β : Type) where
  itemsField : String
  contentField : String
  /-- All fields except the items. -/
  props : Fields
  /-- The items; none when the items field is missing or no array, which then stays in `props`. -/
  sections : Option (List (Section β))
  deriving Repr, Inhabited

/-- The data of a block, over the type of the blocks inside containers. -/
inductive BlockData (β : Type) where
  | heading (depth : Nat) (anchor : Option String) (children : List Inline)
  | paragraph (children : List Inline)
  | image (src alt : String) (title : Option String)
  | list (l : ItemList)
  | code (language details : Option String) (value : String)
  | quote (children : List Inline)
  | table (t : Table)
  | thematicBreak
  | html (value : String)
  | container (c : Container β)
  | component (props : Fields)
  deriving Repr, Inhabited

/-- A unit of a document. -/
structure Block where
  id : String
  kind : String
  data : BlockData Block
  position : Range
  deriving Repr, Inhabited

namespace Section

/-- The section of an item. -/
def ofValue {β : Type} (contentField : String) : Value → Section β
  | .obj fields =>
    let content := (Fields.get? contentField fields).map fun
      | .str text => SectionContent.markdown text
      | v => SectionContent.other v
    entry (Fields.erase contentField fields) content
  | v => malformed v

/-- Whether the section holds text that is not compiled. -/
def hasMarkdown {β : Type} : Section β → Bool
  | entry _ (some (.markdown _)) => true
  | _ => false

end Section

namespace Container

/-- The container of an authored mapping. -/
def ofProps {β : Type} (itemsField contentField : String) (props : Fields) : Container β :=
  match props.get? itemsField with
  | some (.arr items) =>
    ⟨itemsField, contentField, props.erase itemsField,
      some (items.map (Section.ofValue contentField))⟩
  | _ => ⟨itemsField, contentField, props, none⟩

/-- The sections, of which there may be none. -/
def sectionList {β : Type} (c : Container β) : List (Section β) := c.sections.getD []

/-- Whether a section holds text that is not compiled. -/
def hasMarkdown {β : Type} (c : Container β) : Bool := c.sectionList.any Section.hasMarkdown

/-- The blocks of the compiled sections, each with the index of its section. -/
def nested {β : Type} (c : Container β) : List (Nat × List β) :=
  c.sectionList.zipIdx.filterMap fun
    | (.entry _ (some (.blocks bs)), i) => some (i, bs)
    | _ => none

end Container

namespace BlockData

/-- The anchor that the author declared, unless it is blank. -/
def anchor? {β : Type} (data : BlockData β) : Option String :=
  let declared := match data with
    | heading _ anchor _ => anchor
    | component props => (props.get? anchorField).bind Value.str?
    | container c => (c.props.get? anchorField).bind Value.str?
    | _ => none
  declared.filter fun s => !Text.isBlankText s

end BlockData

namespace Block

/-- The anchor that the author declared. -/
def anchor? (b : Block) : Option String := b.data.anchor?

/-- Whether the block is a container. -/
def isContainer (b : Block) : Bool :=
  match b.data with
  | .container _ => true
  | _ => false

end Block

mutual

/-- A block as a record. -/
def Block.toValue : Block → Value
  | ⟨id, kind, data, position⟩ =>
    .obj [("id", .str id), ("type", .str kind), ("data", dataValue data),
      ("position", position.toValue)]
  termination_by structural b => b

/-- The data of a block as a record. -/
def dataValue : BlockData Block → Value
  | .heading depth anchor children =>
    .obj ([("depth", .nat depth)] ++ Value.optional "anchor" (anchor.map .str)
      ++ [("children", .arr (Inline.valuesOf children))])
  | .paragraph children => .obj [("children", .arr (Inline.valuesOf children))]
  | .image src alt title =>
    .obj ([("src", .str src), ("alt", .str alt)] ++ Value.optional "title" (title.map .str))
  | .list l => l.toValue
  | .code language details value =>
    .obj (Value.optional "language" (language.map .str)
      ++ Value.optional "meta" (details.map .str) ++ [("value", .str value)])
  | .quote children => .obj [("children", .arr (Inline.valuesOf children))]
  | .table t => .obj t.fields
  | .thematicBreak => .obj []
  | .html value => .obj [("value", .str value)]
  | .container ⟨itemsField, contentField, props, some sections⟩ =>
    .obj (props ++ [(itemsField, .arr (sectionValues contentField sections))])
  | .container ⟨_, _, props, none⟩ => .obj props
  | .component props => .obj props
  termination_by structural d => d

/-- Sections as records. -/
def sectionValues (contentField : String) : List (Section Block) → List Value
  | [] => []
  | .malformed v :: rest => v :: sectionValues contentField rest
  | .entry props none :: rest => .obj props :: sectionValues contentField rest
  | .entry props (some (.markdown text)) :: rest =>
    .obj (props ++ [(contentField, .str text)]) :: sectionValues contentField rest
  | .entry props (some (.blocks bs)) :: rest =>
    .obj (props ++ [(contentField, .arr (blockValues bs))]) :: sectionValues contentField rest
  | .entry props (some (.other v)) :: rest =>
    .obj (props ++ [(contentField, v)]) :: sectionValues contentField rest
  termination_by structural s => s

/-- Blocks as records. -/
def blockValues : List Block → List Value
  | [] => []
  | b :: bs => b.toValue :: blockValues bs
  termination_by structural bs => bs

end

end BlockDoc
