import BlockDoc.Diagnostic
import BlockDoc.Metadata

/-!
The fields of front matter. Unknown fields and fields of a wrong type are passed over; a text that
is no YAML is reported.
-/

namespace BlockDoc.FrontMatter

/-- What front matter says about a document. -/
structure Facts where
  metadata : Metadata
  layout : Layout
  /-- The id that the document declares. -/
  id : Option String
  deriving DecidableEq, Repr, Inhabited

/-- What is known without front matter. -/
def Facts.empty : Facts := ⟨.empty, .default, none⟩

/-- A field that holds text. -/
def text? (key : String) (fields : Fields) : Option String := (fields.get? key).bind Value.str?

/-- A field that holds an array of texts and nothing else. -/
def texts? (key : String) (fields : Fields) : Option (List String) :=
  (fields.get? key).bind Value.strings?

/-- A positive number of 32 bits. -/
def columns? (v : Value) : Option Nat := v.nat?.filter fun n => 0 < n && n < Nat.pow 2 32

/-- A width: text, or a number as it is written. -/
def width? : Value → Option String
  | .str s => some s
  | .num n => some n.toText
  | _ => none

/-- The layout that the fields of a mapping ask for. -/
def layoutOf (fields : Fields) : Layout :=
  { mode := ((text? "mode" fields).bind LayoutMode.ofName?).getD .document
    spacing := ((text? "spacing" fields).bind Spacing.ofName?).getD .normal
    columns := (fields.get? "columns").bind columns?
    maxWidth := (fields.get? "maxWidth").bind width? }

/-- What the fields of front matter say. -/
def ofFields (fields : Fields) : Facts :=
  { metadata :=
      { title := text? "title" fields
        description := text? "description" fields
        authors := texts? "authors" fields
        createdAt := text? "createdAt" fields
        tags := texts? "tags" fields
        sourceFile := none }
    layout :=
      match fields.get? "layout" with
      | some (.obj layout) => layoutOf layout
      | _ => .default
    id := (text? anchorField fields).filter fun s => !s.isEmpty }

/-- What the front matter of a document says, given the nodes of its text. -/
def read (nodes : List Node) : Facts × List Diagnostic :=
  match nodes with
  | .mk position (.yaml value) :: _ =>
    match Yaml.decode value with
    | .ok (.obj fields) => (ofFields fields, [])
    | .ok _ => (.empty, [])
    | .error e => (.empty, [⟨.frontMatterYaml e, some position⟩])
  | _ => (.empty, [])

end BlockDoc.FrontMatter
