import BlockDoc.Data.Value
import BlockDoc.Text.Blank

/-!
References between blocks. A target names an anchor or a block id and, when it lies elsewhere, a
document. It is written `document#glyph:id` in links; declarations also take `document#id` and a
bare `id`.
-/

namespace BlockDoc

/-- What a reference points at. -/
structure Target where
  document : Option String
  id : String
  deriving DecidableEq, Repr, Inhabited

namespace Target

/-- The marker between document and id in a link. -/
def marker : String := "#glyph:"

/-- The target of a document and an id, both without blanks around them. There is none without an
id. -/
def ofParts? (document id : String) : Option Target :=
  let id := Text.trim id
  let document := Text.trim document
  if id.isEmpty then none
  else some ⟨if document.isEmpty then none else some document, id⟩

/-- The target of a link; an ordinary link has none. -/
def ofLink? (url : String) : Option Target :=
  match Text.splitOnce? marker url with
  | some (document, id) => ofParts? document id
  | none => none

/-- The target that a declaration names. -/
def ofDeclared? (raw : String) : Option Target :=
  let raw := Text.trim raw
  if Text.occursIn marker raw then ofLink? raw
  else match Text.splitOnce? "#" raw with
    | some (document, id) => ofParts? document id
    | none => ofParts? "" raw

/-- Whether the target names a document other than the given one. -/
def isElsewhere (documentId : String) (t : Target) : Bool :=
  match t.document with
  | some d => d ≠ documentId
  | none => false

/-- A target as a record. -/
def toValue (t : Target) : Value :=
  .obj (Value.optional "documentId" (t.document.map .str) ++ [("id", .str t.id)])

end Target

/-- How a reference came about. -/
inductive ReferenceKind where
  /-- Declared by a component. -/
  | explicit
  /-- Found as a link in content. -/
  | inline
  deriving DecidableEq, Repr, Inhabited

/-- The word for a kind of reference. -/
def ReferenceKind.name : ReferenceKind → String
  | explicit => "explicit"
  | inline => "inline"

/-- A reference from a block to a target. -/
structure Reference where
  kind : ReferenceKind
  sourceBlockId : String
  sourceAnchor : Option String
  target : Target
  relation : Option String
  label : Option String
  resolvedBlockId : Option String
  deriving DecidableEq, Repr, Inhabited

namespace Reference

/-- Whether the block that the reference points at is known. -/
def isResolved (r : Reference) : Bool := r.resolvedBlockId.isSome

/-- A reference as a record. -/
def toValue (r : Reference) : Value :=
  .obj ([("kind", .str r.kind.name), ("sourceBlockId", .str r.sourceBlockId)]
    ++ Value.optional "sourceAnchor" (r.sourceAnchor.map .str)
    ++ [("target", r.target.toValue)]
    ++ Value.optional "relation" (r.relation.map .str)
    ++ Value.optional "label" (r.label.map .str)
    ++ Value.optional "resolvedBlockId" (r.resolvedBlockId.map .str))

end Reference

end BlockDoc
