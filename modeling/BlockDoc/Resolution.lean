import BlockDoc.BlockIndex
import BlockDoc.TextLink

/-!
The references of a document: links found in the content of blocks, and the blocks that references
point at. An anchor that one block claims is the name of that block; an id is the name of its block
unless it is an anchor as well.
-/

namespace BlockDoc

/-- A link found in a text as a URL and a label. -/
def foundLinks (found : List TextLink.Found) : List (String × String) :=
  found.map fun l => (l.url, l.label)

/-- The links in a section of a container. Compiled content is searched as blocks of its own. -/
def sectionLinks {β : Type} : Section β → List (String × String)
  | .entry props (some (.markdown text)) =>
    foundLinks (TextLink.ofFields props ++ TextLink.ofText text)
  | .entry props _ => foundLinks (TextLink.ofFields props)
  | .malformed v => foundLinks (TextLink.ofValue v)

/-- The links in the data of a block. -/
def dataLinks {β : Type} : BlockData β → List (String × String)
  | .heading _ _ children => Inline.links children
  | .paragraph children => Inline.links children
  | .quote children => Inline.links children
  | .list l => l.links
  | .table t => t.links
  | .component props => foundLinks (TextLink.ofFields props)
  | .container c =>
    foundLinks (TextLink.ofFields c.props) ++ c.sectionList.flatMap sectionLinks
  | .image .. => []
  | .code .. => []
  | .thematicBreak => []
  | .html _ => []

/-- The references that a block makes by its links. -/
def inlineReferences (b : Block) : List Reference :=
  (dataLinks b.data).filterMap fun (url, label) =>
    (Target.ofLink? url).map fun target =>
      { kind := .inline
        sourceBlockId := b.id
        sourceAnchor := some (b.anchor?.getD b.id)
        target := target
        relation := none
        label := if label.isEmpty then none else some label
        resolvedBlockId := none }

/-- All references that the blocks of a document make by their links, depth first. -/
def extractReferences (bs : List Block) : List Reference := (allBlocks bs).flatMap inlineReferences

/-- The block that a target points at in a document, or why there is none. -/
def resolveTarget (documentId : String) (index : BlockIndex) (t : Target) : Except Cause String :=
  if t.isElsewhere documentId then .error (.crossDocument t.id (t.document.getD ""))
  else match index.claimants t.id with
    | [only] => .ok only
    | [] => if index.contains t.id then .ok t.id else .error (.unresolved t.id)
    | many => .error (.ambiguous t.id many)

/-- Resolves a reference that is not resolved yet; one diagnostic comes with it if that fails. -/
def Reference.resolve (documentId : String) (index : BlockIndex) (r : Reference) :
    Reference × List Diagnostic :=
  if r.isResolved then (r, [])
  else match resolveTarget documentId index r.target with
    | .ok id => ({ r with resolvedBlockId := some id }, [])
    | .error cause => (r, [⟨cause, index.position? r.sourceBlockId⟩])

/-- Resolves references, each one by itself. -/
def resolveReferences (documentId : String) (index : BlockIndex) (rs : List Reference) :
    List Reference × List Diagnostic :=
  (rs.map fun r => (r.resolve documentId index).1,
    rs.flatMap fun r => (r.resolve documentId index).2)

end BlockDoc
