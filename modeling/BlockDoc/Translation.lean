import BlockDoc.Block.Id
import BlockDoc.Component

/-!
From the nodes of a text to the blocks of a document. Nodes that documents do not hold give no
block.
-/

namespace BlockDoc

/-- The elements of a paragraph that are more than blanks and breaks. -/
def isSignificant : Inline → Bool
  | .text value => !Text.isBlankText value
  | .softBreak => false
  | .hardBreak => false
  | _ => true

/-- The image of a paragraph in which nothing else stands. -/
def loneImage? (children : List Inline) : Option (BlockData Block) :=
  match children.filter isSignificant with
  | [.image url title alt] =>
    some (.image url (Inline.plainText alt) (if title.isEmpty then none else some title))
  | _ => none

/-- Two stretches of text with a soft break between them; none next to an empty one. -/
def joinText (a b : List Inline) : List Inline :=
  if a.isEmpty then b else if b.isEmpty then a else a ++ .softBreak :: b

mutual

/-- The text of a node inside a quote. Only paragraphs, headings and quotes have text there. -/
def quoteText : Node → List Inline
  | .mk _ (.paragraph children) => children
  | .mk _ (.heading _ _ children) => children
  | .mk _ (.quote children) => flattenQuote children
  | _ => []

/-- The text inside a quote, the text of its nodes being joined by soft breaks. -/
def flattenQuote : List Node → List Inline
  | [] => []
  | n :: rest => joinText (quoteText n) (flattenQuote rest)

end

/-- A node read as a block, before it has an id. -/
structure Draft where
  kind : String
  data : BlockData Block
  refs : List DeclaredRef
  causes : List Cause
  deriving Inhabited

namespace Draft

/-- A block of Markdown, which declares nothing. -/
def plain (kind : String) (data : BlockData Block) : Draft := ⟨kind, data, [], []⟩

/-- The block that a node stands for. -/
def ofContent? (registry : Registry) : Content → Option Draft
  | .heading depth anchor children => some (plain "heading" (.heading depth anchor children))
  | .paragraph children =>
    match loneImage? children with
    | some image => some (plain "image" image)
    | none => some (plain "paragraph" (.paragraph children))
  | .list l => some (plain "list" (.list l))
  | .code language details value =>
    match language with
    | some kind =>
      if componentPrefix.toList.isPrefixOf kind.toList then
        let c := Component.read registry kind value
        some ⟨kind, c.data, c.refs, c.causes⟩
      else some (plain "code" (.code language details value))
    | none => some (plain "code" (.code language details value))
  | .quote children => some (plain "blockquote" (.quote (flattenQuote children)))
  | .table t => some (plain "table" (.table t))
  | .thematicBreak => some (plain "thematic-break" .thematicBreak)
  | .html value => some (plain "html" (.html value))
  | .yaml _ => none
  | .unsupported _ => none

/-- The reference that a block at a path declares. -/
def pending (id : String) (anchor : Option String) (path : BlockPath) (r : DeclaredRef) :
    PendingReference :=
  ⟨path, ⟨.explicit, id, anchor, r.target, r.relation, r.label, none⟩⟩

/-- The block with an index in its sequence, and what is found in it. -/
def toBlock (scope : Scope) (index : Nat) (position : Range) (d : Draft) : Block × Findings :=
  let path := scope.pathOf index
  let id := provisionalId scope.documentId d.kind d.data
  let anchor := d.data.anchor?
  (⟨id, d.kind, d.data, position⟩,
    ⟨d.causes.map fun c => ⟨c, some position⟩,
      d.refs.map (pending id anchor path),
      anchor.toList.map fun a => (a, path)⟩)

end Draft

/-- The blocks of nodes, the first of which gets a given index, and what is found in them. -/
def translateFrom (scope : Scope) (index : Nat) : List Node → List Block × Findings
  | [] => ([], .none)
  | n :: rest =>
    match Draft.ofContent? scope.registry n.content with
    | none => translateFrom scope index rest
    | some draft =>
      let (block, found) := draft.toBlock scope index (scope.positionOf n.position)
      let (blocks, more) := translateFrom scope (index + 1) rest
      (block :: blocks, found ++ more)

/-- The blocks of nodes, and what is found in them. -/
def translate (scope : Scope) (nodes : List Node) : List Block × Findings :=
  translateFrom scope 0 nodes

end BlockDoc
