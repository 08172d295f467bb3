import BlockDoc.Yaml.Token.Scan

/-!
From tokens to the nodes of a single document. An alias keeps the number of its anchor; the nodes
that anchors stand for are kept beside the document.
-/

namespace BlockDoc.Yaml

/-- A node of a document. -/
inductive Node where
  | alias (anchor : Nat)
  | scalar (tag : Option String) (text : String) (plain : Bool)
  | sequence (tag : Option String) (items : List Node)
  | mapping (tag : Option String) (entries : List (Node × Node))
  deriving Repr, Inhabited

/-- The node that stands where nothing is written. -/
def Node.empty : Node := .scalar none "" true

/-- A node that an anchor stands for, and how many steps of the document come before it. -/
structure Anchored where
  anchor : Nat
  start : Nat
  node : Node
  deriving Inhabited

/-- What is known while tokens are read. -/
structure Reading where
  tokens : List Token
  /-- The replacements of tag handles. -/
  handles : List (String × String)
  /-- The number of steps so far: one for a scalar or an alias, two for a collection. -/
  steps : Nat
  /-- The number that an anchor's name stands for. -/
  names : List (String × Nat)
  anchored : List Anchored
  deriving Inhabited

/-- Reading of tokens that may be refused. -/
abbrev Read := StateT Reading (Except Error)

namespace Read

/-- The next token; behind the last one the end of the stream repeats. -/
def peek : Read Token := do return (← get).tokens.headD .streamEnd

/-- Leaves the next token behind. -/
def skip : Read Unit := modify fun r => { r with tokens := r.tokens.tail }

/-- Counts a step. -/
def step : Read Unit := modify fun r => { r with steps := r.steps + 1 }

/-- The empty node. -/
def empty : Read Node := do
  step
  return .empty

/-- Gives a name the number of names known before it. -/
def register (name : String) : Read (Nat × Nat) := do
  let r ← get
  let id := r.names.length
  set { r with names := (name, id) :: r.names.filter (fun n => n.1 ≠ name) }
  return (id, r.steps)

/-- Remembers the node of an anchor. -/
def remember (at? : Option (Nat × Nat)) (node : Node) : Read Unit :=
  match at? with
  | some (id, start) => modify fun r => { r with anchored := ⟨id, start, node⟩ :: r.anchored }
  | none => pure ()

/-- The properties in front of a node. -/
structure Properties where
  anchor : Option String
  tag : Option (String × String)

/-- Reads an anchor and a tag in either order. -/
def properties : Read Properties := do
  match ← peek with
  | .anchor name =>
    skip
    match ← peek with
    | .tag handle suffix =>
      skip
      return ⟨some name, some (handle, suffix)⟩
    | _ => return ⟨some name, none⟩
  | .tag handle suffix =>
    skip
    match ← peek with
    | .anchor name =>
      skip
      return ⟨some name, some (handle, suffix)⟩
    | _ => return ⟨none, some (handle, suffix)⟩
  | _ => return ⟨none, none⟩

/-- The full form of a tag. -/
def resolveTag (tag : Option (String × String)) : Read (Option String) := do
  match tag with
  | none => return none
  | some (handle, suffix) =>
    if handle.isEmpty then return some suffix
    else match (← get).handles.lookup handle with
      | some replacement => return some (replacement ++ suffix)
      | none => throw .unknownTagHandle

/-- Whether a token ends an entry of a block mapping. -/
def endsBlockValue : Token → Bool
  | .key | .value | .blockEnd => true
  | _ => false

/-- A collection's two steps around its contents. -/
def around {α : Type} (contents : Read α) : Read α := do
  step
  let a ← contents
  step
  return a

mutual

/-- Reads a node. Block collections are allowed when `block`; a sequence may stand at the
indentation of its key when `indentless`. -/
def node : Nat → Bool → Bool → Read Node
  | 0, _, _ => throw .missingNode
  | fuel + 1, block, indentless => do
    match ← peek with
    | .alias name =>
      match (← get).names.lookup name with
      | some id =>
        skip
        step
        return .alias id
      | none => throw .unknownAnchor
    | _ =>
      let props ← properties
      let tag ← resolveTag props.tag
      let place ← props.anchor.mapM register
      let n ← content fuel block indentless (props.anchor.isSome || tag.isSome) tag
      remember place n
      return n

/-- Reads a node behind its properties. -/
def content : Nat → Bool → Bool → Bool → Option String → Read Node
  | 0, _, _, _, _ => throw .missingNode
  | fuel + 1, block, indentless, hasProperties, tag => do
    match ← peek with
    | .scalar text plain =>
      skip
      step
      return .scalar (if tag = some "!" then none else tag) text plain
    | .flowSequenceStart =>
      skip
      return .sequence tag (← around (flowSequence fuel true))
    | .flowMappingStart =>
      skip
      return .mapping tag (← around (flowMapping fuel true))
    | t =>
      if indentless && t = .blockEntry then
        return .sequence tag (← around (indentlessSequence fuel))
      else if block && t = .blockSequenceStart then
        skip
        return .sequence tag (← around (blockSequence fuel))
      else if block && t = .blockMappingStart then
        skip
        return .mapping tag (← around (blockMapping fuel))
      else if hasProperties then
        step
        return .scalar tag "" true
      else throw .missingNode

/-- Reads the entries of a block sequence and its end. -/
def blockSequence : Nat → Read (List Node)
  | 0 => throw .missingEntry
  | fuel + 1 => do
    match ← peek with
    | .blockEntry =>
      skip
      let t ← peek
      let n ← if t = .blockEntry || t = .blockEnd then empty else node fuel true false
      return n :: (← blockSequence fuel)
    | .blockEnd =>
      skip
      return []
    | _ => throw .missingEntry

/-- Reads the entries of a sequence that stands at the indentation of its key. -/
def indentlessSequence : Nat → Read (List Node)
  | 0 => throw .missingEntry
  | fuel + 1 => do
    match ← peek with
    | .blockEntry =>
      skip
      let t ← peek
      let n ← if t = .blockEntry || endsBlockValue t then empty else node fuel true false
      return n :: (← indentlessSequence fuel)
    | _ => return []

/-- Reads the entries of a block mapping and its end. -/
def blockMapping : Nat → Read (List (Node × Node))
  | 0 => throw .missingKey
  | fuel + 1 => do
    match ← peek with
    | .key =>
      skip
      let k ← if endsBlockValue (← peek) then empty else node fuel true true
      let v ← match ← peek with
        | .value => do
          skip
          if endsBlockValue (← peek) then empty else node fuel true true
        | _ => empty
      return (k, v) :: (← blockMapping fuel)
    | .blockEnd =>
      skip
      return []
    | _ => throw .missingKey

/-- Reads the entries of a flow sequence and its end. -/
def flowSequence : Nat → Bool → Read (List Node)
  | 0, _ => throw .missingSequenceEnd
  | fuel + 1, first => do
    if (← peek) = .flowSequenceEnd then
      skip
      return []
    else
      unless first do
        if (← peek) = .flowEntry then skip else throw .missingSequenceEnd
      match ← peek with
      | .key =>
        skip
        let pair ← around (flowPair fuel)
        return .mapping none [pair] :: (← flowSequence fuel false)
      | .flowSequenceEnd =>
        skip
        return []
      | _ =>
        let n ← node fuel false false
        return n :: (← flowSequence fuel false)

/-- Reads a single pair that stands as an entry of a flow sequence. -/
def flowPair : Nat → Read (Node × Node)
  | 0 => throw .missingSequenceEnd
  | fuel + 1 => do
    let t ← peek
    let k ← if t = .value || t = .flowEntry || t = .flowSequenceEnd then do
        skip
        empty
      else node fuel false false
    let v ← match ← peek with
      | .value => do
        skip
        let t ← peek
        if t = .flowEntry || t = .flowSequenceEnd then empty else node fuel false false
      | _ => empty
    return (k, v)

/-- Reads the entries of a flow mapping and its end. -/
def flowMapping : Nat → Bool → Read (List (Node × Node))
  | 0, _ => throw .missingMappingEnd
  | fuel + 1, first => do
    if (← peek) = .flowMappingEnd then
      skip
      return []
    else
      unless first do
        if (← peek) = .flowEntry then skip else throw .missingMappingEnd
      match ← peek with
      | .key =>
        skip
        let t ← peek
        let k ← if t = .value || t = .flowEntry || t = .flowMappingEnd then empty
          else node fuel false false
        let v ← match ← peek with
          | .value => do
            skip
            let t ← peek
            if t = .flowEntry || t = .flowMappingEnd then empty else node fuel false false
          | _ => empty
        return (k, v) :: (← flowMapping fuel false)
      | .flowMappingEnd =>
        skip
        return []
      | _ =>
        let k ← node fuel false false
        let v ← empty
        return (k, v) :: (← flowMapping fuel false)

end

/-- Reads the directives in front of a document. -/
def directives : Nat → Bool → Read Unit
  | 0, _ => pure ()
  | fuel + 1, versionSeen => do
    match ← peek with
    | .version major minor =>
      if versionSeen then throw .repeatedDirective
      unless major = 1 && (minor = 1 || minor = 2) do throw .wrongVersion
      skip
      directives fuel true
    | .tagHandle handle replacement =>
      if ((← get).handles.lookup handle).isSome then throw .repeatedDirective
      modify fun r => { r with handles := (handle, replacement) :: r.handles }
      skip
      directives fuel versionSeen
    | _ => pure ()

/-- Skips marks at the end of a document. -/
def endMarks : Nat → Read Unit
  | 0 => pure ()
  | fuel + 1 => do
    if (← peek) = .documentEnd then
      skip
      endMarks fuel

/-- Whether nothing stands between the start mark of a document and its end. -/
def endsDocument : Token → Bool
  | .version .. | .tagHandle .. | .documentStart | .documentEnd | .streamEnd => true
  | _ => false

/-- Handles that need no directive. -/
def standardHandles : List (String × String) := [("!", "!"), ("!!", "tag:yaml.org,2002:")]

/-- Reads the only document of a stream, nothing when the stream is empty. -/
def document (fuel : Nat) : Read (Option Node) := do
  match ← peek with
  | .streamEnd => return none
  | first =>
    let explicit := match first with
      | .version .. | .tagHandle .. | .documentStart => true
      | _ => false
    if explicit then
      directives fuel false
      unless (← peek) = .documentStart do throw .missingDocumentStart
      skip
    modify fun r => { r with handles := r.handles ++ standardHandles }
    let n ← if explicit && endsDocument (← peek) then empty else node fuel true false
    endMarks fuel
    unless (← peek) = .streamEnd do throw .severalDocuments
    return some n

end Read

/-- A document: its node, the nodes of its anchors, and the number of its steps. -/
structure Document where
  node : Option Node
  anchored : List Anchored
  steps : Nat
  deriving Inhabited

/-- The only document of a list of tokens. -/
def Document.ofTokens (tokens : List Token) : Except Error Document := do
  let (n, r) ← (Read.document (4 * tokens.length + 8)).run ⟨tokens, [], 0, [], []⟩
  return ⟨n, r.anchored, r.steps⟩

/-- The node that an anchor's number stands for: the one that starts last. -/
def Document.target? (d : Document) (anchor : Nat) : Option Node :=
  let candidates := d.anchored.filter (·.anchor == anchor)
  (candidates.foldl (fun best a => match best with
    | some b => if b.start < a.start then some a else some b
    | none => some a) (none : Option Anchored)).map Anchored.node

end BlockDoc.Yaml
